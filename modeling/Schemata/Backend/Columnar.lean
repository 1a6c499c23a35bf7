import Schemata.Backend

/-!
# The columnar backend

Columns hold elements of one fixed width.  The backend represents truth values,
integers of 1, 2, 4 or 8 bytes, signed floating point numbers of 2, 4, 8 or 16
bytes, byte strings and fixed width text, tensors, collections, records of
primitive fields, and unions of one possibility, which may be nullable.

Members have exactly the type that the schema says.  All elements of a column
are alike, so that only the first one of a list is looked at.
-/

namespace Schemata.Columnar

/-- What is required of nodes, by kind.  Kinds without a rule are supported. -/
def rules : List (Kind × Bytes) :=
  [(.anything, "false"), (.nothing, "false"), (.null, "false"),
    (.number,
     "whole ? nbytes in [1, 2, 4, 8] : signed && nbytes in [2, 4, 8, 16]"),
    (.string, "charset in [\"bytes\", \"utf-32le\"]"), (.mapping, "false"),
    (.record, "primitiveFields"),
    (.union, "possibilities == 1 || (possibilities == 2 && nullable)"),
    (.reference, "false")]

def stringLength? (charset : Bytes) (v : Value) : Option Nat :=
  if charset = charsetBytes then v.stringLength? charsetBytes
  else if charset = charsetUtf32 then v.stringLength? charsetUtf8
  else none

/-- The value reached through first elements of nested lists of the given
lengths. -/
def firstWithin? : List Nat → Value → Option Value
  | [], v => some v
  | d :: ds, v =>
    match v.core.elements? with
    | some (first :: rest) =>
      if rest.length + 1 = d then firstWithin? ds first else none
    | _ => none

mutual

def isInstance : Schema → Value → Bool
  | .boolean, v => match v.core with
    | .boolean _ => true
    | _ => false
  | .number whole signed nbytes, v =>
    v.core.number? == some (whole, signed, nbytes)
  | .string charset maxLength, v =>
    match stringLength? charset v.core with
    | some length => Schema.withinLength maxLength length
    | none => false
  | .tensor items dimensions, v =>
    match firstWithin? dimensions v with
    | some w => isInstance items w
    | none => false
  | .collection items _ maxLength, v =>
    match v.core.elements? with
    | none => false
    | some [] => true
    | some (first :: rest) =>
      Schema.withinLength maxLength (rest.length + 1) && isInstance items first
  | .record fields, v =>
    hasFields fields v.core && match v.core with
      | .struct _ => true
      | .map _ _ _ => true
      | _ => false
  | .union [p], v => isInstance p v
  | .union [p, q], v =>
    if p.kind = .null then
      match v.core with
      | .absent => true
      | _ => isInstance q v
    else false
  | _, _ => false

def hasFields : List (Bytes × Schema) → Value → Bool
  | [], _ => true
  | (name, f) :: rest, v =>
    (match v.field? name with
      | some w => isInstance f w
      | none => false) && hasFields rest v

end

/-- Text in columns has a fixed width. -/
def adaptCharset (charset : Bytes) : Bytes :=
  if charset = charsetUtf8 then charsetUtf32 else charset

def supportsNode (s : Schema) : Bool :=
  match RuleTable.compile rules with
  | .ok table => table.allows s
  | .error _ => false

def backend : Backend :=
  { name := "columnar", supportsNode, isInstance, adaptCharset }

end Schemata.Columnar
