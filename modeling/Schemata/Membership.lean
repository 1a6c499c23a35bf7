import Schemata.Subtyping
import Schemata.Value

/-!
# Membership

A value is a member of a schema if it has the form that the schema describes.
Numbers describe themselves by their types, so a number is a member if the
schema covers that of its type.  Text and byte strings are members of different
schemas.  Lists are tensors and collections; sets are collections too.
Structures and associations with string keys are records.  Any integer may be a
reference.
-/

namespace Schemata

/-- Whether a value is nested lists of the given lengths, outermost first, whose
innermost elements all pass a test. -/
def hasShape (test : Value → Bool) : List Nat → Value → Bool
  | [], v => test v
  | d :: ds, v =>
    match v.core.elements? with
    | some items => items.length == d && items.all (hasShape test ds)
    | none => false

namespace Schema

def withinLength (maxLength : Option Nat) (length : Nat) : Bool :=
  match maxLength with
  | none => true
  | some n => length ≤ n

/-- Whether a value is a list or set, within a bound, whose elements all pass a
test. -/
def isCollectionOf (test : Value → Bool) (maxLength : Option Nat) : Value → Bool
  | .map _ element entries =>
    element.isEmptyStruct && withinLength maxLength entries.length &&
      entries.all fun e => test e.1
  | v =>
    match v.elements? with
    | some items => withinLength maxLength items.length && items.all test
    | none => false

mutual

def isInstance : Schema → Value → Bool
  | .anything, _ => true
  | .nothing, _ => false
  | .null, v => match v.core with
    | .absent => true
    | _ => false
  | .boolean, v => match v.core with
    | .boolean _ => true
    | _ => false
  | .number whole signed nbytes, v =>
    match v.core.number? with
    | some (whole', signed', nbytes') =>
      Subtyping.coversNumber whole signed nbytes whole' signed' nbytes'
    | none => false
  | .string charset maxLength, v =>
    match v.core.stringLength? charset with
    | some length => withinLength maxLength length
    | none => false
  | .tensor items dimensions, v =>
    hasShape (fun w => items.isInstance w) dimensions v
  | .collection items _ maxLength, v =>
    isCollectionOf (fun w => items.isInstance w) maxLength v.core
  | .mapping keys values, v =>
    match v.core with
    | .map _ _ entries =>
      entries.all fun e => keys.isInstance e.1 && values.isInstance e.2
    | _ => false
  | .record fields, v =>
    hasFields fields v.core && match v.core with
      | .struct _ => true
      | .map _ _ _ => true
      | _ => false
  | .union possibilities, v => isInstanceOfAny possibilities v
  | .reference _, v => match v.core with
    | .integer _ _ => true
    | _ => false

def isInstanceOfAny : List Schema → Value → Bool
  | [], _ => false
  | p :: ps, v => p.isInstance v || isInstanceOfAny ps v

def hasFields : List (Bytes × Schema) → Value → Bool
  | [], _ => true
  | (name, f) :: rest, v =>
    (match v.field? name with
      | some w => f.isInstance w
      | none => false) && hasFields rest v

end

def isDatasetOf (test : Value → Bool) (data : Value) : Bool :=
  match data.core.elements? with
  | some items => items.all test
  | none => false

def isDataset (s : Schema) (data : Value) : Bool :=
  isDatasetOf s.isInstance data

end Schema

end Schemata
