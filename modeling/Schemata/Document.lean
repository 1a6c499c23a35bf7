import Schemata.Value

/-!
# Documents

A document is what schemas are read from and written to: null, truth values,
numbers, strings, lists and objects.  Numbers come in several types and objects
in two forms, with names or with arbitrary keys.  Whatever else may stand in a
document is kept as a value.
-/

namespace Schemata

inductive Document
  | null
  | boolean (b : Bool)
  | integer (type : IntegerType) (n : Int)
  | float (type : FloatType) (x : Floating)
  | text (s : Bytes)
  | list (items : List Document)
  | object (members : List (Bytes × Document))
  /-- An object with arbitrary keys. -/
  | table (entries : List (Value × Document))
  | other (v : Value)
  deriving Inhabited

namespace Document

mutual

def toValue : Document → Value
  | .null => .absent
  | .boolean b => .boolean b
  | .integer type n => .integer type n
  | .float type x => .float type x
  | .text s => .text s
  | .list items => .slice .dynamic (itemValues items)
  | .object members => .map .text .dynamic (memberValues members)
  | .table entries => .map .dynamic .dynamic (entryValues entries)
  | .other v => v

def itemValues : List Document → List Value
  | [] => []
  | d :: rest => d.toValue :: itemValues rest

def memberValues : List (Bytes × Document) → List (Value × Value)
  | [] => []
  | (name, d) :: rest => (.text name, d.toValue) :: memberValues rest

def entryValues : List (Value × Document) → List (Value × Value)
  | [] => []
  | (key, d) :: rest => (key, d.toValue) :: entryValues rest

end

def typeName (d : Document) : Bytes := d.toValue.typeName

def shown (d : Document) : Bytes := d.toValue.shown

/-- Integral numbers of floating point types count up to this magnitude. -/
def exactLimit : Nat := 9007199254740992

/-- The integer that a document is.  Unsigned words count if they fit 64 bits
with a sign, floating point numbers if they are integral and exact. -/
def integer? : Document → Option Int
  | .integer .uintptr _ => none
  | .integer .uint n | .integer .uint64 n =>
    if n < signedLimit then some n else none
  | .integer _ n => some n
  | .float _ x => x.toInt?.filter fun n => n.natAbs ≤ exactLimit
  | _ => none

/-- A key before another, with the key `kind` before all. -/
def compareNames (a b : Bytes) : Ordering :=
  if a = ("kind" : Bytes) then if b = ("kind" : Bytes) then .eq else .lt
  else if b = ("kind" : Bytes) then .gt
  else compare a b

mutual

/-- The document with the members of every object in the order they are written
in. -/
def ordered : Document → Document
  | .list items => .list (orderedItems items)
  | .object members =>
    .object (sortBy (fun a b => compareNames a.1 b.1) (orderedMembers members))
  | d => d

def orderedItems : List Document → List Document
  | [] => []
  | d :: rest => d.ordered :: orderedItems rest

def orderedMembers : List (Bytes × Document) → List (Bytes × Document)
  | [] => []
  | (name, d) :: rest => (name, d.ordered) :: orderedMembers rest

end

end Document

namespace Value

mutual

def toDocument : Value → Document
  | .absent => .null
  | .boolean b => .boolean b
  | .integer type n => .integer type n
  | .float type x => .float type x
  | .text s => .text s
  | .slice .dynamic items => .list (itemDocuments items)
  | .map .text .dynamic entries => .object (memberDocuments entries)
  | .map .dynamic .dynamic entries => .table (entryDocuments entries)
  | .unmade (.slice .dynamic) => .list []
  | .unmade (.map .text .dynamic) => .object []
  | .unmade (.map .dynamic .dynamic) => .table []
  | v => .other v

def itemDocuments : List Value → List Document
  | [] => []
  | v :: rest => v.toDocument :: itemDocuments rest

def memberDocuments : List (Value × Value) → List (Bytes × Document)
  | [] => []
  | (key, v) :: rest =>
    (key.string?.getD [], v.toDocument) :: memberDocuments rest

def entryDocuments : List (Value × Value) → List (Value × Document)
  | [] => []
  | (key, v) :: rest => (key, v.toDocument) :: entryDocuments rest

end

end Value

end Schemata
