import Schemata.Document
import Schemata.Union

/-!
# Schemas of documents

A document is read as a schema by its kind.  Attributes are looked up by name,
and those that the kind does not have are not looked at.  The first thing that
is wrong, in a fixed order of attributes, is the error; it says at which place
of the document it was found.
-/

namespace Schemata

inductive DocumentProblem
  | missing
  | notString (found : Document)
  | notBoolean (found : Document)
  | notInteger (found : Document)
  | notList (found : Document)
  | notObject (found : Document)
  | keyNotString (key : Value)
  | unknownKind (name : Bytes)

def DocumentProblem.text : DocumentProblem → Bytes
  | .missing => "missing"
  | .notString found => "expected a string, got " ++ found.typeName
  | .notBoolean found => "expected a boolean, got " ++ found.typeName
  | .notInteger found => "expected an integer, got " ++ found.shown
  | .notList found => "expected a list, got " ++ found.typeName
  | .notObject found => "expected a map, got " ++ found.typeName
  | .keyNotString key => "non string key " ++ key.shown
  | .unknownKind name => Kind.unknownMessage name

inductive DecodeError
  /-- The text is no document at all. -/
  | malformed
  | problem (place : Bytes) (p : DocumentProblem)
  | construction (e : ConstructionError)

def DecodeError.message : DecodeError → Bytes
  | .malformed => "decode error: "
  | .problem place p => "decode error: " ++ place ++ ": " ++ p.text
  | .construction e => e.message

namespace Document

/-- Reading documents reports the unions that are built. -/
abbrev DecodeT (m : Type → Type) := ExceptT DecodeError m

variable {m : Type → Type} [Monad m]

/-- A member of an object, with the ways to read it: as a schema, as the fields
of a record and as the possibilities of a union, each at a place. -/
structure Member (m : Type → Type) where
  document : Document
  schema : Bytes → DecodeT m Schema
  fields : Bytes → DecodeT m (List (Bytes × Option Schema))
  possibilities : Bytes → DecodeT m (List (Option Schema))

structure Members (m : Type → Type) where
  place : Bytes
  members : List (Bytes × Member m)

namespace Members

def placeOf (ms : Members m) (name : Bytes) : Bytes := ms.place ++ "." ++ name

def fail {α : Type} (ms : Members m) (name : Bytes) (p : DocumentProblem) :
    DecodeT m α :=
  throw (.problem (ms.placeOf name) p)

/-- The member of a name; a null member counts as none. -/
def get? (ms : Members m) (name : Bytes) : Option (Member m) :=
  (ms.members.lookup name).filter fun x => match x.document with
    | .null => false
    | _ => true

def string (ms : Members m) (name : Bytes) : DecodeT m Bytes :=
  match (ms.get? name).map Member.document with
  | none => ms.fail name .missing
  | some (.text s) => return s
  | some found => ms.fail name (.notString found)

/-- A truth value, false if it is not there. -/
def boolean (ms : Members m) (name : Bytes) : DecodeT m Bool :=
  match (ms.get? name).map Member.document with
  | none => return false
  | some (.boolean b) => return b
  | some found => ms.fail name (.notBoolean found)

def integer? (ms : Members m) (name : Bytes) : DecodeT m (Option Int) :=
  match (ms.get? name).map Member.document with
  | none => return none
  | some found =>
    match found.integer? with
    | some n => return some n
    | none => ms.fail name (.notInteger found)

def integer (ms : Members m) (name : Bytes) : DecodeT m Int := do
  match ← ms.integer? name with
  | some n => return n
  | none => ms.fail name .missing

/-- A bound on the length, -1 if it is not there. -/
def maxLength (ms : Members m) (kind : Kind) : DecodeT m Int := do
  match ← ms.integer? "maxlength" with
  | none => return -1
  | some n =>
    if n < 0 then
      throw (.construction (.negativeLength kind (ms.placeOf "maxlength") n))
    else return n

def schema (ms : Members m) (name : Bytes) : DecodeT m Schema :=
  match ms.get? name with
  | none => ms.fail name .missing
  | some x => x.schema (ms.placeOf name)

def integersFrom (ms : Members m) (name : Bytes) :
    Nat → List Document → DecodeT m (List Int)
  | _, [] => return []
  | position, d :: rest => do
    match d.integer? with
    | none => ms.fail (name ++ "[" ++ decimal position ++ "]") (.notInteger d)
    | some n => return n :: (← ms.integersFrom name (position + 1) rest)

def integers (ms : Members m) (name : Bytes) : DecodeT m (List Int) :=
  match (ms.get? name).map Member.document with
  | none => return []
  | some (.list items) => ms.integersFrom name 0 items
  | some found => ms.fail name (.notList found)

def fields (ms : Members m) (name : Bytes) :
    DecodeT m (List (Bytes × Option Schema)) :=
  match ms.get? name with
  | none => return []
  | some x => x.fields (ms.placeOf name)

def possibilities (ms : Members m) (name : Bytes) :
    DecodeT m (List (Option Schema)) :=
  match ms.get? name with
  | none => return []
  | some x => x.possibilities (ms.placeOf name)

end Members

def constructed (result : Except ConstructionError Schema) : DecodeT m Schema :=
  match result with
  | .ok s => return s
  | .error e => throw (.construction e)

def readNode [MonadReport m] (ms : Members m) : DecodeT m Schema := do
  let name ← ms.string "kind"
  match Kind.parse? name with
  | none => throw (.problem ms.place (.unknownKind name))
  | some .anything => return .anything
  | some .nothing => return .nothing
  | some .null => return .null
  | some .boolean => return .boolean
  | some .number =>
    let whole ← ms.boolean "whole"
    let signed ← ms.boolean "signed"
    let nbytes ← ms.integer "nbytes"
    constructed (Build.number whole signed nbytes)
  | some .string =>
    let charset ← ms.string "charset"
    let length ← ms.maxLength .string
    constructed (Build.string charset length)
  | some .tensor =>
    let items ← ms.schema "items"
    let dimensions ← ms.integers "dimensions"
    constructed (Build.tensor (some items) dimensions)
  | some .collection =>
    let items ← ms.schema "items"
    let ordered ← ms.boolean "ordered"
    let length ← ms.maxLength .collection
    constructed (Build.collection (some items) ordered length)
  | some .mapping =>
    let keys ← ms.schema "keys"
    let values ← ms.schema "values"
    constructed (Build.mapping (some keys) (some values))
  | some .record =>
    let fields ← ms.fields "fields"
    constructed (Build.record fields)
  | some .union =>
    let possibilities ← ms.possibilities "possibilities"
    let built ← ExceptT.lift (Build.unionM possibilities).run
    constructed built
  | some .reference =>
    let path ← ms.string "path"
    constructed (Build.reference path)

/-- Reads fields in the order of their names. -/
def readFields (place : Bytes) :
    List (Bytes × Member m) → DecodeT m (List (Bytes × Option Schema))
  | [] => return []
  | (name, x) :: rest => do
    let f ← x.schema (place ++ "." ++ nameText name)
    return (name, some f) :: (← readFields place rest)

/-- The members of an object with arbitrary keys, if all of them are strings. -/
def named (place : Bytes) :
    List (Value × Member m) → DecodeT m (List (Bytes × Member m))
  | [] => return []
  | (.text name, x) :: rest => return (name, x) :: (← named place rest)
  | (key, _) :: _ => throw (.problem place (.keyNotString key))

variable [MonadReport m]

mutual

def schemaAt : Document → Bytes → DecodeT m Schema
  | .object members, place => readNode ⟨place, memberReaders members⟩
  | .table entries, place => do
    let members ← named place (entryReaders entries)
    readNode ⟨place, members⟩
  | d, place => throw (.problem place (.notObject d))

def fieldsAt : Document → Bytes → DecodeT m (List (Bytes × Option Schema))
  | .object members, place =>
    readFields place (sortEntries (memberReaders members))
  | .table entries, place => do
    let members ← named place (entryReaders entries)
    readFields place (sortEntries members)
  | d, place => throw (.problem place (.notObject d))

def possibilitiesAt : Document → Bytes → DecodeT m (List (Option Schema))
  | .list items, place => itemsAt 0 items place
  | d, place => throw (.problem place (.notList d))

/-- Reads documents as schemas, each at its position, counted from
`position`. -/
def itemsAt (position : Nat) :
    List Document → Bytes → DecodeT m (List (Option Schema))
  | [], _ => return []
  | d :: rest, place => do
    let s ← schemaAt d (place ++ "[" ++ decimal position ++ "]")
    return some s :: (← itemsAt (position + 1) rest place)

def memberReaders : List (Bytes × Document) → List (Bytes × Member m)
  | [] => []
  | (name, d) :: rest =>
    (name, ⟨d, fun place => schemaAt d place, fun place => fieldsAt d place,
      fun place => possibilitiesAt d place⟩) :: memberReaders rest

def entryReaders : List (Value × Document) → List (Value × Member m)
  | [] => []
  | (key, d) :: rest =>
    (key, ⟨d, fun place => schemaAt d place, fun place => fieldsAt d place,
      fun place => possibilitiesAt d place⟩) :: entryReaders rest

end

def toSchemaM (d : Document) : DecodeT m Schema := schemaAt d "$"

end Document

def Document.toSchema (d : Document) : Except DecodeError Schema :=
  Id.run d.toSchemaM.run

end Schemata
