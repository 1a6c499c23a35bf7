import Schemata.Schema.Text

/-!
# Dereferencing

A path is followed from a schema one segment at a time.  Names select record
fields and string keys; positions select tensor elements, one dimension at a
time, elements of ordered collections and integer keys.  Unions, references and
atomic schemas have nothing to select from.

A reference is resolved by following its path and then position 0, since it
points at the elements of a table.  What it finds has to be concrete: neither a
reference nor a choice between possibilities.
-/

namespace Schemata

inductive DereferenceError.Reason
  | fieldIntoTensor
  | tensorIndex (i : Int) (extent : Nat)
  | fieldIntoCollection
  | collectionIndex (i : Int) (maxLength : Option Nat)
  | unordered (i : Int)
  | mappingKeys (keys : Schema)
  | indexIntoRecord
  | noField (name : Bytes)
  | intoUnion
  | intoReference
  | intoAtom (kind : Kind)
  | invalidPath (cause : PathError)
  | missingRoot
  | targetIsReference (target : Schema)
  | targetIsAmbiguous (target : Schema)

structure DereferenceError where
  path : Path
  /-- The failing segment's position in the path, if one fails. -/
  position : Option Nat
  kind : Kind
  reason : DereferenceError.Reason

namespace DereferenceError

def Reason.text : Reason → Bytes
  | .fieldIntoTensor => "can't use a field to dereference a tensor"
  | .tensorIndex i extent =>
    "index " ++ decimalInt i ++ " out of range for tensor dimension " ++
      decimal extent
  | .fieldIntoCollection => "can't use a field to dereference a collection"
  | .collectionIndex i maxLength =>
    "index " ++ decimalInt i ++ " out of range for collection with maxlength "
      ++ decimalInt (maxLength.elim (-1) fun n => n)
  | .unordered i =>
    "can't dereference index " ++ decimalInt i ++
      " from an unordered collection"
  | .mappingKeys keys => "can't dereference mapping with keys " ++ keys.text
  | .indexIntoRecord => "can't use an index to dereference a record"
  | .noField name => "no field named " ++ Text.quote name
  | .intoUnion => "can't dereference a union"
  | .intoReference => "can't dereference a reference"
  | .intoAtom kind => kind.name ++ " cannot be dereferenced"
  | .invalidPath cause => cause.message
  | .missingRoot => "nil root"
  | .targetIsReference target => "target " ++ target.text ++ " is a reference"
  | .targetIsAmbiguous target => "target " ++ target.text ++ " is ambiguous"

def message (e : DereferenceError) : Bytes :=
  let segment : Bytes := match e.position.bind (e.path[·]?) with
    | some s => s.text
    | none => "<none>"
  "dereference error: " ++ e.kind.name ++ " at " ++ segment ++ " (path " ++
    Text.quote e.path.text ++ "): " ++ e.reason.text

end DereferenceError

namespace Schema

/-- Whether a segment has the form of the keys: a name for strings, a position
for whole numbers. -/
def acceptsKey (keys : Schema) (segment : Segment) : Bool :=
  match keys.unwrap with
  | .string _ _ => !segment.isIndex
  | .number whole _ _ => whole && segment.isIndex
  | _ => false

def step : Schema → Segment → Except DereferenceError.Reason Schema
  | .tensor items [], segment => items.step segment
  | .tensor _ (_ :: _), .field _ => .error .fieldIntoTensor
  | .tensor items (d :: ds), .index i =>
    if i < 0 || (d : Int) ≤ i then .error (.tensorIndex i d)
    else if ds.isEmpty then .ok items
    else .ok (.tensor items ds)
  | .collection _ _ _, .field _ => .error .fieldIntoCollection
  | .collection items ordered maxLength, .index i =>
    if i < 0 || maxLength.any (fun n => (n : Int) ≤ i) then
      .error (.collectionIndex i maxLength)
    else if !ordered then .error (.unordered i)
    else .ok items
  | .mapping keys values, segment =>
    if keys.acceptsKey segment then .ok values else .error (.mappingKeys keys)
  | .record _, .index _ => .error .indexIntoRecord
  | .record fields, .field name =>
    match field? name fields with
    | some f => .ok f
    | none => .error (.noField name)
  | .union _, _ => .error .intoUnion
  | .reference _, _ => .error .intoReference
  | s, _ => .error (.intoAtom s.kind)

def dereferenceFrom (whole : Path) :
    Nat → Schema → Path → Except DereferenceError Schema
  | _, s, [] => .ok s
  | position, s, segment :: rest =>
    match s.step segment with
    | .error reason => .error ⟨whole, some position, s.kind, reason⟩
    | .ok next => dereferenceFrom whole (position + 1) next rest

def dereference (s : Schema) (path : Path) : Except DereferenceError Schema :=
  dereferenceFrom path 0 s path

/-- The path that a reference is resolved by: its own path and then position
0. -/
def elementPath (path : Path) : Path := path ++ [.index 0]

/-- Accepts the schema found at the end of a reference if it is concrete. -/
def concrete (path : Path) (target : Schema) : Except DereferenceError Schema :=
  match target.unwrap with
  | .reference p =>
    .error ⟨path, none, .reference, .targetIsReference (.reference p)⟩
  | .union ps => .error ⟨path, none, .union, .targetIsAmbiguous (.union ps)⟩
  | _ => .ok target

/-- The schema of the elements that a reference with this path points at in
`root`. -/
def resolve (root : Option Schema) (path : Path) :
    Except DereferenceError Schema :=
  match root with
  | none => .error ⟨path, none, .reference, .missingRoot⟩
  | some root =>
    match root.dereference (elementPath path) with
    | .error e => .error e
    | .ok target => concrete (elementPath path) target

end Schema

end Schemata
