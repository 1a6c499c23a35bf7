import Schemata.Json
import Schemata.Number.Decimal

/-!
# JSON patches

A patch is a list of operations on one JSON value: adding, removing, replacing,
moving and copying what a pointer leads to, and testing it.  The last part of a
pointer is a key into the object or array that the other parts lead to.  In an
array it is an index, where `-` stands behind the last item when adding, and
negative numbers count from the end when adding and removing.

The first operation that does not apply ends the patch.
-/

namespace Schemata

inductive AccessError
  | notNumber (key : Bytes) (cause : NumeralError)
  /-- The key to add at is no number. -/
  | notPosition (key : Bytes) (cause : NumeralError)
  | noItem (index : Int)
  | noMember (key : Bytes)
  /-- An item before the first one was asked for. -/
  | negative

namespace AccessError

def numeralMessage (key : Bytes) (cause : NumeralError) : Bytes :=
  "strconv.Atoi: parsing " ++ Text.quote key ++ ": " ++ cause.message

def message : AccessError → Bytes
  | .notNumber key cause => numeralMessage key cause
  | .notPosition key cause =>
    "value was not a proper array index: '" ++ key ++ "': " ++
      numeralMessage key cause
  | .noItem index =>
    "Unable to access invalid index: " ++ decimalInt index ++
      ": invalid index referenced"
  | .noMember key =>
    "Unable to remove nonexistent key: " ++ key ++ ": missing value"
  | .negative => []

end AccessError

namespace Json

def isContainer : Json → Bool
  | .array _ => true
  | .object _ => true
  | _ => false

def index (key : Bytes) : Except AccessError Int :=
  match readInt key with
  | .ok i => .ok i
  | .error cause => .error (.notNumber key cause)

/-- The value at a key; a missing member is null. -/
def get (j : Json) (key : Bytes) : Except AccessError Json :=
  match j with
  | .object members => .ok ((member? key members).getD .null)
  | .array items => do
    let i ← index key
    if i < 0 then throw .negative
    match items[i.toNat]? with
    | some item => return item
    | none => throw (.noItem i)
  | _ => .ok .null

/-- Puts a value at a key that `get` accepts. -/
def put (j : Json) (key : Bytes) (value : Json) : Json :=
  match j with
  | .object members => .object (setMember key value (merge members))
  | .array items =>
    match readInt key with
    | .ok i => .array (items.set i.toNat value)
    | .error _ => .array items
  | j => j

/-- The position of an index among `length`, where negative ones count from the
end. -/
def position (i : Int) (length : Nat) : Except AccessError Nat :=
  if (length : Int) ≤ i || i < -(length : Int) then .error (.noItem i)
  else .ok (if i < 0 then i + length else i).toNat

/-- Adds a value at a key: a member, new or not, or an item in front of the one
at the index. -/
def add (j : Json) (key : Bytes) (value : Json) : Except AccessError Json :=
  match j with
  | .object members => .ok (.object (setMember key value (merge members)))
  | .array items =>
    if key == "-" then .ok (.array (items ++ [value]))
    else
      match readInt key with
      | .error cause => .error (.notPosition key cause)
      | .ok i => do
        let place ← position i (items.length + 1)
        return .array (items.insertIdx place value)
  | j => .ok j

def remove (j : Json) (key : Bytes) : Except AccessError Json :=
  match j with
  | .object members =>
    if (member? key members).isSome then
      .ok (.object ((merge members).filter fun m => m.1 != key))
    else .error (.noMember key)
  | .array items => do
    let i ← index key
    let place ← position i items.length
    return .array (items.eraseIdx place)
  | j => .ok j

mutual

/-- Whether two values are equal: objects by their members, arrays item by item,
all else by spelling. -/
def agrees : Json → Json → Bool
  | .object ms, .object ns =>
    (merge ms).length == (merge ns).length && agreesMembers ms ns
  | .array xs, .array ys => agreesItems xs ys
  | .null, .null => true
  | .boolean a, .boolean b => a == b
  | .number a, .number b => a == b
  | .string _ a, .string _ b => a == b
  | _, _ => false

def agreesItems : List Json → List Json → Bool
  | [], [] => true
  | x :: xs, y :: ys => x.agrees y && agreesItems xs ys
  | _, _ => false

/-- Whether the members that count each equal the other member of that name. -/
def agreesMembers : List (Bytes × Json) → List (Bytes × Json) → Bool
  | [], _ => true
  | (name, x) :: rest, others =>
    ((rest.any fun m => m.1 == name) ||
      match member? name others with
      | some y => x.agrees y
      | none => false)
      && agreesMembers rest others

end

end Json

inductive PatchVerb
  | add | remove | replace | move | copy | test
  deriving DecidableEq

namespace PatchVerb

def all : List PatchVerb := [.add, .remove, .replace, .move, .copy, .test]

def name : PatchVerb → Bytes
  | .add => "add"
  | .remove => "remove"
  | .replace => "replace"
  | .move => "move"
  | .copy => "copy"
  | .test => "test"

end PatchVerb

inductive PatchError
  | notObject
  | pointerNotText
  | unknownOperation (name : Bytes)
  | missingPath (verb : PatchVerb)
  | missingSource (verb : PatchVerb)
  | noContainer (verb : PatchVerb) (pointer : Bytes)
  | noSource (verb : PatchVerb) (pointer : Bytes)
  | noDestination (verb : PatchVerb) (pointer : Bytes)
  | noItemToReplace (pointer : Bytes)
  | refused (verb : PatchVerb) (place : Bytes) (cause : AccessError)
  | copyRefused (source : Bytes) (cause : AccessError)
  | copyNotAdded (cause : AccessError)
  | testFailed (pointer : Bytes)
  /-- An item before the first one was asked for, which is not reported but
  breaks off. -/
  | negativeIndex

namespace PatchError

/-- The error of a key, where a negative index breaks off. -/
def ofKey (error : AccessError → PatchError) : AccessError → PatchError
  | .negative => .negativeIndex
  | cause => error cause

/-- What is said of a patch that does not apply; nothing where a JSON text
itself is to blame. -/
def message : PatchError → Option Bytes
  | .notObject => none
  | .pointerNotText => none
  | .unknownOperation name => some ("Unexpected kind: " ++ name)
  | .missingPath verb =>
    let detail : Bytes := match verb with
      | .replace | .move | .test => "operation missing path field: "
      | _ => ""
    some (verb.name ++ " operation failed to decode path: " ++ detail ++
      "missing value")
  | .missingSource verb =>
    some (verb.name ++
      " operation failed to decode from: operation, missing from field: missing value")
  | .noContainer verb pointer =>
    let place : Bytes := match verb with
      | .add | .remove => "doc is missing path: \"" ++ pointer ++ "\""
      | .test => "is missing path: " ++ pointer
      | _ => "doc is missing path: " ++ pointer
    some (verb.name ++ " operation does not apply: " ++ place ++
      ": missing value")
  | .noSource verb pointer =>
    some (verb.name ++
      " operation does not apply: doc is missing from path: " ++ pointer ++
      ": missing value")
  | .noDestination verb pointer =>
    some (verb.name ++
      " operation does not apply: doc is missing destination path: " ++
      pointer ++ ": missing value")
  | .noItemToReplace pointer =>
    some ("replace operation does not apply: doc is missing key: " ++ pointer ++
      ": missing value")
  | .refused verb place cause =>
    some ("error in " ++ verb.name ++ " for path: '" ++ place ++ "': " ++
      cause.message)
  | .copyRefused source cause =>
    some ("error in copy for from: '" ++ source ++ "': " ++ cause.message)
  | .copyNotAdded cause =>
    some ("error while adding value during copy: " ++ cause.message)
  | .testFailed pointer =>
    some ("testing value " ++ pointer ++ " failed: test failed")
  | .negativeIndex => none

end PatchError

namespace Patch

abbrev Operation := List (Bytes × Json)

/-- The operations of a patch: an array of objects, where null stands for an
empty one. -/
def operations? : Json → Option (List Operation)
  | .null => some []
  | .array items => items.mapM fun
    | .object members => some members
    | .null => some []
    | _ => none
  | _ => none

def parse? (text : Bytes) : Option (List Operation) :=
  (Json.parse? text).bind operations?

/-- A pointer given in a member: absent, or no string, or a text. -/
def pointer (member : Bytes) (op : Operation) (missing notText : PatchError) :
    Except PatchError Bytes :=
  match Json.member? member op with
  | none | some .null => .error missing
  | some (.string text _) => .ok text
  | some _ => .error notText

def path (verb : PatchVerb) (op : Operation) : Except PatchError Bytes :=
  let notText : PatchError := match verb with
    | .replace | .move | .test => .pointerNotText
    | _ => .missingPath verb
  pointer "path" op (.missingPath verb) notText

def source (verb : PatchVerb) (op : Operation) : Except PatchError Bytes :=
  pointer "from" op (.missingSource verb) .pointerNotText

/-- A part of a pointer without its escapes: `~1` is a slash and `~0` a
tilde. -/
def unescape : Bytes → Bytes
  | [] => []
  | [b] => [b]
  | b :: c :: rest =>
    if b = 0x7E && c = 0x31 then 0x2F :: unescape rest
    else if b = 0x7E && c = 0x30 then 0x7E :: unescape rest
    else b :: unescape (c :: rest)

/-- The parts of a pointer on the way to its key, and the key; what stands in
front of the first slash does not count. -/
def parts? (pointer : Bytes) : Option (List Bytes × Bytes) :=
  match (Bytes.split 0x2F pointer).drop 1 with
  | [] => none
  | first :: rest =>
    let parts := (first :: rest).map unescape
    some (parts.dropLast, parts.getLastD [])

variable {α : Type}

def within (lost : PatchError) (action : Json → Except PatchError (α × Json)) :
    List Bytes → Json → Except PatchError (α × Json)
  | [], container => action container
  | part :: parts, container =>
    match container.get part with
    | .error cause => .error (PatchError.ofKey (fun _ => lost) cause)
    | .ok inner =>
      if inner.isContainer then
        match within lost action parts inner with
        | .error e => .error e
        | .ok (a, changed) => .ok (a, container.put part changed)
      else .error lost

def atPointer (lost : PatchError) (pointer : Bytes)
    (action : Bytes → Json → Except PatchError (α × Json)) (document : Json) :
    Except PatchError (α × Json) :=
  match parts? pointer with
  | none => .error lost
  | some (parts, key) => within lost (action key) parts document

def explained (error : AccessError → PatchError) (r : Except AccessError α) :
    Except PatchError α :=
  match r with
  | .ok a => .ok a
  | .error cause => .error (PatchError.ofKey error cause)

def value? (op : Operation) : Option Json := Json.member? "value" op

def applyVerb (verb : PatchVerb) (op : Operation) (document : Json) :
    Except PatchError Json :=
  match verb with
  | .add => do
    let path ← path verb op
    let (_, changed) ←
      atPointer (.noContainer verb path) path (fun key container => do
        let changed ←
          explained (.refused verb path)
            (container.add key ((value? op).getD .null))
        return ((), changed)) document
    return changed
  | .remove => do
    let path ← path verb op
    let (_, changed) ←
      atPointer (.noContainer verb path) path (fun key container => do
        let changed ← explained (.refused verb path) (container.remove key)
        return ((), changed)) document
    return changed
  | .replace => do
    let path ← path verb op
    let (_, changed) ←
      atPointer (.noContainer verb path) path (fun key container => do
        let _ ← explained (fun _ => .noItemToReplace path) (container.get key)
        return ((), container.put key ((value? op).getD .null))) document
    return changed
  | .move => do
    let source ← source verb op
    let (moved, without) ←
      atPointer (.noSource verb source) source (fun key container => do
        let moved ← explained (.refused verb key) (container.get key)
        let without ← explained (.refused verb key) (container.remove key)
        return (moved, without)) document
    let path ← path verb op
    let (_, changed) ←
      atPointer (.noDestination verb path) path (fun key container => do
        let changed ← explained (.refused verb path) (container.add key moved)
        return ((), changed)) without
    return changed
  | .copy => do
    let source ← source verb op
    let (copied, _) ←
      atPointer (.noSource verb source) source (fun key container => do
        let copied ← explained (.copyRefused source) (container.get key)
        return (copied, container)) document
    let path ← path verb op
    let (_, changed) ←
      atPointer (.noDestination verb path) path (fun key container => do
        let changed ← explained .copyNotAdded (container.add key copied)
        return ((), changed)) document
    return changed
  | .test => do
    let path ← path verb op
    let (found, _) ←
      atPointer (.noContainer verb path) path (fun key container => do
        let found ← explained (.refused verb path) (container.get key)
        return (found, container)) document
    match value? op with
    | some expected =>
      if found.agrees expected then return document
      else throw (.testFailed path)
    | none => throw (.testFailed path)

def applyOne (document : Json) (op : Operation) : Except PatchError Json :=
  let name : Bytes := match Json.member? "op" op with
    | some (.string name _) => name
    | _ => "unknown"
  match PatchVerb.all.find? fun verb => verb.name == name with
  | some verb => applyVerb verb op document
  | none => .error (.unknownOperation name)

def apply (ops : List Operation) (document : Json) : Except PatchError Json :=
  ops.foldlM applyOne document

end Patch

end Schemata
