import Schemata.Union

/-!
# Rebuilding schemas

A schema is rebuilt from the leaves up.  Every node is handed, with its children
already rebuilt, to a builder, which may build what was there, build something
else, build nothing or fail.  Children are visited from left to right: keys
before values, fields in the order of their names, possibilities in order.
-/

namespace Schemata

/-- One node whose children have been rebuilt; a child may be missing. -/
inductive Layer
  | anything
  | nothing
  | null
  | boolean
  | number (whole signed : Bool) (nbytes : Nat)
  | string (charset : Bytes) (maxLength : Option Nat)
  | tensor (items : Option Schema) (dimensions : List Nat)
  | collection (items : Option Schema) (ordered : Bool) (maxLength : Option Nat)
  | mapping (keys values : Option Schema)
  | record (fields : List (Bytes × Option Schema))
  | union (possibilities : List (Option Schema))
  | reference (path : Path)

namespace Layer

def kind : Layer → Kind
  | .anything => .anything
  | .nothing => .nothing
  | .null => .null
  | .boolean => .boolean
  | .number .. => .number
  | .string .. => .string
  | .tensor .. => .tensor
  | .collection .. => .collection
  | .mapping .. => .mapping
  | .record .. => .record
  | .union .. => .union
  | .reference .. => .reference

/-- A bound on a length as an integer, -1 for no bound. -/
def lengthBound : Option Nat → Int
  | none => -1
  | some n => n

def buildM {m : Type → Type} [Monad m] [MonadReport m] :
    Layer → ExceptT ConstructionError m Schema
  | .anything => return .anything
  | .nothing => return .nothing
  | .null => return .null
  | .boolean => return .boolean
  | .number whole signed nbytes =>
    ExceptT.mk (pure (Build.number whole signed nbytes))
  | .string charset maxLength =>
    ExceptT.mk (pure (Build.string charset (lengthBound maxLength)))
  | .tensor items dimensions =>
    ExceptT.mk (pure (Build.tensor items (dimensions.map Int.ofNat)))
  | .collection items ordered maxLength =>
    ExceptT.mk (pure (Build.collection items ordered (lengthBound maxLength)))
  | .mapping keys values => ExceptT.mk (pure (Build.mapping keys values))
  | .record fields => ExceptT.mk (pure (Build.record fields))
  | .union possibilities => Build.unionM possibilities
  | .reference path => return .reference path

def build (l : Layer) : Except ConstructionError Schema := Id.run l.buildM.run

end Layer

namespace Schema

variable {m : Type → Type} [Monad m]

mutual

def rebuild (builder : Layer → m (Option Schema)) : Schema → m (Option Schema)
  | .anything => builder .anything
  | .nothing => builder .nothing
  | .null => builder .null
  | .boolean => builder .boolean
  | .number whole signed nbytes => builder (.number whole signed nbytes)
  | .string charset maxLength => builder (.string charset maxLength)
  | .tensor items dimensions => do
    let items ← items.rebuild builder
    builder (.tensor items dimensions)
  | .collection items ordered maxLength => do
    let items ← items.rebuild builder
    builder (.collection items ordered maxLength)
  | .mapping keys values => do
    let keys ← keys.rebuild builder
    let values ← values.rebuild builder
    builder (.mapping keys values)
  | .record fields => do
    let fields ← rebuildFields builder fields
    builder (.record fields)
  | .union possibilities => do
    let possibilities ← rebuildAll builder possibilities
    builder (.union possibilities)
  | .reference path => builder (.reference path)

def rebuildAll (builder : Layer → m (Option Schema)) :
    List Schema → m (List (Option Schema))
  | [] => return []
  | p :: ps => do
    let p ← p.rebuild builder
    let ps ← rebuildAll builder ps
    return p :: ps

def rebuildFields (builder : Layer → m (Option Schema)) :
    List (Bytes × Schema) → m (List (Bytes × Option Schema))
  | [] => return []
  | (name, f) :: rest => do
    let f ← f.rebuild builder
    let rest ← rebuildFields builder rest
    return (name, f) :: rest

end

def copy (s : Schema) : Except ConstructionError Schema := do
  match ← s.rebuild fun l => some <$> l.build with
  | some s => return s
  | none => throw .missingSchema

end Schema

end Schemata
