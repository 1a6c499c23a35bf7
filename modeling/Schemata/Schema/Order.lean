import Schemata.Schema
import Schemata.Sorted

/-!
# The order of schemas

Schemas are ordered first by kind, then by their attributes from left to right.
No length bound comes before every bound, `false` before `true`, and of two
lists the shorter comes first if it starts the longer.  Two schemas compare
equal only if they are the same.
-/

namespace Schemata.Schema

mutual

protected def compare : Schema → Schema → Ordering
  | .number w s n, .number w' s' n' =>
    (Ord.compare w w').then ((Ord.compare s s').then (Ord.compare n n'))
  | .string c m, .string c' m' => (Ord.compare c c').then (Ord.compare m m')
  | .tensor items ds, .tensor items' ds' =>
    (items.compare items').then (Ord.compare ds ds')
  | .collection items o m, .collection items' o' m' =>
    (items.compare items').then ((Ord.compare o o').then (Ord.compare m m'))
  | .mapping k v, .mapping k' v' => (k.compare k').then (v.compare v')
  | .record fs, .record fs' => compareFields fs fs'
  | .union ps, .union ps' => compareAll ps ps'
  | .reference p, .reference p' => Ord.compare p p'
  | a, b => Ord.compare a.kind b.kind

def compareAll : List Schema → List Schema → Ordering
  | [], [] => .eq
  | [], _ :: _ => .lt
  | _ :: _, [] => .gt
  | a :: as, b :: bs => (a.compare b).then (compareAll as bs)

/-- The order of two lists of fields, name before schema. -/
def compareFields : List (Bytes × Schema) → List (Bytes × Schema) → Ordering
  | [], [] => .eq
  | [], _ :: _ => .lt
  | _ :: _, [] => .gt
  | (n, a) :: as, (m, b) :: bs =>
    (Ord.compare n m).then ((a.compare b).then (compareFields as bs))

end

instance : Ord Schema := ⟨Schema.compare⟩

def same (a b : Schema) : Bool := a.compare b == .eq

instance : BEq Schema := ⟨same⟩

/-- The order of two schemas that may be missing; a missing one comes first. -/
def compareOptional : Option Schema → Option Schema → Ordering
  | none, none => .eq
  | none, some _ => .lt
  | some _, none => .gt
  | some a, some b => a.compare b

end Schemata.Schema
