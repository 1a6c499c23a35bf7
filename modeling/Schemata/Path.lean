import Schemata.Bytes

/-!
# Paths

A path leads from a schema to a schema inside it.  Each segment names a field or
a key, or gives a position.  Segments are ordered with positions before names;
paths are ordered segment by segment, a path before its extensions.
-/

namespace Schemata

inductive Segment
  | index (i : Int)
  /-- A record field or a string key. -/
  | field (name : Bytes)
  deriving DecidableEq

/-- Positions come before names. -/
def Segment.compare : Segment → Segment → Ordering
  | .index i, .index j => Ord.compare i j
  | .index _, .field _ => .lt
  | .field _, .index _ => .gt
  | .field a, .field b => Ord.compare a b

instance : Ord Segment := ⟨Segment.compare⟩

def Segment.isIndex : Segment → Bool
  | .index _ => true
  | .field _ => false

/-- A sequence of segments; the empty path stays where it is. -/
abbrev Path := List Segment

end Schemata
