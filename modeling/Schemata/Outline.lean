import Schemata.Schema.Text

/-!
# Outlines

An outline shows a schema on several indented lines.  An atomic schema is one
line.  Any other has an opening line, the lines of what is inside, one level
deeper, and a closing line, one level deeper too, with its attributes.  A line
that is followed by a sibling ends in a comma.
-/

namespace Schemata

structure Line where
  depth : Nat
  text : Bytes
  node : Schema

namespace Schema

mutual

/-- The lines of a schema at a level, with `lead` before the first and `trail`
after the last. -/
def linesAt (depth : Nat) (lead trail : Bytes) : Schema → List Line
  | .tensor items dimensions =>
    let s := Schema.tensor items dimensions
    ⟨depth, lead ++ "Tensor(", s⟩ :: (items.linesAt (depth + 1) [] ","
      ++ [⟨depth + 1, dimensionsText dimensions ++ ")" ++ trail, s⟩])
  | .collection items ordered maxLength =>
    let s := Schema.collection items ordered maxLength
    ⟨depth, lead ++ "Collection(", s⟩ :: (items.linesAt (depth + 1) [] ","
      ++ [⟨depth + 1, collectionText ordered maxLength ++ ")" ++ trail, s⟩])
  | .mapping keys values =>
    let s := Schema.mapping keys values
    ⟨depth, lead ++ "Mapping(", s⟩ :: (keys.linesAt (depth + 1) "keys=" ","
      ++ values.linesAt (depth + 1) "values=" []
      ++ [⟨depth + 1, ")" ++ trail, s⟩])
  | .record fields =>
    let s := Schema.record fields
    ⟨depth, lead ++ "Record(", s⟩ :: (fieldLines (depth + 1) fields
      ++ [⟨depth + 1, ")" ++ trail, s⟩])
  | .union possibilities =>
    let s := Schema.union possibilities
    ⟨depth, lead ++ "Union(", s⟩ :: (allLines (depth + 1) possibilities
      ++ [⟨depth + 1, ")" ++ trail, s⟩])
  | s => [⟨depth, lead ++ s.text ++ trail, s⟩]

def allLines (depth : Nat) : List Schema → List Line
  | [] => []
  | [p] => p.linesAt depth [] []
  | p :: q :: rest => p.linesAt depth [] "," ++ allLines depth (q :: rest)

def fieldLines (depth : Nat) : List (Bytes × Schema) → List Line
  | [] => []
  | [(name, f)] => f.linesAt depth (name ++ "=") []
  | (name, f) :: next :: rest =>
    f.linesAt depth (name ++ "=") "," ++ fieldLines depth (next :: rest)

end

def outline (s : Schema) : List Line := s.linesAt 0 [] []

end Schema

end Schemata
