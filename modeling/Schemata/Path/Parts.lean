import Schemata.Path

/-!
# Paths from parts

A path can be put together from segments that come as dynamic values.  What is
neither a name nor a position nor a segment is refused.
-/

namespace Schemata

inductive PathPart
  | segment (s : Segment)
  | other (shown typeName : Bytes)

structure PathPartError where
  shown : Bytes
  typeName : Bytes

def PathPartError.message (e : PathPartError) : Bytes :=
  "path element " ++ e.shown ++ " has type " ++ e.typeName ++
    ", expected string or int"

/-- The path of the parts, up to the first that cannot be a segment. -/
def Path.ofParts : List PathPart → Except PathPartError Path
  | [] => .ok []
  | .other shown typeName :: _ => .error ⟨shown, typeName⟩
  | .segment s :: rest =>
    match ofParts rest with
    | .error e => .error e
    | .ok path => .ok (s :: path)

end Schemata
