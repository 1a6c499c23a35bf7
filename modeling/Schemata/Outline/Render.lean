import Schemata.Outline
import Schemata.Outline.Color

/-!
# Rendered outlines

An outline becomes a text by indenting every line by its level.  What stands
before the indentation and how the text is colored depends on the schema that a
line belongs to.
-/

namespace Schemata

structure Style where
  indent : Bytes := "  "
  /-- What stands before the lines of a schema. -/
  highlight : Schema → Bytes := fun _ => []
  /-- Whether lines are colored, and then whether the escape sequences are
  written. -/
  colors : Option Bool := none

namespace Line

def indented (l : Line) (indent : Bytes) : Bytes :=
  Bytes.repeated l.depth indent ++ l.text

def render (l : Line) (style : Style) : Bytes :=
  let text := match style.colors with
    | some escapes => Color.paint escapes l.node.kind l.text
    | none => l.text
  style.highlight l.node ++ Bytes.repeated l.depth style.indent ++ text

end Line

def Schema.render (s : Schema) (style : Style := {}) : Bytes :=
  Bytes.join "\n" (s.outline.map fun l => l.render style)

end Schemata
