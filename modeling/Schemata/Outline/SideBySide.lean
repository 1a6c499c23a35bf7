import Schemata.Outline.Render
import Schemata.Schema.Order
import Schemata.Text.Width

/-!
# Outlines side by side

Two outlines are shown in two columns.  Lines of the same level share a row.
Where one side is deeper, its lines stand alone until the levels meet again, and
the other side waits.  A side that has ended follows the other one's level.
-/

namespace Schemata

inductive Cell
  | line (l : Line)
  /-- The other side is deeper. -/
  | waiting
  /-- There are no more lines; the other side is at this level. -/
  | ended (depth : Nat)

structure Row where
  left : Cell
  right : Cell

def pairLines : List Line → List Line → List Row
  | [], bs => bs.map fun b => ⟨.ended b.depth, .line b⟩
  | a :: as, [] => (a :: as).map fun a => ⟨.line a, .ended a.depth⟩
  | a :: as, b :: bs =>
    if a.depth = b.depth then ⟨.line a, .line b⟩ :: pairLines as bs
    else if b.depth < a.depth then ⟨.line a, .waiting⟩ :: pairLines as (b :: bs)
    else ⟨.waiting, .line b⟩ :: pairLines (a :: as) bs
termination_by as bs => as.length + bs.length

namespace SideBySide

structure Layout where
  indent : Bytes := "  "
  /-- What stands between the columns, by the schemas of both sides. -/
  between : Option Schema → Option Schema → Bytes
  /-- The width of a column; if not positive, that of the widest line. -/
  width : Int := 0

/-- Shows where both sides have lines of different schemas. -/
def differs : Option Schema → Option Schema → Bytes
  | some a, some b => if a.same b then " " else ">"
  | _, _ => " "

def node? : Cell → Option Schema
  | .line l => some l.node
  | _ => none

structure Ruler where
  measure : Bytes → Nat
  /-- A text cut or filled to a width. -/
  column : Bytes → Nat → Bytes

/-- Widths are counted in the cells of a terminal. -/
def Ruler.cells : Ruler := ⟨Text.displayWidth, Text.column⟩

/-- A cell as a column.  Where a side has ended its indentation is still
there. -/
def cellText (ruler : Ruler) (indent : Bytes) (width : Nat) : Cell → Bytes
  | .line l => ruler.column (l.indented indent) width
  | .waiting => Bytes.spaces width
  | .ended depth => ruler.column (Bytes.repeated depth indent) width

def widest (ruler : Ruler) (indent : Bytes) (lines : List Line) : Nat :=
  (lines.map fun l => ruler.measure (l.indented indent)).foldl max 0

def columnWidth (ruler : Ruler) (layout : Layout) (one two : List Line) : Nat :=
  if layout.width ≤ 0 then widest ruler layout.indent (one ++ two)
  else layout.width.toNat

end SideBySide

namespace Schema

open SideBySide in
def sideBySideBy (ruler : Ruler) (a b : Schema) (layout : Layout) : Bytes :=
  let one := a.outline
  let two := b.outline
  let width := columnWidth ruler layout one two
  let cell := cellText ruler layout.indent width
  Bytes.join "\n" <| (pairLines one two).map fun row =>
    cell row.left ++ " " ++ layout.between (node? row.left) (node? row.right)
      ++ " " ++ cell row.right

def sideBySide (a b : Schema) (layout : SideBySide.Layout) : Bytes :=
  a.sideBySideBy .cells b layout

end Schema

end Schemata
