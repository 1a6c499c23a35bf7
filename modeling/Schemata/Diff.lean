import Schemata.Diff.Compare
import Schemata.Outline.Render
import Schemata.Schema.Order

/-!
# Line differences

The outlines of two schemas are compared line by line.  Lines are numbered by
their first occurrence, so that equal lines have equal numbers, and a script
between the numbers becomes a script of texts again, each made of whole lines.
The lines of a difference are those texts split once more: lines only in the
first outline after a minus sign, lines only in the second after a plus sign,
the others after a space.
-/

namespace Schemata

namespace Diff

/-- The position of a line in a table, or the end of the table if it is not
there. -/
def lineNumber (table : List Bytes) (line : Bytes) : Nat := table.idxOf line

/-- A table extended by the lines that it does not have, in order. -/
def numbered (table : List Bytes) : List Bytes → List Bytes
  | [] => table
  | l :: ls => numbered (if table.contains l then table else table ++ [l]) ls

def textEdit (table : List Bytes) (e : Edit Nat) : Edit UInt8 :=
  ⟨e.action, e.run.flatMap fun n => table.getD n []⟩

/-- A script from one text to another that edits whole lines. -/
def compareLines (one two : Bytes) : List (Edit UInt8) :=
  let as := Bytes.splitAfter 0x0A one
  let bs := Bytes.splitAfter 0x0A two
  let table := numbered (numbered [] as) bs
  let script := Diff.compare (as.map (lineNumber table))
    (bs.map (lineNumber table))
  script.map (textEdit table)

def Action.mark : Action → Bytes
  | .keep => " "
  | .delete => "-"
  | .insert => "+"

/-- The text of an edit, split into lines that are not empty, with a mark before
each. -/
def editText (e : Edit UInt8) : Bytes :=
  (Bytes.splitAfter 0x0A e.run).flatMap fun l => e.action.mark ++ l

end Diff

namespace Schema

/-- The difference of the outlines of two schemas by a way to compare texts,
empty if they are the same. -/
def diffBy (compare : Bytes → Bytes → List (Diff.Edit UInt8)) (a b : Schema) :
    Bytes :=
  if a.same b then []
  else (compare (a.render ++ "\n") (b.render ++ "\n")).flatMap Diff.editText

def diff (a b : Schema) : Bytes := a.diffBy Diff.compareLines b

end Schema

end Schemata
