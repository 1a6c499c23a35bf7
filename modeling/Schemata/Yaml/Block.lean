import Schemata.Yaml.Token

/-!
# Block scalars

A block scalar goes over several lines.  Its first line sets the indentation,
which is not part of its text.  In a literal block every line break counts.  In
a folded block, and in a plain scalar that goes on with a dash, a single line
break between lines of the same indentation counts as a space.  The header says
what becomes of the line breaks at the end: by default all but one are dropped.
-/

namespace Schemata.Yaml

inductive BlockStyle
  | literal
  | folded
  /-- A plain scalar that goes on with a dash. -/
  | continued
  deriving DecidableEq

/-- A block scalar that is being read.  A column of 0 is one that is not known
yet. -/
structure Block where
  style : BlockStyle
  /-- Whether all line breaks at the end are dropped. -/
  strips : Bool
  /-- Whether all line breaks at the end are kept. -/
  keeps : Bool
  /-- The indentation that the header asks for, 0 for none. -/
  width : Nat := 0
  /-- The column of the first line. -/
  first : Nat := 0
  /-- The column of this line. -/
  current : Nat := 0
  /-- The column of the line before, 0 if that is blank. -/
  previous : Nat := 0
  /-- The column of the last line that is not blank. -/
  filled : Nat := 0
  /-- The width of the last blank line before the first line. -/
  blank : Nat := 0
  /-- Whether a line break has just been read. -/
  broken : Bool := false

def dropEnd (p : Char → Bool) (chars : List Char) : List Char :=
  (chars.reverse.dropWhile p).reverse

def dropLastIf (c : Char) (chars : List Char) : List Char :=
  if chars.getLast? = some c then chars.dropLast else chars

def dropFirstIf (c : Char) : List Char → List Char
  | d :: rest => if d = c then rest else d :: rest
  | [] => []

structure BlockHeader where
  strips : Bool
  keeps : Bool
  width : Nat

/-- The indentation asked for by digits, at most 9 and not written as a single
0. -/
def readWidth? (digits : List Char) : Option Nat :=
  if digits.isEmpty then some 0
  else if digits = ['0'] then none
  else
    match readInt (textOf digits) with
    | .ok n => if n ≤ 9 then some n.toNat else none
    | .error _ => none

def BlockHeader.read? (chars : List Char) : Option BlockHeader :=
  let edges := [chars.head?, chars.getLast?]
  let digits :=
    dropLastIf '+' (dropLastIf '-' (dropFirstIf '+' (dropFirstIf '-' chars)))
  (readWidth? digits).map fun width =>
    ⟨edges.contains (some '-'), edges.contains (some '+'), width⟩

namespace Block

/-- A block with a header, under a name or a dash at the column `delimiter`. -/
def start (style : BlockStyle) (header : BlockHeader) (delimiter : Nat) :
    Block :=
  { style := style, strips := header.strips, keeps := header.keeps,
    width := header.width,
    first := if 0 < header.width then delimiter + header.width else 0 }

def continuing (column : Nat) : Block :=
  { style := .continued, strips := true, keeps := false, first := column,
    current := column }

def trim (b : Block) (chars : List Char) : List Char :=
  let body := dropEnd (· = '\n') chars
  let text :=
    if b.strips then dropEnd (· = ' ') body
    else if b.keeps || chars.length ≤ body.length + 1 then chars
    else body ++ ['\n']
  let text := if text = ['\n'] then [] else text
  if b.keeps && text.isEmpty then ['\n'] else text

def reach (b : Block) (column : Nat) : Block :=
  { b with
    first := if b.first = 0 then column else b.first
    current := if b.current = 0 then column else b.current }

def isShort (b : Block) : Bool := b.width ≠ 0 && b.current < b.first

def nextLine (b : Block) (column : Nat) : Block :=
  { b with
    blank := if b.first = 0 then column - 1 else b.blank
    previous := b.current
    filled := if b.current = 0 then b.filled else b.current
    broken := true
    current := 0 }

def isMargin (b : Block) (column : Nat) : Bool :=
  if b.first = 0 then column = 1 else column < b.first

/-- What becomes of the line break at the end of `chars` before a character at a
column of the next line. -/
def fold (b : Block) (column : Nat) (chars : List Char) : List Char :=
  if b.style = .literal then chars
  else if b.current = b.previous then
    if chars.getLast? = some '\n' then chars.dropLast ++ [' '] else chars
  else if b.previous = 0 && b.filled = column then
    if ['\n', '\n'].isSuffixOf chars then chars.dropLast else chars
  else chars

end Block

end Schemata.Yaml
