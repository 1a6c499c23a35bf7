import Schemata.Yaml.Block

/-!
# Scanners

A scanner goes through a text and collects tokens.  The characters of a plain or
block scalar gather in a buffer until something ends the scalar.  A plain scalar
may go on over several lines, as long as these are deeper than the name or dash
it belongs to.
-/

namespace Schemata.Yaml

structure Buffer where
  chars : Array Char := #[]
  /-- How many characters there are up to the last one that is not white
  space. -/
  solid : Nat := 0
  /-- Characters that were given up because there was no text in them.  They
  count until the next character comes. -/
  stale : Array Char := #[]
  /-- The scalar as it is written, with the white space before it. -/
  origin : Array Char := #[]
  /-- How many characters of `origin` there are up to the last one that is not
  white space. -/
  originSolid : Nat := 0

namespace Buffer

def content (b : Buffer) : List Char :=
  ((if b.chars.isEmpty then b.stale else b.chars).extract 0 b.solid).toList

/-- Adds a character of a scalar; white space does not start one. -/
def add (b : Buffer) (c : Char) : Buffer :=
  if b.chars.isEmpty && isBlank c then b
  else
    let chars := b.chars.push c
    { b with
        chars := chars, solid := if isBlank c then b.solid else chars.size }

/-- Adds a character of a block, where a tab counts as text. -/
def addText (b : Buffer) (c : Char) : Buffer :=
  if b.chars.isEmpty && c = ' ' then b
  else
    let chars := b.chars.push c
    { b with chars := chars, solid := if c = ' ' then b.solid else chars.size }

def addSpace (b : Buffer) : Buffer :=
  { b with chars := b.chars.push ' ', solid := b.chars.size + 1 }

def note (b : Buffer) (c : Char) : Buffer :=
  let origin := b.origin.push c
  { b with
      origin := origin,
      originSolid := if isBlank c then b.originSolid else origin.size }

def trimEnd (b : Buffer) : Buffer :=
  if b.originSolid < b.origin.size then
    { b with
        origin := b.origin.extract 0 b.originSolid, chars := b.content.toArray }
  else b

/-- Adds a line break in a plain scalar: the first one counts as a space, the
others as line breaks. -/
def addBreak (b : Buffer) (blankLine : Bool) : Buffer :=
  if blankLine && !b.content.isEmpty then
    if b.chars.back? = some ' ' then { b with chars := b.chars.pop.push '\n' }
    else { b with chars := b.chars.push '\n' }
  else b.add ' '

def giveUp (b : Buffer) : Buffer :=
  { b with chars := #[], stale := if b.chars.isEmpty then b.stale else b.chars }

/-- The buffer with a line break folded, see `Block.fold`. -/
def fold (b : Buffer) (block : Block) (column : Nat) : Buffer :=
  if block.broken then
    let chars := (block.fold column b.chars.toList).toArray
    { b with chars := chars, solid := min b.solid chars.size }
  else b

end Buffer

/-- How a line compares with the name or dash that its text may belong to. -/
inductive Depth
  | unknown
  | deeper
  | notDeeper
  /-- Not at the start of a line. -/
  | inside
  deriving DecidableEq

structure Scanner where
  rest : List Char
  before : Char := '\x00'
  line : Nat := 1
  column : Nat := 1
  /-- The column of the last name or dash, 0 for none. -/
  delimiter : Nat := 0
  indentation : Nat := 0
  /-- Whether there was nothing but white space on the line. -/
  atStart : Bool := true
  depth : Depth := .unknown
  /-- Whether the name of an anchor or alias is being read. -/
  inName : Bool := false
  inDirective : Bool := false
  /-- How many more brackets were opened than closed. -/
  brackets : Int := 0
  /-- How many more braces were opened than closed. -/
  braces : Int := 0
  /-- Where the scalar in the buffer starts, if that is on an earlier line. -/
  started : Option Place := none
  buffer : Buffer := {}
  block : Option Block := none
  /-- The tokens, the last one first. -/
  tokens : List Token := []

/-- The column, counted from 1, at which `part` starts in `chars`; 0 if it does
not occur. -/
def columnIn (part : List Char) : List Char → Nat
  | [] => if part.isEmpty then 1 else 0
  | c :: rest =>
    if part.isPrefixOf (c :: rest) then 1
    else
      match columnIn part rest with
      | 0 => 0
      | n + 1 => n + 2

namespace Scanner

def place (s : Scanner) : Place := ⟨s.line, s.column⟩

def inFlow (s : Scanner) : Bool := 0 < s.brackets || 0 < s.braces

/-- The character after the next one, NUL at the end. -/
def following (s : Scanner) : Char := (s.rest.drop 1).headD '\x00'

def isLast (s : Scanner) : Bool := (s.rest.drop 1).isEmpty

/-- Goes on by `n` characters at the same column. -/
def pass (s : Scanner) (n : Nat) : Scanner :=
  { s with
      rest := s.rest.drop n, before := (s.rest.take n).getLast?.getD s.before }

def advance (s : Scanner) (n : Nat) : Scanner :=
  { s.pass n with column := s.column + n }

def nextLine (s : Scanner) : Scanner :=
  { s.pass 1 with
    column := 1
    line := s.line + 1
    indentation := 0
    atStart := true
    inName := false
    inDirective := false }

def content (s : Scanner) : List Char :=
  match s.block with
  | none => s.buffer.content
  | some b => b.trim s.buffer.content

def hasText (s : Scanner) : Bool := !s.content.isEmpty

def last? (s : Scanner) : Option Token := s.tokens.head?

def push (s : Scanner) (t : Token) : Scanner :=
  { s with tokens := t :: s.tokens }

def clear (s : Scanner) : Scanner := { s with buffer := {}, block := none }

def note (s : Scanner) (c : Char) : Scanner :=
  { s with buffer := s.buffer.note c }

def textPlace (s : Scanner) : Place :=
  match s.started, s.block with
  | some p, _ => p
  | none, none => ⟨s.line, s.column - s.buffer.chars.size⟩
  | none, some _ =>
    ⟨s.line, columnIn s.buffer.chars.toList s.buffer.origin.toList⟩

/-- The form of the scalar in the buffer: a block is a string, and so is what
follows an unknown tag. -/
def textForm (s : Scanner) : Form :=
  if s.block.isSome then .string
  else
    match s.last? with
    | some t =>
      if t.form = .tag && !knownTags.contains t.text then .string else .plain
    | none => .plain

def text? (s : Scanner) : Option Token :=
  if s.hasText then
    some ⟨s.textForm, s.textPlace, textOf s.content, s.buffer.origin.toList⟩
  else none

def dropText (s : Scanner) : Scanner :=
  { s with
      started := none, buffer := if s.hasText then {} else s.buffer.giveUp }

def flush (s : Scanner) : Scanner :=
  match s.text? with
  | some t => s.dropText.push t
  | none => s.dropText

def add (s : Scanner) (c : Char) : Scanner :=
  { s with buffer := (s.buffer.add c).note c }.advance 1

def mark (s : Scanner) (form : Form) (n : Nat := 1) : Scanner :=
  ((s.push ⟨form, s.place, [], []⟩).advance n).clear

/-- Takes note of the next character: white space at the start of a line is
indentation, and the first other character shows whether the line is deeper than
the last name or dash. -/
def arrive (s : Scanner) (c : Char) : Scanner :=
  if !s.atStart then { s with depth := .inside }
  else if isBreak c || c = '\t' then s
  else if c = ' ' then { s with indentation := s.indentation + 1 }
  else
    { s with
      atStart := false
      depth :=
        if s.delimiter = 0 then s.depth
        else if s.delimiter < s.column then .deeper
        else .notDeeper }

end Scanner

def isDocumentMark (chars : List Char) : Bool :=
  let line := dropEnd (fun c => isBlank c || isBreak c) (chars.take 4)
  line = ['-', '-', '-'] || line = ['.', '.', '.']

end Schemata.Yaml
