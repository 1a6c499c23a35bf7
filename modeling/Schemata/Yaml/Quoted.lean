import Schemata.Yaml.Scanner

/-!
# Quoted scalars

Between single quotes only the quote itself is written twice; between double
quotes there are escapes.  In both, a line break with the white space around it
counts as a space, and each blank line as a line break.
-/

namespace Schemata.Yaml

structure Quote where
  value : Array Char := #[]
  origin : Array Char
  line : Nat
  column : Nat
  /-- Whether there was nothing but white space since the last line break. -/
  atStart : Bool := false
  /-- How many characters after the closing quote are skipped. -/
  surplus : Nat := 0

namespace Quote

def pass (q : Quote) (c : Char) : Quote :=
  { q with origin := q.origin.push c, column := q.column + 1 }

/-- Goes on by one character that stands for `c`. -/
def add (q : Quote) (written c : Char) : Quote :=
  { q.pass written with value := q.value.push c, atStart := false }

def nextLine (q : Quote) (c : Char) : Quote :=
  { q.pass c with line := q.line + 1, column := 1, atStart := true }

def addBreak (q : Quote) (c : Char) : Quote :=
  let value := (dropEnd (· = ' ') q.value.toList).toArray
  { q.nextLine c with value := value.push (if q.atStart then '\n' else ' ') }

end Quote

/-- What is left of a single quoted scalar and of the text after it.  A tab that
indents a line no deeper than `delimiter` is an error. -/
def readSingle (delimiter : Nat) :
    Quote → List Char → Option (Quote × List Char)
  | _, [] => none
  | q, c :: rest =>
    if isBreak c then
      if isDocumentMark rest then none
      else readSingle delimiter (q.addBreak c) rest
    else if q.atStart && isBlank c then
      if c = '\t' && q.column ≤ delimiter then none
      else readSingle delimiter (q.pass c) rest
    else if c ≠ '\'' then readSingle delimiter (q.add c c) rest
    else
      match rest with
      | '\'' :: more =>
        readSingle delimiter { (q.pass c).pass c with value := q.value.push c }
          more
      | _ => some (q.pass c, rest)

def letterEscape? : Char → Option Char
  | '0' => some '\x00'
  | 'a' => some '\x07'
  | 'b' => some '\x08'
  | 't' => some '\t'
  | 'n' => some '\n'
  | 'v' => some '\x0b'
  | 'f' => some '\x0c'
  | 'r' => some '\r'
  | 'e' => some '\x1b'
  | ' ' => some ' '
  | '"' => some '"'
  | '/' => some '/'
  | '\\' => some '\\'
  | 'N' => some '\u0085'
  | '_' => some '\u00a0'
  | 'L' => some '\u2028'
  | 'P' => some '\u2029'
  | '\t' => some '\t'
  | _ => none

/-- The value of a hexadecimal digit.  Other characters have a value too: their
distance from the digit 0. -/
def digitValue (c : Char) : Int :=
  if 'A' ≤ c && c ≤ 'F' then c.toNat - 55
  else if 'a' ≤ c && c ≤ 'f' then c.toNat - 87
  else (c.toNat : Int) - 48

def hexValue (digits : List Char) : Int :=
  digits.foldl (fun n c => n * 16 + digitValue c) 0

/-- The character of a number, U+FFFD if there is none. -/
def characterOf (n : Int) : Char :=
  let point := (n % 4294967296).toNat
  if point.isValidChar then Char.ofNat point else '\uFFFD'

/-- The character of an escape that starts with `letter`, and how many
characters the escape has after its backslash.  An escape that the text ends in
stands for its letter. -/
def escape? (letter : Char) (rest : List Char) : Option (Char × Nat) :=
  if letter = 'x' then
    if rest.length < 2 then some (letter, 1)
    else some (characterOf (hexValue (rest.take 2)), 3)
  else if letter = 'U' then
    if rest.length < 8 then some (letter, 1)
    else some (characterOf (hexValue (rest.take 8)), 9)
  else if letter = 'u' then
    if rest.length < 4 then some (letter, 1)
    else
      let unit := hexValue (rest.take 4)
      if 0xD800 ≤ unit && unit ≤ 0xDBFF then
        let low := hexValue ((rest.drop 6).take 4)
        if rest.length < 10 || (rest.drop 4).take 2 ≠ ['\\', 'u'] ||
            low < 0xDC00 || 0xDFFF < low then
          none
        else
          some
            (characterOf ((unit - 0xD800) * 0x400 + (low - 0xDC00) + 0x10000),
             11)
      else some (characterOf unit, 5)
  else (letterEscape? letter).map fun c => (c, 1)

/-- What is left of a double quoted scalar and of the text after it, where
`skip` characters belong to the escape before.  A tab that indents a line no
deeper than `delimiter` is an error, and tabs at the end of a line do not
count. -/
def readDouble (delimiter : Nat) :
    Nat → Quote → List Char → Option (Quote × List Char)
  | _, _, [] => none
  | skip + 1, q, c :: rest => readDouble delimiter skip (q.pass c) rest
  | 0, q, c :: rest =>
    if isBreak c then
      if isDocumentMark rest then none
      else readDouble delimiter 0 (q.addBreak c) rest
    else if q.atStart && isBlank c then
      if c = '\t' && q.column ≤ delimiter then none
      else readDouble delimiter 0 (q.pass c) rest
    else if c = '\\' then
      match rest with
      | [] => none
      | '\n' :: more => readDouble delimiter 0 ((q.pass c).nextLine '\n') more
      | letter :: more =>
        match escape? letter more with
        | some (meant, length) =>
          readDouble delimiter length (q.add c meant) (letter :: more)
        | none => none
    else if c = '\t' then
      let blanks := rest.takeWhile isBlank
      match rest.drop blanks.length with
      | [] => none
      | next :: _ =>
        if isBreak next then readDouble delimiter blanks.length (q.pass c) rest
        else
          readDouble delimiter 0
            { q.pass c with
              value := q.value.push c
              surplus :=
                if rest.head? = some '"' then q.surplus else q.surplus + 1 }
            rest
    else if c = '"' then some (q.pass c, rest)
    else readDouble delimiter 0 (q.add c c) rest

/-- Reads a quoted scalar, unless another scalar is being read. -/
def Scanner.quoted? (s : Scanner) (mark : Char) : Option Scanner :=
  if s.hasText then some (s.add mark)
  else
    let start : Quote :=
      ⟨#[], s.buffer.origin.push mark, s.line, s.column + 1, false, 0⟩
    let read :=
      if mark = '\'' then readSingle s.delimiter start
      else readDouble s.delimiter 0 start
    (read (s.rest.drop 1)).map fun (q, rest) =>
      let token : Token :=
        ⟨.quoted, s.place, textOf q.value.toList, q.origin.toList⟩
      let after :=
        if q.line = s.line then s
        else
          { s with
              atStart := true, indentation := 0, inName := false,
              inDirective := false }
      let closed : Scanner :=
        { after with
            rest := rest, before := mark, line := q.line, column := q.column }
      ((closed.advance q.surplus).push token).clear

end Schemata.Yaml
