import Schemata.Path
import Schemata.Text.Quoted

/-!
# The text of a path

Names are separated by dots and positions stand in brackets: `a.b`, `a[0]`,
`[2][3]`, `a."x.y"`.  A name that is empty or holds a delimiter, a quote, a
backslash or white space is written quoted.

Reading takes one segment after another from the front of the text.  A position
is a number of at most 31 bits.  A name is either quoted, up to the first quote
that is not escaped, or runs up to the next dot or opening bracket.  Only the
first segment may be a name without a dot before it.
-/

namespace Schemata

open Text

/-- The bytes that make a name be written quoted. -/
def isDelimiter (b : UInt8) : Bool := (utf8 ".[]\"\\ \t\n").contains b

def nameText (name : Bytes) : Bytes :=
  if name.isEmpty || name.any isDelimiter then quote name else name

def Segment.text : Segment → Bytes
  | .index i => "[" ++ decimalInt i ++ "]"
  | .field name => nameText name

/-- A segment as it follows another one. -/
def Segment.suffix : Segment → Bytes
  | .index i => Segment.text (.index i)
  | .field name => byte '.' :: nameText name

/-- The text of a path; the empty path is the empty text. -/
def Path.text : Path → Bytes
  | [] => []
  | first :: rest => first.text ++ rest.flatMap Segment.suffix

inductive PathError
  | unclosedIndex (whole : Bytes)
  | invalidIndex (digits : Bytes) (cause : NumeralError)
  | missingField (whole : Bytes)
  | unexpected (whole : Bytes) (got : UInt8)
  | emptyField (got : UInt8)
  | unterminatedQuote (rest : Bytes)
  | invalidQuoted (literal : Bytes)
  deriving DecidableEq

def PathError.message : PathError → Bytes
  | .unclosedIndex whole => "expected '[' <index> ']' in " ++ quote whole
  | .invalidIndex digits cause =>
    "invalid index " ++ quote digits ++ ": strconv.ParseUint: parsing " ++
      quote digits ++ ": " ++ cause.message
  | .missingField whole => "expected field at end of " ++ quote whole
  | .unexpected whole got =>
    "expected '.' or '[' in " ++ quote whole ++ ", got " ++ quoteByte got
  | .emptyField got => "expected field, got " ++ quoteByte got
  | .unterminatedQuote rest => "unterminated quoted field in " ++ quote rest
  | .invalidQuoted literal =>
    "invalid quoted field " ++ literal ++ ": invalid syntax"

namespace Path

/-- Positions in path texts have at most 31 bits. -/
def maxIndex : Nat := 2147483647

/-- What stands before the first quote that is not escaped. -/
def quotedInner : Bytes → Option Bytes
  | [] => none
  | [b] => if b = 0x22 then some [] else none
  | b :: c :: rest =>
    if b = 0x22 then some []
    else if b = 0x5C then (quotedInner rest).map (b :: c :: ·)
    else (quotedInner (c :: rest)).map (b :: ·)

/-- Reads a name from the front of a text that starts with `b`, with the number
of bytes it takes. -/
def readName (b : UInt8) (rest : Bytes) : Except PathError (Bytes × Nat) :=
  if b = 0x22 then
    match quotedInner rest with
    | none => .error (.unterminatedQuote (b :: rest))
    | some inner =>
      match unquote inner with
      | none => .error (.invalidQuoted (b :: (inner ++ [b])))
      | some name => .ok (name, inner.length + 2)
  else
    let name := (b :: rest).takeWhile fun c => c ≠ byte '.' && c ≠ byte '['
    if name.isEmpty then .error (.emptyField b) else .ok (name, name.length)

/-- Reads one segment from the front of a text that starts with `b`, with the
number of bytes it takes.  The `whole` text is named in errors. -/
def readSegment (whole : Bytes) (isFirst : Bool) (b : UInt8) (rest : Bytes) :
    Except PathError (Segment × Nat) :=
  if b = byte '[' then
    let digits := rest.takeWhile fun c => c ≠ byte ']'
    if digits.length = rest.length then .error (.unclosedIndex whole)
    else
      match readNat maxIndex digits with
      | .error cause => .error (.invalidIndex digits cause)
      | .ok i => .ok (.index i, digits.length + 2)
  else if b = byte '.' then
    match rest with
    | [] => .error (.missingField whole)
    | c :: more =>
      match readName c more with
      | .error e => .error e
      | .ok (name, length) => .ok (.field name, length + 1)
  else if isFirst then
    match readName b rest with
    | .error e => .error e
    | .ok (name, length) => .ok (.field name, length)
  else .error (.unexpected whole b)

/-- Reads the segments of a text, where `skip` bytes at its front belong to the
segment before. -/
def readFrom (whole : Bytes) : Bool → Nat → Bytes → Except PathError Path
  | _, _, [] => .ok []
  | isFirst, skip + 1, _ :: rest => readFrom whole isFirst skip rest
  | isFirst, 0, b :: rest =>
    match readSegment whole isFirst b rest with
    | .error e => .error e
    | .ok (segment, length) =>
      match readFrom whole false (length - 1) rest with
      | .error e => .error e
      | .ok more => .ok (segment :: more)

def parse (text : Bytes) : Except PathError Path := readFrom text true 0 text

end Path

end Schemata
