import Schemata.Log.Style

/-!
# Formats

A format is text with directives in it.  A directive starts with a percent sign
and ends with a letter; between them stand flags, a width and a precision.  A
width or precision may be taken from an argument, and a number in brackets says
which argument comes next.
-/

namespace Schemata

namespace Log

open Text

inductive Pick
  | following
  /-- The one with a number, counted from one. -/
  | numbered (n : Nat)
  /-- Brackets with no number in them. -/
  | malformed

inductive Size
  | unset
  | fixed (n : Nat)
  | taken

structure Directive where
  flags : Style
  widthPick : Pick
  width : Size
  /-- The precision and the argument it starts from, if there is a point. -/
  precision : Option (Pick × Size)
  letterPick : Pick
  /-- The letter, unless the format ends before it. -/
  letter : Option Symbol

inductive Piece
  | text (text : Bytes)
  | directive (d : Directive)

namespace Piece

/-- Numbers above this one have no further digits. -/
def numberLimit : Nat := 1000000

/-- Reads digits onto the value of those before them; a number that is too long
makes all that follows unreadable. -/
def readNumber : Option Nat → Bytes → Option Nat × Bytes
  | value, [] => (value, [])
  | value, b :: rest =>
    match digit? b with
    | none => (value, b :: rest)
    | some d =>
      let n := value.getD 0
      if numberLimit < n then (none, [])
      else readNumber (some (n * 10 + d)) rest

def readPick (text : Bytes) : Pick × Bytes :=
  match text with
  | 0x5B :: rest =>
    let inner := rest.takeWhile (· ≠ byte ']')
    if rest.length < 2 || inner.length = rest.length then (.malformed, rest)
    else
      let after := rest.drop (inner.length + 1)
      match readNumber none inner with
      | (some n, []) => (.numbered n, after)
      | _ => (.malformed, after)
  | _ => (.following, text)

def readSize (text : Bytes) : Size × Bytes :=
  match text with
  | 0x2A :: rest => (.taken, rest)
  | _ =>
    match readNumber none text with
    | (some n, rest) => (.fixed n, rest)
    | (none, rest) => (.unset, rest)

def readFlags : Style → Bytes → Style × Bytes
  | style, [] => (style, [])
  | style, b :: rest =>
    if b = byte '#' then readFlags { style with alternate := true } rest
    else if b = byte '0' then readFlags { style with zeroFilled := true } rest
    else if b = byte '+' then readFlags { style with signed := true } rest
    else if b = byte '-' then readFlags { style with leftAligned := true } rest
    else if b = byte ' ' then readFlags { style with spaced := true } rest
    else (style, b :: rest)

def isNumbered : Pick → Bool
  | .numbered _ => true
  | _ => false

def readDirective (text : Bytes) : Directive × Bytes :=
  let (flags, rest) := readFlags {} text
  let (widthPick, rest) := readPick rest
  let (width, rest) := readSize rest
  let widthTaken := match width with
    | .taken => true
    | _ => false
  let (precision, picked, rest) : Option (Pick × Size) × Bool × Bytes :=
    match rest with
    | 0x2E :: rest =>
      let (pick, rest) := readPick rest
      let (size, rest) := readSize rest
      let taken := match size with
        | .taken => true
        | _ => false
      (some (pick, size), isNumbered pick && !taken, rest)
    | _ => (none, isNumbered widthPick && !widthTaken, rest)
  -- An argument picked already is the one for the letter.
  let (letterPick, rest) := if picked then (.following, rest) else readPick rest
  match rest with
  | [] => (⟨flags, widthPick, width, precision, letterPick, none⟩, [])
  | b :: more =>
    let letter := firstSymbol b more
    (⟨flags, widthPick, width, precision, letterPick, some letter⟩,
     rest.drop letter.spelling.length)

/-- The pieces of a format; the fuel is the length of the format, since every
piece takes a byte. -/
def readAll : Nat → Bytes → List Piece
  | 0, _ => []
  | _, [] => []
  | fuel + 1, b :: rest =>
    if b = byte '%' then
      let (d, rest) := readDirective rest
      .directive d :: readAll fuel rest
    else
      let more := rest.takeWhile (· ≠ byte '%')
      .text (b :: more) :: readAll fuel (rest.drop more.length)

def ofFormat (format : Bytes) : List Piece := readAll format.length format

end Piece

end Log

end Schemata
