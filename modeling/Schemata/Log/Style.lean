import Schemata.Number.Styled
import Schemata.Text.Quoted

/-!
# Styles of arguments

A percent sign in a format is followed by flags, a width and a precision, which
are the style in which an argument is written: on which side it is padded, with
what, whether it has a sign, and how many digits or characters of it are
written.
-/

namespace Schemata

namespace Log

open Text

structure Style where
  /-- Padding goes to the right. -/
  leftAligned : Bool := false
  /-- Numbers have a sign, and quoted texts are ASCII. -/
  signed : Bool := false
  /-- Numbers tell their base, and texts are quoted as they are. -/
  alternate : Bool := false
  /-- Numbers have a space in place of a plus sign, and bytes have spaces
  between them. -/
  spaced : Bool := false
  /-- Padding is made of zeros. -/
  zeroFilled : Bool := false
  /-- Fields have their names before them. -/
  named : Bool := false
  /-- Values are written as a program would spell them. -/
  literal : Bool := false
  width : Option Nat := none
  precision : Option Nat := none

namespace Style

def padding (style : Style) (n : Nat) : Bytes :=
  List.replicate n
    (if style.zeroFilled && !style.leftAligned then byte '0' else byte ' ')

/-- A text padded to the width, counted in symbols. -/
def pad (style : Style) (text : Bytes) : Bytes :=
  match style.width with
  | none => text
  | some width =>
    let fill := style.padding (width - symbolCount text)
    if style.leftAligned then text ++ fill else fill ++ text

def padSpaces (style : Style) (text : Bytes) : Bytes :=
  { style with zeroFilled := false }.pad text

def cut (style : Style) (text : Bytes) : Bytes :=
  match style.precision with
  | none => text
  | some n => ((symbols text).take n).flatMap Symbol.spelling

def plainText (style : Style) (text : Bytes) : Bytes :=
  style.pad (style.cut text)

def quotedText (style : Style) (text : Bytes) : Bytes :=
  let text := style.cut text
  if style.alternate && isRaw text then style.pad (0x60 :: (text ++ [0x60]))
  else style.pad (if style.signed then quoteAscii text else quote text)

def capitals (upper : Bool) (text : Bytes) : Bytes :=
  if upper then text.map fun b => if 0x61 ≤ b ∧ b ≤ 0x7A then b - 0x20 else b
  else text

def hexadecimalText (style : Style) (upper : Bool) (text : Bytes) : Bytes :=
  let text := match style.precision with
    | some n => text.take n
    | none => text
  if text.isEmpty then style.padding (style.width.getD 0)
  else
    let mark : Bytes := if style.alternate then "0x" else ""
    let digits := text.map fun b => hexadecimal 2 b.toNat
    let joined :=
      if style.spaced then mark ++ Bytes.join (" " ++ mark) digits
      else mark ++ digits.flatten
    style.pad (capitals upper joined)

def digits (base : Nat) (upper : Bool) (n : Nat) : Bytes :=
  capitals upper ((Nat.toDigits base n).map byte)

def baseMark (base : Nat) (upper : Bool) (digits : Bytes) : Bytes :=
  if base = 2 then "0b"
  else if base = 8 then if digits.head? == some (byte '0') then "" else "0"
  else if base = 16 then if upper then "0X" else "0x"
  else ""

def sign (style : Style) (negative : Bool) : Bytes :=
  if negative then "-"
  else if style.signed then "+"
  else if style.spaced then " "
  else ""

/-- An integer in a base, with a mark of its own before that of the base. -/
def integerText
    (style : Style) (base : Nat) (upper : Bool) (mark : Bytes) (n : Int) :
    Bytes :=
  if style.precision == some 0 && n = 0 then Bytes.spaces (style.width.getD 0)
  else
    let sign := style.sign (n < 0)
    let least := match style.precision with
      | some p => p
      | none =>
        if style.zeroFilled && !style.leftAligned then
          style.width.getD 0 - sign.length
        else 0
    let digits := digits base upper n.natAbs
    let digits := List.replicate (least - digits.length) (byte '0') ++ digits
    let base : Bytes :=
      if style.alternate then baseMark base upper digits else ""
    style.padSpaces (sign ++ mark ++ base ++ digits)

/-- The code point of a number; one that is too large counts as U+FFFD. -/
def pointOf (n : Int) : Nat := if n < 0 || 0x10FFFF < n then 0xFFFD else n.toNat

/-- A number as the code point it is: `U+0041`. -/
def pointText (style : Style) (n : Int) : Bytes :=
  -- Negative numbers are their words of 64 bits.
  let n := if n < 0 then (n + wordCount).toNat else n.toNat
  let digits := digits 16 true n
  let least := match style.precision with
    | some p => max p 4
    | none => 4
  let shown : Bytes := if style.alternate && n ≤ 0x10FFFF && isPrintable n then
      " '" ++ encode n ++ "'"
    else ""
  style.padSpaces
    ("U+" ++ List.replicate (least - digits.length) (byte '0') ++ digits ++
      shown)

/-- What a point in a number with an exponent of the letters stands in front
of. -/
def splitExponent (letters : List Char) (text : Bytes) : Bytes × Bytes :=
  let isLetter (b : UInt8) : Bool := letters.any fun c => byte c = b
  (text.takeWhile fun b => !isLetter b, text.dropWhile fun b => !isLetter b)

/-- A number without its sign, which always has a point, and zeros at the end up
to `count` digits. -/
def pointed (hexadecimal : Bool) (count : Nat) (number : Bytes) : Bytes :=
  let (front, tail) :=
    splitExponent (if hexadecimal then ['p', 'P'] else ['p', 'P', 'e', 'E'])
      number
  let significant := (front.filter (· ≠ byte '.')).dropWhile (· == byte '0')
  let hasPoint := front.contains (byte '.')
  let used := significant.length + (if !hasPoint && front == "0" then 1 else 0)
  front ++ (if hasPoint then [] else [byte '.']) ++
    List.replicate (count - used) (byte '0') ++ tail

/-- A floating point number in a style of numerals; `fallback` is the precision
where none is given. -/
def floatText
    (style : Style) (numeral : NumeralStyle) (upper : Bool)
    (fallback : Option Nat) (format : FloatFormat) (x : Floating) : Bytes :=
  let precision := style.precision <|> fallback
  let text := x.textIn numeral upper precision format
  let (negative, unsigned) := match text with
    | 0x2D :: rest => (true, rest)
    | 0x2B :: rest => (false, rest)
    | rest => (false, rest)
  let sign := style.sign negative
  match x with
  | .nan => style.padSpaces (sign ++ unsigned)
  | .infinity _ =>
    style.padSpaces ((if sign.isEmpty then [byte '+'] else sign) ++ unsigned)
  | .finite .. =>
    let count := match numeral with
      | .general => precision.getD 6
      | .hexadecimal => if upper then 0 else precision.getD 6
      | _ => 0
    let unsigned :=
      if style.alternate && numeral ≠ .binary then
        pointed (numeral = .hexadecimal) count unsigned
      else unsigned
    if sign.isEmpty then style.pad unsigned
    else
      let width := style.width.getD 0
      let length := sign.length + unsigned.length
      if style.zeroFilled && !style.leftAligned && length < width then
        sign ++ style.padding (width - length) ++ unsigned
      else style.pad (sign ++ unsigned)

end Style

end Log

end Schemata
