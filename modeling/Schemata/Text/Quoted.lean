import Schemata.Number.Decimal
import Schemata.Text.Printable
import Schemata.Text.Symbol

/-!
# Quoted text

`quote` writes any byte string between double quotes.  Printable code points
stand for themselves, all else is escaped, stray bytes included, so the result
is printable UTF-8.  `unquote` reads what stands between the quotes.  It knows
more escapes than `quote` writes: octal bytes, and any code point by its number.
-/

namespace Schemata.Text

def shortEscape? : Nat → Option Char
  | 0x07 => some 'a'
  | 0x08 => some 'b'
  | 0x0C => some 'f'
  | 0x0A => some 'n'
  | 0x0D => some 'r'
  | 0x09 => some 't'
  | 0x0B => some 'v'
  | _ => none

def shortEscaped? : Nat → Option UInt8
  | 0x61 => some 0x07
  | 0x62 => some 0x08
  | 0x66 => some 0x0C
  | 0x6E => some 0x0A
  | 0x72 => some 0x0D
  | 0x74 => some 0x09
  | 0x76 => some 0x0B
  | _ => none

/-- A code point between quotes, where `mark` is the quote to be escaped. -/
def escapePoint (mark point : Nat) (spelling : Bytes) : Bytes :=
  if point = mark || point = 0x5C then 0x5C :: spelling
  else if isPrintable point then spelling
  else
    match shortEscape? point with
    | some c => [0x5C, byte c]
    | none =>
      if point < 0x20 || point = 0x7F then "\\x" ++ hexadecimal 2 point
      else if point < 0x10000 then "\\u" ++ hexadecimal 4 point
      else "\\U" ++ hexadecimal 8 point

def escapeSymbol : Symbol → Bytes
  | .code point spelling => escapePoint 0x22 point spelling
  | .stray b => "\\x" ++ hexadecimal 2 b.toNat

def quote (text : Bytes) : Bytes :=
  0x22 :: ((symbols text).flatMap escapeSymbol ++ [0x22])

def escapePointAscii (mark point : Nat) (spelling : Bytes) : Bytes :=
  if point < 0x80 then escapePoint mark point spelling
  else if point < 0x10000 then "\\u" ++ hexadecimal 4 point
  else "\\U" ++ hexadecimal 8 point

def quoteAscii (text : Bytes) : Bytes :=
  let symbol : Symbol → Bytes
    | .code point spelling => escapePointAscii 0x22 point spelling
    | .stray b => "\\x" ++ hexadecimal 2 b.toNat
  0x22 :: ((symbols text).flatMap symbol ++ [0x22])

/-- Whether a text can stand between back quotes as it is: it has no back quote,
no control character but tabs and no byte order mark, and is valid. -/
def isRaw (text : Bytes) : Bool :=
  (symbols text).all fun s => match s with
    | .code point _ =>
      point ≠ 0x60 && point ≠ 0x7F && point ≠ 0xFEFF &&
        (0x20 ≤ point || point = 0x09)
    | .stray _ => false

/-- A code point between single quotes, in ASCII alone or not; a number that is
no code point is written as U+FFFD. -/
def quotePoint (ascii : Bool) (point : Nat) : Bytes :=
  let point :=
    if (0xD800 ≤ point && point ≤ 0xDFFF) || 0x10FFFF < point then 0xFFFD
    else point
  let escaped := if ascii then escapePointAscii 0x27 point (encode point)
    else escapePoint 0x27 point (encode point)
  0x27 :: (escaped ++ [0x27])

def quoteByte (b : UInt8) : Bytes :=
  0x27 :: (escapePoint 0x27 b.toNat (encode b.toNat) ++ [0x27])

def fixedDigits?
    (digitOf : UInt8 → Option Nat) (base count : Nat) (rest : List Symbol) :
    Option Nat :=
  if rest.length < count then none
  else (rest.take count).foldlM
    (fun value s => match s with
      | .code point _ =>
        if point < 0x80 then (digitOf point.toUInt8).map (value * base + ·)
        else none
      | .stray _ => none) 0

def octalDigit? (b : UInt8) : Option Nat :=
  if 0x30 ≤ b && b ≤ 0x37 then some (b.toNat - 0x30) else none

/-- The bytes meant by an escape code point, if it is one: no surrogate and at
most U+10FFFF. -/
def escapedPoint? (point : Nat) : Option Bytes :=
  if (0xD800 ≤ point && point ≤ 0xDFFF) || 0x10FFFF < point then none
  else some (encode point)

def escape? (rest : List Symbol) : Option (Bytes × Nat) :=
  match rest with
  | .code c _ :: more =>
    if c = 0x5C || c = 0x22 then some ([c.toUInt8], 1)
    else if c = 0x78 then
      (fixedDigits? hexDigit? 16 2 more).map fun n => ([n.toUInt8], 3)
    else if c = 0x75 then
      ((fixedDigits? hexDigit? 16 4 more).bind escapedPoint?).map fun text =>
        (text, 5)
    else if c = 0x55 then
      ((fixedDigits? hexDigit? 16 8 more).bind escapedPoint?).map fun text =>
        (text, 9)
    else
      match shortEscaped? c with
      | some b => some ([b], 1)
      | none =>
        (fixedDigits? octalDigit? 8 3 rest).bind fun n =>
          if n ≤ 0xFF then some ([n.toUInt8], 3) else none
  | _ => none

/-- The text meant by symbols between double quotes, where `skip` of them belong
to the escape before. -/
def unescapeFrom : Nat → List Symbol → Option Bytes
  | _, [] => some []
  | skip + 1, _ :: rest => unescapeFrom skip rest
  | 0, .stray _ :: rest => (unescapeFrom 0 rest).map (encode 0xFFFD ++ ·)
  | 0, .code point spelling :: rest =>
    if point = 0x0A || point = 0x22 then none
    else if point = 0x5C then
      match escape? rest with
      | some (text, skip) => (unescapeFrom skip rest).map (text ++ ·)
      | none => none
    else (unescapeFrom 0 rest).map (spelling ++ ·)

/-- The text meant by what stands between double quotes.  Newlines and bare
quotes are refused, and a stray byte is read as U+FFFD. -/
def unquote (inner : Bytes) : Option Bytes := unescapeFrom 0 (symbols inner)

end Schemata.Text
