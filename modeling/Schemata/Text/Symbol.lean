import Schemata.Bytes

/-!
# Reading bytes as UTF-8

A byte string is a sequence of symbols: code points, each with the bytes that
spell it, and stray bytes that belong to no code point.  The spellings of all
symbols, joined, are the byte string.
-/

namespace Schemata.Text

inductive Symbol
  /-- A code point and its one to four bytes. -/
  | code (point : Nat) (spelling : Bytes)
  /-- A byte that is part of no valid code point. -/
  | stray (b : UInt8)

def Symbol.spelling : Symbol → Bytes
  | .code _ spelling => spelling
  | .stray b => [b]

/-- The code point of a symbol; a stray byte counts as U+FFFD, the replacement
character. -/
def Symbol.point : Symbol → Nat
  | .code point _ => point
  | .stray _ => 0xFFFD

def isTail (b : UInt8) : Bool := 0x80 ≤ b && b ≤ 0xBF

def twoBytes? (a b : UInt8) : Option Nat :=
  if 0xC2 ≤ a && a ≤ 0xDF && isTail b then
    some ((a.toNat - 0xC0) * 64 + (b.toNat - 0x80))
  else none

/-- The code point spelled by three bytes: neither below U+0800 nor a
surrogate. -/
def threeBytes? (a b c : UInt8) : Option Nat :=
  let second := if a = 0xE0 then 0xA0 ≤ b && b ≤ 0xBF
    else if a = 0xED then 0x80 ≤ b && b ≤ 0x9F
    else isTail b
  if 0xE0 ≤ a && a ≤ 0xEF && second && isTail c then
    some ((a.toNat - 0xE0) * 4096 + (b.toNat - 0x80) * 64 + (c.toNat - 0x80))
  else none

/-- The code point spelled by four bytes: from U+10000 to U+10FFFF. -/
def fourBytes? (a b c d : UInt8) : Option Nat :=
  let second := if a = 0xF0 then 0x90 ≤ b && b ≤ 0xBF
    else if a = 0xF4 then 0x80 ≤ b && b ≤ 0x8F
    else isTail b
  if 0xF0 ≤ a && a ≤ 0xF4 && second && isTail c && isTail d then
    some ((a.toNat - 0xF0) * 262144 + (b.toNat - 0x80) * 4096 +
      (c.toNat - 0x80) * 64 + (d.toNat - 0x80))
  else none

def firstSymbol (a : UInt8) (rest : Bytes) : Symbol :=
  if a < 0x80 then .code a.toNat [a]
  else
    match rest with
    | [] => .stray a
    | b :: rest =>
      match twoBytes? a b, rest with
      | some n, _ => .code n [a, b]
      | none, [] => .stray a
      | none, c :: rest =>
        match threeBytes? a b c, rest with
        | some n, _ => .code n [a, b, c]
        | none, [] => .stray a
        | none, d :: _ =>
          match fourBytes? a b c d with
          | some n => .code n [a, b, c, d]
          | none => .stray a

/-- The symbols of a text, where `skip` bytes at its front belong to the symbol
before. -/
def symbolsFrom : Nat → Bytes → List Symbol
  | _, [] => []
  | skip + 1, _ :: rest => symbolsFrom skip rest
  | 0, a :: rest =>
    let s := firstSymbol a rest
    s :: symbolsFrom (s.spelling.length - 1) rest

def symbols (text : Bytes) : List Symbol := symbolsFrom 0 text

def symbolCount (text : Bytes) : Nat := (symbols text).length

def isValid (text : Bytes) : Bool :=
  (symbols text).all fun s => match s with
    | .code _ _ => true
    | .stray _ => false

/-- The bytes that spell a code point; surrogates and numbers above U+10FFFF are
spelled as U+FFFD. -/
def encode (point : Nat) : Bytes :=
  if point < 0x80 then [point.toUInt8]
  else if point < 0x800 then
    [(0xC0 + point / 64).toUInt8, (0x80 + point % 64).toUInt8]
  else if (0xD800 ≤ point && point ≤ 0xDFFF) || 0x10FFFF < point then
    [0xEF, 0xBF, 0xBD]
  else if point < 0x10000 then
    [(0xE0 + point / 4096).toUInt8, (0x80 + point / 64 % 64).toUInt8,
     (0x80 + point % 64).toUInt8]
  else
    [(0xF0 + point / 262144).toUInt8, (0x80 + point / 4096 % 64).toUInt8,
      (0x80 + point / 64 % 64).toUInt8, (0x80 + point % 64).toUInt8]

end Schemata.Text
