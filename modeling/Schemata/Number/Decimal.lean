import Schemata.Bytes

/-!
# Decimal numerals

Integers are written in decimal without leading zeros, and read from decimal
digits within a bound.  Reading goes from left to right and stops at the first
fault, so a numeral that has already passed the bound is out of range even if a
byte further on is no digit.
-/

namespace Schemata

def decimal (n : Nat) : Bytes := (Nat.toDigits 10 n).map byte

def decimalInt : Int → Bytes
  | .ofNat n => decimal n
  | .negSucc n => byte '-' :: decimal (n + 1)

def digit? (b : UInt8) : Option Nat :=
  if 0x30 ≤ b && b ≤ 0x39 then some (b.toNat - 0x30) else none

def hexDigit? (b : UInt8) : Option Nat :=
  if 0x30 ≤ b && b ≤ 0x39 then some (b.toNat - 0x30)
  else if 0x61 ≤ b && b ≤ 0x66 then some (b.toNat - 0x57)
  else if 0x41 ≤ b && b ≤ 0x46 then some (b.toNat - 0x37)
  else none

/-- The lower case hexadecimal digits of a number, at least `width` of them. -/
def hexadecimal (width n : Nat) : Bytes :=
  let digits := (Nat.toDigits 16 n).map byte
  List.replicate (width - digits.length) (byte '0') ++ digits

inductive NumeralError
  | invalidSyntax
  | outOfRange
  deriving DecidableEq

def NumeralError.message : NumeralError → Bytes
  | .invalidSyntax => "invalid syntax"
  | .outOfRange => "value out of range"

/-- Reads digits onto the value of the digits before them; no value may pass
`limit`. -/
def readDigits (limit : Nat) : Nat → Bytes → Except NumeralError Nat
  | value, [] => .ok value
  | value, b :: rest =>
    match digit? b with
    | none => .error .invalidSyntax
    | some d =>
      if limit < value * 10 + d then .error .outOfRange
      else readDigits limit (value * 10 + d) rest

def readNat (limit : Nat) : Bytes → Except NumeralError Nat
  | [] => .error .invalidSyntax
  | b :: rest => readDigits limit 0 (b :: rest)

def wordCount : Nat := 18446744073709551616

/-- How many words of 64 bits are not negative when they are read with a
sign. -/
def signedLimit : Nat := 9223372036854775808

def readInt (text : Bytes) : Except NumeralError Int :=
  let (negative, digits) := match text with
    | 0x2B :: rest => (false, rest)
    | 0x2D :: rest => (true, rest)
    | _ => (false, text)
  match readNat (wordCount - 1) digits with
  | .error e => .error e
  | .ok n =>
    if negative then
      if signedLimit < n then .error .outOfRange else .ok (-(n : Int))
    else if signedLimit ≤ n then .error .outOfRange else .ok n

end Schemata
