import Schemata.Number.Floating

/-!
# Styles of floating point numbers

Besides the fewest digits that read back, a number can be written with a given
precision: so many digits after the point, or so many in all.  Rounding is
exact, a tie going to the even digit.  Binary and hexadecimal notations write
the significand as it is kept.
-/

namespace Schemata

inductive NumeralStyle
  /-- With an exponent if the number is very small or large, else without. -/
  | general
  /-- One digit before the point, and an exponent. -/
  | scientific
  | positional
  /-- The significand in decimal and an exponent of two. -/
  | binary
  /-- The significand in hexadecimal and an exponent of two. -/
  | hexadecimal
  deriving DecidableEq

namespace Floating

def ratio (significand : Nat) (exponent : Int) : Nat × Nat :=
  if 0 ≤ exponent then (significand * Nat.pow 2 exponent.toNat, 1)
  else (significand, Nat.pow 2 (-exponent).toNat)

def withoutZeros (digits : Bytes) : Bytes :=
  (digits.reverse.dropWhile (· == byte '0')).reverse

/-- The `count` digits nearest to a ratio, without zeros at the end, and how
many stand before the point. -/
def roundedDigits (count numerator denominator : Nat) : Bytes × Int :=
  if numerator = 0 then ([], 0)
  else
    let point := decimalPoint numerator denominator
    let power := point - count
    let nearest :=
      if 0 ≤ power then
        roundDiv numerator (denominator * Nat.pow 10 power.toNat)
      else roundDiv (numerator * Nat.pow 10 (-power).toNat) denominator
    let digits := decimal nearest
    (withoutZeros digits, point + digits.length - count)

def signedExponent (exponent : Int) : Bytes :=
  let digits := decimal exponent.natAbs
  (if exponent < 0 then byte '-' else byte '+')
    :: (List.replicate (2 - digits.length) (byte '0') ++ digits)

def scientificText
    (letter : UInt8) (digits : Bytes) (point : Int) (places : Nat) : Bytes :=
  let fraction := (digits.drop 1).take places
  let padded := fraction ++ List.replicate (places - fraction.length) (byte '0')
  let exponent := if digits.isEmpty then 0 else point - 1
  digits.headD (byte '0') ::
    ((if padded.isEmpty then [] else byte '.' :: padded) ++ letter ::
      signedExponent exponent)

def positionalText (numerator denominator places : Nat) : Bytes :=
  let digits := decimal (roundDiv (numerator * Nat.pow 10 places) denominator)
  let digits := List.replicate (places + 1 - digits.length) (byte '0') ++ digits
  let whole := digits.take (digits.length - places)
  if places = 0 then whole
  else whole ++ byte '.' :: digits.drop (digits.length - places)

/-- A significand shifted until it has its first bit at the place of `2 ^ 60`,
and its exponent then. -/
def leadingBit (significand : Nat) (exponent : Int) : Nat × Int :=
  if significand = 0 then (0, 0)
  else
    (significand * Nat.pow 2 (60 - significand.log2),
     exponent + significand.log2)

/-- A number in hexadecimal, with a given number of digits after the point or as
many as it has. -/
def hexadecimalText
    (upper : Bool) (places : Option Nat) (significand : Nat) (exponent : Int) :
    Bytes :=
  let top := Nat.pow 2 60
  let (bits, exponent) := leadingBit significand exponent
  let (bits, exponent) := match places with
    | some n =>
      if n < 15 then
        let unit := Nat.pow 2 (60 - 4 * n)
        let rounded := roundDiv bits unit * unit
        if 2 * top ≤ rounded then (rounded / 2, exponent + 1)
        else (rounded, exponent)
      else (bits, exponent)
    | none => (bits, exponent)
  let digits := hexadecimal 15 (bits % top)
  let fraction := match places with
    | none => withoutZeros digits
    | some n => digits.take n ++ List.replicate (n - digits.length) (byte '0')
  let body :=
    "0x" ++ decimal (bits / top) ++
      (if fraction.isEmpty then [] else byte '.' :: fraction) ++ byte 'p' ::
      signedExponent exponent
  if upper then body.map fun b => if 0x61 ≤ b ∧ b ≤ 0x7A then b - 0x20 else b
  else body

/-- The digits of a number in general notation: where the exponent is written
depends on the precision. -/
def generalText
    (letter : UInt8) (digits : Bytes) (point : Int) (precision : Option Nat) :
    Bytes :=
  let count := digits.length
  let limit : Int := match precision with
    | none => Layout.message.largest
    | some p => if (count : Int) < p && point ≤ count then count else p
  if point - 1 < Layout.message.smallest || limit ≤ point - 1 then
    scientificText letter digits point ((min count (precision.getD count)) - 1)
  else if digits.isEmpty then "0"
  else positional digits point

/-- A number in a notation, with a sign if it is negative or infinite.  Without
a precision it has the fewest digits that read back. -/
def textIn
    (style : NumeralStyle) (upper : Bool) (precision : Option Nat)
    (format : FloatFormat) : Floating → Bytes
  | .nan => "NaN"
  | .infinity negative => if negative then "-Inf" else "+Inf"
  | .finite negative significand exponent =>
    let sign : Bytes := if negative then "-" else ""
    let (numerator, denominator) := ratio significand exponent
    let shortest : Bytes × Int :=
      if significand = 0 then ([], 0)
      else shortestDigits format significand exponent
    let letter := if upper then byte 'E' else byte 'e'
    sign ++ match style with
      | .scientific =>
        match precision with
        | some places =>
          let (digits, point) :=
            roundedDigits (places + 1) numerator denominator
          scientificText letter digits point places
        | none =>
          scientificText letter shortest.1 shortest.2 (shortest.1.length - 1)
      | .positional =>
        match precision with
        | some places => positionalText numerator denominator places
        | none =>
          if significand = 0 then "0" else positional shortest.1 shortest.2
      | .general =>
        match precision with
        | some p =>
          let count := max p 1
          let (digits, point) := roundedDigits count numerator denominator
          generalText letter digits point (some count)
        | none => generalText letter shortest.1 shortest.2 none
      | .binary =>
        let exponent := if significand = 0 then format.minExponent else exponent
        decimal significand ++ byte 'p' ::
          (if exponent < 0 then byte '-' else byte '+') ::
          decimal exponent.natAbs
      | .hexadecimal => hexadecimalText upper precision significand exponent

end Floating

end Schemata
