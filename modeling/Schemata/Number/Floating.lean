import Schemata.Number.Decimal

/-!
# Floating point numbers

A finite floating point number is `± significand · 2 ^ exponent`, kept exactly.
Decimal numerals are rounded to the nearest number of a format, a tie going to
the even significand.  Numbers are written with the fewest digits that read back
as the same number, and of those the nearest.
-/

namespace Schemata

inductive Floating
  | nan
  | infinity (negative : Bool)
  | finite (negative : Bool) (significand : Nat) (exponent : Int)
  deriving DecidableEq

/-- A binary format: the number of significant bits and the exponents of the
last bit. -/
structure FloatFormat where
  precision : Nat
  minExponent : Int
  maxExponent : Int

def FloatFormat.double : FloatFormat := ⟨53, -1074, 971⟩

def FloatFormat.single : FloatFormat := ⟨24, -149, 104⟩

namespace Floating

/-- A numerator and a denominator divided by `2 ^ exponent`. -/
def scaled (numerator denominator : Nat) (exponent : Int) : Nat × Nat :=
  if 0 ≤ exponent then (numerator, denominator * Nat.pow 2 exponent.toNat)
  else (numerator * Nat.pow 2 (-exponent).toNat, denominator)

/-- The quotient to the nearest integer, a half going to the even one. -/
def roundDiv (numerator denominator : Nat) : Nat :=
  let q := numerator / denominator
  let r := numerator % denominator
  if 2 * r < denominator then q
  else if denominator < 2 * r then q + 1
  else if q % 2 = 0 then q else q + 1

def ofRatio
    (format : FloatFormat) (negative : Bool) (numerator denominator : Nat) :
    Floating :=
  if numerator = 0 then .finite negative 0 0
  else
    let guess : Int :=
      (numerator.log2 : Int) - denominator.log2 - format.precision
    let low := max guess format.minExponent
    let (n, d) := scaled numerator denominator low
    let exponent := if Nat.pow 2 format.precision ≤ n / d then low + 1 else low
    let (n, d) := scaled numerator denominator exponent
    let significand := roundDiv n d
    let (significand, exponent) :=
      if significand = Nat.pow 2 format.precision then
        (Nat.pow 2 (format.precision - 1), exponent + 1)
      else (significand, exponent)
    if format.maxExponent < exponent then .infinity negative
    else .finite negative significand exponent

def ofDecimal
    (format : FloatFormat) (negative : Bool) (digits : Nat) (power : Int) :
    Floating :=
  if digits = 0 then .finite negative 0 0
  else if 400 < power then .infinity negative
  else if power < -(400 + (decimal digits).length : Int) then
    .finite negative 0 0
  else if 0 ≤ power then
    ofRatio format negative (digits * Nat.pow 10 power.toNat) 1
  else ofRatio format negative digits (Nat.pow 10 (-power).toNat)

/-- The number of a format nearest to a decimal numeral, which may have a
fraction and an exponent. -/
def ofNumeral (format : FloatFormat) (numeral : Bytes) : Floating :=
  let negative := numeral.head? == some 0x2D
  let body := if negative then numeral.drop 1 else numeral
  let mantissa := body.takeWhile fun b => b ≠ 0x65 && b ≠ 0x45
  let power : Int := match readInt (body.drop (mantissa.length + 1)) with
    | .ok n => n
    | .error _ => 0
  let whole := mantissa.takeWhile fun b => b ≠ 0x2E
  let part := mantissa.drop (whole.length + 1)
  let digits := (whole ++ part).foldl (fun n b => n * 10 + (digit? b).getD 0) 0
  ofDecimal format negative digits (power - part.length)

def ofInt (format : FloatFormat) (i : Int) : Floating :=
  ofRatio format (i < 0) i.natAbs 1

def convert (format : FloatFormat) : Floating → Floating
  | .finite negative significand exponent =>
    if significand = 0 then .finite negative 0 0
    else if 0 ≤ exponent then
      ofRatio format negative (significand * Nat.pow 2 exponent.toNat) 1
    else ofRatio format negative significand (Nat.pow 2 (-exponent).toNat)
  | x => x

def toInt? : Floating → Option Int
  | .finite negative significand exponent =>
    let scale := Nat.pow 2 exponent.natAbs
    let magnitude := if 0 ≤ exponent then some (significand * scale)
      else if significand % scale = 0 then some (significand / scale)
      else none
    magnitude.map fun n => if negative then -(n : Int) else n
  | _ => none

def ofFloat (x : Float) : Floating :=
  let bits := x.toBits.toNat
  let negative := 9223372036854775808 ≤ bits
  let exponent := bits / 4503599627370496 % 2048
  let fraction := bits % 4503599627370496
  if exponent = 2047 then if fraction = 0 then .infinity negative else .nan
  else if exponent = 0 then .finite negative fraction (-1074)
  else .finite negative (fraction + 4503599627370496) (exponent - 1075)

def toFloat : Floating → Float
  | .nan => 0.0 / 0.0
  | .infinity negative => if negative then -1.0 / 0.0 else 1.0 / 0.0
  | .finite negative significand exponent =>
    let x := (Float.ofNat significand).scaleB exponent
    if negative then -x else x

/-- The order of numbers, in which the rest come before all. -/
def order : Floating → Floating → Ordering
  | .nan, .nan => .eq
  | .nan, _ => .lt
  | _, .nan => .gt
  | .infinity a, .infinity b => compare b.toNat a.toNat
  | .infinity negative, _ => if negative then .lt else .gt
  | _, .infinity negative => if negative then .gt else .lt
  | .finite a m p, .finite b n q =>
    let low := min p q
    let left : Int := m * Nat.pow 2 (p - low).toNat
    let right : Int := n * Nat.pow 2 (q - low).toNat
    compare (if a then -left else left) (if b then -right else right)

/-- The number of decimal digits before the point of a ratio of at least 1; at
most 0 for smaller ones. -/
def decimalPoint (numerator denominator : Nat) : Int :=
  if denominator ≤ numerator then (decimal (numerator / denominator)).length
  else
    let inverse := (denominator + numerator - 1) / numerator
    1 - ((decimal (inverse - 1)).length : Int)

/-- The decimals of `count` digits next to a ratio, whose point stands after
`point` digits, that lie between two others.  The nearer one wins. -/
def decimalBetween (count : Nat) (point : Int) (numerator denominator : Nat)
    (inside : Nat → Nat → Bool) : Option Nat :=
  -- One unit in the last place is `unitN / unitD`.
  let power := point - count
  let (unitN, unitD) : Nat × Nat :=
    if 0 ≤ power then (Nat.pow 10 power.toNat, 1)
    else (1, Nat.pow 10 (-power).toNat)
  let below := numerator * unitD / (denominator * unitN)
  let above := below + 1
  let belowInside := inside (below * unitN) unitD
  let aboveInside := inside (above * unitN) unitD
  if belowInside && aboveInside then
    let rest := numerator * unitD - below * (denominator * unitN)
    if 2 * rest ≤ denominator * unitN then some below else some above
  else if belowInside then some below
  else if aboveInside then some above
  else none

/-- The fewest digits that read back as a positive number, and how many stand
before the point. -/
def shortestDigits (format : FloatFormat) (significand : Nat) (exponent : Int) :
    Bytes × Int :=
  -- Everything is a fraction over `4 · 2 ^ -exponent` or `4`.
  let up := if 0 ≤ exponent then Nat.pow 2 exponent.toNat else 1
  let down := if 0 ≤ exponent then 1 else Nat.pow 2 (-exponent).toNat
  let numerator := 4 * significand * up
  let denominator := 4 * down
  let narrow :=
    significand = Nat.pow 2 (format.precision - 1) &&
      format.minExponent < exponent
  let low := (4 * significand - (if narrow then 1 else 2)) * up
  let high := (4 * significand + 2) * up
  let even := significand % 2 = 0
  let inside (n d : Nat) : Bool :=
    let x := n * denominator
    if even then low * d ≤ x && x ≤ high * d else low * d < x && x < high * d
  let point := decimalPoint numerator denominator
  let found := (List.range 17).findSome? fun i =>
    (decimalBetween (i + 1) point numerator denominator inside).map
      fun digits => (i + 1, digits)
  match found with
  | some (count, digits) =>
    let text := decimal digits
    let stripped := (text.reverse.dropWhile (· == byte '0')).reverse
    (stripped, point + (text.length : Int) - count)
  | none => (decimal significand, (decimal significand).length)

/-- How numbers are laid out: from which decimal exponents on they have an
exponent part, how many digits it has at least, and how infinities and the rest
are spelled. -/
structure Layout where
  /-- Below this exponent of the first digit the exponent is written. -/
  smallest : Int
  /-- From this exponent of the first digit on the exponent is written. -/
  largest : Int
  exponentDigits : Nat

/-- Numbers in messages: `4.5`, `1e+06`, `1e-05`. -/
def Layout.message : Layout := ⟨-4, 6, 2⟩

/-- Numbers in JSON: `1e-7`, `1e+21`. -/
def Layout.json : Layout := ⟨-6, 21, 1⟩

def exponentText (layout : Layout) (exponent : Int) : Bytes :=
  let digits := decimal exponent.natAbs
  let padding :=
    List.replicate (layout.exponentDigits - digits.length) (byte '0')
  byte 'e' :: (if exponent < 0 then byte '-' else byte '+') ::
    (padding ++ digits)

/-- Digits with the point after `point` of them, and zeros where there are
none. -/
def positional (digits : Bytes) (point : Int) : Bytes :=
  let zero := byte '0'
  if point ≤ 0 then
    [zero, byte '.'] ++ List.replicate (-point).toNat zero ++ digits
  else
    let n := point.toNat
    let whole := digits.take n ++ List.replicate (n - digits.length) zero
    let fraction := digits.drop n
    if fraction.isEmpty then whole else whole ++ [byte '.'] ++ fraction

def text (layout : Layout) (format : FloatFormat) : Floating → Bytes
  | .nan => "NaN"
  | .infinity negative => if negative then "-Inf" else "+Inf"
  | .finite negative significand exponent =>
    let sign : Bytes := if negative then "-" else ""
    if significand = 0 then sign ++ "0"
    else
      let (digits, point) := shortestDigits format significand exponent
      let first := point - 1
      if first < layout.smallest || layout.largest ≤ first then
        let fraction := digits.drop 1
        sign ++ digits.take 1 ++
          (if fraction.isEmpty then [] else byte '.' :: fraction) ++
          exponentText layout first
      else sign ++ positional digits point

end Floating

end Schemata
