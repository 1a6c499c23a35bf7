import Schemata.Number.Floating

/-!
# Numerals of YAML

A plain scalar is a number if it is an integer, in decimal, hexadecimal, octal
or binary, or a decimal fraction with a point.  Underscores may stand anywhere
but at the front.  A leading zero makes a numeral octal.
-/

namespace Schemata.Yaml

inductive Numeral
  | none
  | outOfRange
  /-- An integer, which counts as signed if it is written with a minus sign. -/
  | integer (signed : Bool) (n : Int)
  | fraction (x : Floating)

/-- Reads digits of a base onto the value of the digits before them; no value
may pass `limit`. -/
def readBase (base limit : Nat) : Nat → Bytes → Except NumeralError Nat
  | value, [] => .ok value
  | value, b :: rest =>
    match hexDigit? b with
    | none => .error .invalidSyntax
    | some d =>
      if base ≤ d then .error .invalidSyntax
      else if limit < value * base + d then .error .outOfRange
      else readBase base limit (value * base + d) rest

def readInteger (negative : Bool) (base : Nat) (digits : Bytes) : Numeral :=
  if digits.isEmpty then .none
  else
    match readBase base (wordCount - 1) 0 digits with
    | .error .invalidSyntax => .none
    | .error .outOfRange => .outOfRange
    | .ok n =>
      if negative then
        if signedLimit < n then .outOfRange else .integer true (-(n : Int))
      else .integer false n

def isDigit (b : UInt8) : Bool := (digit? b).isSome

def digitsValue (digits : Bytes) : Nat :=
  digits.foldl (fun n b => n * 10 + (digit? b).getD 0) 0

def readExponent? : Bytes → Option Int
  | [] => some 0
  | b :: rest =>
    if b = 0x65 || b = 0x45 then
      let (negative, digits) := match rest with
        | 0x2D :: more => (true, more)
        | 0x2B :: more => (false, more)
        | _ => (false, rest)
      if digits.isEmpty || !digits.all isDigit then none
      else
        let n : Int := digitsValue digits
        some (if negative then -n else n)
    else none

/-- A decimal fraction, with an optional sign, a point and an optional
exponent. -/
def readFraction (text : Bytes) : Numeral :=
  let (negative, body) := match text with
    | 0x2D :: rest => (true, rest)
    | 0x2B :: rest => (false, rest)
    | _ => (false, text)
  let whole := body.takeWhile isDigit
  let rest := body.drop whole.length
  let part := match rest with
    | 0x2E :: more => more.takeWhile isDigit
    | _ => []
  let tail := match rest with
    | 0x2E :: more => more.drop part.length
    | _ => rest
  if whole.isEmpty && part.isEmpty then .none
  else
    match readExponent? tail with
    | none => .none
    | some exponent =>
      match Floating.ofDecimal .double negative (digitsValue (whole ++ part))
          (exponent - part.length) with
      | .infinity _ => .outOfRange
      | x => .fraction x

def dropOne (b : UInt8) : Bytes → Bytes
  | c :: rest => if c = b then rest else c :: rest
  | [] => []

def readNumeral (text : Bytes) : Numeral :=
  let points := text.count (byte '.')
  if text.isEmpty || text.head? == some (byte '_') || 1 < points then .none
  else
    let negative := text.head? == some (byte '-')
    let body :=
      (dropOne (byte '-') (dropOne (byte '+') text)).filter fun b =>
        b ≠ byte '_'
    match Bytes.dropStart? "0x" body, Bytes.dropStart? "0o" body,
        Bytes.dropStart? "0b" body with
    | some digits, _, _ => readInteger negative 16 digits
    | _, some digits, _ => readInteger negative 8 digits
    | _, _, some digits => readInteger negative 2 digits
    | none, none, none =>
      if points = 1 then
        readFraction (if negative then byte '-' :: body else body)
      else if body.head? == some (byte '0') && 1 < body.length then
        readInteger negative 8 body
      else readInteger negative 10 body

/-- Whether a plain scalar is written as a number, whether or not it is too
large. -/
def isNumeral (text : Bytes) : Bool :=
  match readNumeral text with
  | .none => false
  | _ => true

end Schemata.Yaml
