import Schemata.Bytes

/-!
# Base 64

Bytes written in an alphabet of 64 letters, three bytes in four letters.  The
last group is padded, so that the length is always a multiple of four.
-/

namespace Schemata.Text

def base64Digit (n : Nat) : UInt8 :=
  if n < 26 then byte 'A' + n.toUInt8
  else if n < 52 then byte 'a' + (n - 26).toUInt8
  else if n < 62 then byte '0' + (n - 52).toUInt8
  else if n = 62 then byte '+'
  else byte '/'

def base64 : Bytes → Bytes
  | [] => []
  | [a] =>
    let n := a.toNat * 16
    [base64Digit (n / 64), base64Digit (n % 64), byte '=', byte '=']
  | [a, b] =>
    let n := (a.toNat * 256 + b.toNat) * 4
    [base64Digit (n / 4096), base64Digit (n / 64 % 64), base64Digit (n % 64),
     byte '=']
  | a :: b :: c :: rest =>
    let n := (a.toNat * 256 + b.toNat) * 256 + c.toNat
    base64Digit (n / 262144) :: base64Digit (n / 4096 % 64) ::
      base64Digit (n / 64 % 64) :: base64Digit (n % 64) :: base64 rest

def base64Value? (b : UInt8) : Option Nat :=
  (List.range 64).find? fun n => base64Digit n = b

/-- The bytes of groups of four digits; only the last group may be padded. -/
def groupBytes? : List UInt8 → Option Bytes
  | [] => some []
  | [a, b, 0x3D, 0x3D] =>
    match base64Value? a, base64Value? b with
    | some a, some b => some [(a * 4 + b / 16).toUInt8]
    | _, _ => none
  | [a, b, c, 0x3D] =>
    match base64Value? a, base64Value? b, base64Value? c with
    | some a, some b, some c =>
      some [(a * 4 + b / 16).toUInt8, (b % 16 * 16 + c / 4).toUInt8]
    | _, _, _ => none
  | a :: b :: c :: d :: rest =>
    match base64Value? a, base64Value? b, base64Value? c, base64Value? d,
        groupBytes? rest with
    | some a, some b, some c, some d, some more =>
      some ((a * 4 + b / 16).toUInt8 :: (b % 16 * 16 + c / 4).toUInt8 ::
        (c % 4 * 64 + d).toUInt8 :: more)
    | _, _, _, _, _ => none
  | _ => none

/-- The bytes that digits stand for; line breaks between them do not count. -/
def base64Bytes? (text : Bytes) : Option Bytes :=
  groupBytes? (text.filter fun b => b ≠ 0x0A && b ≠ 0x0D)

end Schemata.Text
