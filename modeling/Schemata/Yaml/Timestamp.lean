import Schemata.Number.Decimal

/-!
# Timestamps

A scalar that looks like a date, a date with a time, or a time of day is a
timestamp.  The forms are `2006-01-02`, `2006-01-02 15:04:05`,
`2006-01-02T15:04:05Z` with a fraction of a second and an offset if need be, and
`15:4`.  Hours may have one digit.
-/

namespace Schemata.Yaml.Timestamp

/-- Reads a number of two digits, or of one if that is allowed. -/
def twoDigits (single : Bool) (text : Bytes) : Option (Nat × Bytes) :=
  match text with
  | a :: rest =>
    match digit? a, rest.head?.bind digit? with
    | some d, some e => some (d * 10 + e, rest.drop 1)
    | some d, none => if single then some (d, rest) else none
    | none, _ => none
  | [] => none

def bounded (low high : Nat) (n : Option (Nat × Bytes)) :
    Option (Nat × Bytes) :=
  n.filter fun (n, _) => low ≤ n && n ≤ high

def daysOf (year month : Nat) : Nat :=
  if month = 2 then
    if year % 4 = 0 && (year % 100 ≠ 0 || year % 400 = 0) then 29 else 28
  else if month = 4 || month = 6 || month = 9 || month = 11 then 30
  else 31

def oneByte (b : UInt8) : Bytes → Option Bytes
  | c :: rest => if c = b then some rest else none
  | [] => none

def date (text : Bytes) : Option Bytes := do
  let (century, text) ← twoDigits false text
  let (year, text) ← twoDigits false text
  let text ← oneByte (byte '-') text
  let (month, text) ← bounded 1 12 (twoDigits false text)
  let text ← oneByte (byte '-') text
  let (_, text) ←
    bounded 1 (daysOf (century * 100 + year) month) (twoDigits false text)
  return text

def skipFraction (text : Bytes) : Bytes :=
  match text with
  | a :: b :: _ =>
    if (a = byte '.' || a = byte ',') && (digit? b).isSome then
      (text.drop 1).dropWhile fun b => (digit? b).isSome
    else text
  | _ => text

def time (text : Bytes) : Option Bytes := do
  let (_, text) ← bounded 0 23 (twoDigits true text)
  let text ← oneByte (byte ':') text
  let (_, text) ← bounded 0 59 (twoDigits false text)
  let text ← oneByte (byte ':') text
  let (_, text) ← bounded 0 59 (twoDigits false text)
  return skipFraction text

def offset (text : Bytes) : Option Bytes :=
  match text with
  | [] => none
  | b :: rest =>
    if b = byte 'Z' then some rest
    else if b = byte '+' || b = byte '-' then do
      let (_, rest) ← bounded 0 24 (twoDigits false rest)
      let rest ← oneByte (byte ':') rest
      let (_, rest) ← bounded 0 60 (twoDigits false rest)
      return rest
    else none

/-- A date, a letter, a time and an offset. -/
def isInstant (letter : UInt8) (text : Bytes) : Bool :=
  (do let text ← date text
      let text ← oneByte letter text
      let text ← time text
      offset text) == some []

/-- A date, spaces and a time. -/
def isDateTime (text : Bytes) : Bool :=
  (do let text ← date text
      let text ← oneByte (byte ' ') text
      time (text.dropWhile fun b => b = byte ' ')) == some []

/-- An hour and a minute. -/
def isClock (text : Bytes) : Bool :=
  (do let (_, text) ← bounded 0 23 (twoDigits true text)
      let text ← oneByte (byte ':') text
      let (_, text) ← bounded 0 59 (twoDigits true text)
      return text) == some ([] : Bytes)

def isTimestamp (text : Bytes) : Bool :=
  date text == some [] || isDateTime text || isInstant (byte 'T') text ||
    isInstant (byte 't') text || isClock text

end Schemata.Yaml.Timestamp
