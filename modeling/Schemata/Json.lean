import Schemata.Text.Quoted

/-!
# JSON

JSON texts as trees.  Numbers and strings keep their spelling, so that `8` and
`8.0` stay apart, and object members keep their order; of two members with one
name the later one counts.
-/

namespace Schemata

inductive Json
  | null
  | boolean (b : Bool)
  | number (spelling : Bytes)
  /-- A string, with what is written between its quotes. -/
  | string (text spelling : Bytes)
  | array (items : List Json)
  | object (members : List (Bytes × Json))
  deriving Inhabited

namespace Json

open Text

def member? (name : Bytes) (members : List (Bytes × Json)) : Option Json :=
  (members.findRev? fun m => m.1 == name).map Prod.snd

def setMember (name : Bytes) (value : Json) :
    List (Bytes × Json) → List (Bytes × Json)
  | [] => [(name, value)]
  | (n, v) :: rest =>
    if n == name then (n, value) :: rest
    else (n, v) :: setMember name value rest

def merge (members : List (Bytes × Json)) : List (Bytes × Json) :=
  members.foldl (fun before (name, value) => setMember name value before) []

/-! ### Reading -/

def isSpace (b : UInt8) : Bool :=
  b == 0x20 || b == 0x09 || b == 0x0A || b == 0x0D

def skipSpace (text : Bytes) : Bytes := text.dropWhile isSpace

/-- What stands before the first quote that is not escaped, and what follows
that quote. -/
def quotedSplit : Bytes → Option (Bytes × Bytes)
  | [] => none
  | [b] => if b = 0x22 then some ([], []) else none
  | b :: c :: rest =>
    if b = 0x22 then some ([], c :: rest)
    else if b = 0x5C then
      (quotedSplit rest).map fun (inner, after) => (b :: c :: inner, after)
    else (quotedSplit (c :: rest)).map fun (inner, after) => (b :: inner, after)

def escapedUnit? : List Symbol → Option Nat
  | .code 0x5C _ :: .code 0x75 _ :: rest => fixedDigits? hexDigit? 16 4 rest
  | _ => none

/-- The bytes meant by what follows a backslash, and how many symbols that is.
A unit that is half of a pair without the other half is read as U+FFFD. -/
def escaped? (rest : List Symbol) : Option (Bytes × Nat) :=
  match rest with
  | .code 0x22 _ :: _ => some ([0x22], 1)
  | .code 0x5C _ :: _ => some ([0x5C], 1)
  | .code 0x2F _ :: _ => some ([0x2F], 1)
  | .code 0x62 _ :: _ => some ([0x08], 1)
  | .code 0x66 _ :: _ => some ([0x0C], 1)
  | .code 0x6E _ :: _ => some ([0x0A], 1)
  | .code 0x72 _ :: _ => some ([0x0D], 1)
  | .code 0x74 _ :: _ => some ([0x09], 1)
  | .code 0x75 _ :: more =>
    (fixedDigits? hexDigit? 16 4 more).map fun unit =>
      if 0xD800 ≤ unit && unit ≤ 0xDBFF then
        match escapedUnit? (more.drop 4) with
        | some low =>
          if 0xDC00 ≤ low && low ≤ 0xDFFF then
            (encode (0x10000 + (unit - 0xD800) * 0x400 + (low - 0xDC00)), 11)
          else (encode 0xFFFD, 5)
        | none => (encode 0xFFFD, 5)
      else (encode unit, 5)
  | _ => none

/-- The text meant by symbols between quotes, where `skip` of them belong to the
escape before. -/
def unescapeFrom : Nat → List Symbol → Option Bytes
  | _, [] => some []
  | skip + 1, _ :: rest => unescapeFrom skip rest
  | 0, .stray _ :: rest => (unescapeFrom 0 rest).map (encode 0xFFFD ++ ·)
  | 0, .code point spelling :: rest =>
    if point < 0x20 || point = 0x22 then none
    else if point = 0x5C then
      match escaped? rest with
      | some (text, skip) => (unescapeFrom skip rest).map (text ++ ·)
      | none => none
    else (unescapeFrom 0 rest).map (spelling ++ ·)

def readString (text : Bytes) : Option (Bytes × Bytes × Bytes) :=
  (quotedSplit text).bind fun (spelling, rest) =>
    (unescapeFrom 0 (symbols spelling)).map fun content =>
      (content, spelling, rest)

def isDigit (b : UInt8) : Bool := 0x30 ≤ b && b ≤ 0x39

/-- The length of the fraction at the front of a text, or `none` if it has a
point and no digit. -/
def fractionLength? : Bytes → Option Nat
  | 0x2E :: rest =>
    let digits := (rest.takeWhile isDigit).length
    if digits = 0 then none else some (digits + 1)
  | _ => some 0

/-- The length of the exponent at the front of a text, or `none` if it has no
digit. -/
def exponentLength? : Bytes → Option Nat
  | b :: rest =>
    if b = 0x65 || b = 0x45 then
      let (sign, digits) := match rest with
        | 0x2B :: more => (1, more)
        | 0x2D :: more => (1, more)
        | _ => (0, rest)
      let count := (digits.takeWhile isDigit).length
      if count = 0 then none else some (count + sign + 1)
    else some 0
  | [] => some 0

/-- The length of the integer part at the front of a text: no superfluous zero
in front. -/
def integerLength? (text : Bytes) : Option Nat :=
  match text with
  | 0x30 :: _ => some 1
  | _ =>
    let count := (text.takeWhile isDigit).length
    if count = 0 then none else some count

def readNumber (text : Bytes) : Option (Bytes × Bytes) := do
  let sign := match text with
    | 0x2D :: _ => 1
    | _ => 0
  let whole ← integerLength? (text.drop sign)
  let fraction ← fractionLength? (text.drop (sign + whole))
  let exponent ← exponentLength? (text.drop (sign + whole + fraction))
  let length := sign + whole + fraction + exponent
  return (text.take length, text.drop length)

mutual

/-- Reads a value from the front of a text, with at most `fuel` nested steps. -/
def readValue : Nat → Bytes → Option (Json × Bytes)
  | 0, _ => none
  | fuel + 1, text =>
    match skipSpace text with
    | [] => none
    | 0x22 :: rest =>
      (readString rest).map fun (s, spelling, after) =>
        (.string s spelling, after)
    | 0x5B :: rest =>
      match skipSpace rest with
      | 0x5D :: after => some (.array [], after)
      | _ =>
        (readItems fuel rest).map fun (items, after) => (.array items, after)
    | 0x7B :: rest =>
      match skipSpace rest with
      | 0x7D :: after => some (.object [], after)
      | _ =>
        (readMembers fuel rest).map fun (members, after) =>
          (.object members, after)
    | b :: rest =>
      let text := b :: rest
      match Bytes.dropStart? "null" text, Bytes.dropStart? "true" text,
          Bytes.dropStart? "false" text with
      | some after, _, _ => some (.null, after)
      | _, some after, _ => some (.boolean true, after)
      | _, _, some after => some (.boolean false, after)
      | none, none, none =>
        (readNumber text).map fun (n, after) => (.number n, after)

def readItems : Nat → Bytes → Option (List Json × Bytes)
  | 0, _ => none
  | fuel + 1, text =>
    match readValue fuel text with
    | none => none
    | some (item, rest) =>
      match skipSpace rest with
      | 0x2C :: more =>
        (readItems fuel more).map fun (items, after) => (item :: items, after)
      | 0x5D :: after => some ([item], after)
      | _ => none

def readMembers : Nat → Bytes → Option (List (Bytes × Json) × Bytes)
  | 0, _ => none
  | fuel + 1, text =>
    match skipSpace text with
    | 0x22 :: rest =>
      match readString rest with
      | none => none
      | some (name, _, rest) =>
        match skipSpace rest with
        | 0x3A :: rest =>
          match readValue fuel rest with
          | none => none
          | some (value, rest) =>
            match skipSpace rest with
            | 0x2C :: more =>
              (readMembers fuel more).map fun (members, after) =>
                ((name, value) :: members, after)
            | 0x7D :: after => some ([(name, value)], after)
            | _ => none
        | _ => none
    | _ => none

end

def parse? (text : Bytes) : Option Json :=
  match readValue (2 * text.length + 2) text with
  | some (value, rest) => if (skipSpace rest).isEmpty then some value else none
  | none => none

/-! ### Writing -/

def escapeSymbol : Symbol → Bytes
  | .stray _ => encode 0xFFFD
  | .code 0x22 _ => "\\\""
  | .code 0x5C _ => "\\\\"
  | .code 0x0A _ => "\\n"
  | .code 0x0D _ => "\\r"
  | .code 0x09 _ => "\\t"
  | .code 0x08 _ => "\\b"
  | .code 0x0C _ => "\\f"
  | .code point spelling =>
    if point < 0x20 then "\\u" ++ hexadecimal 4 point else spelling

def escape (text : Bytes) : Bytes := (symbols text).flatMap escapeSymbol

def stringText (text : Bytes) : Bytes := 0x22 :: (escape text ++ [0x22])

/-- A symbol between the quotes of a string, safe inside markup too. -/
def safeSymbol : Symbol → Bytes
  | .stray _ => "\\ufffd"
  | .code 0x22 _ => "\\\""
  | .code 0x5C _ => "\\\\"
  | .code 0x0A _ => "\\n"
  | .code 0x0D _ => "\\r"
  | .code 0x09 _ => "\\t"
  | .code 0x08 _ => "\\b"
  | .code 0x0C _ => "\\f"
  | .code point spelling =>
    if point < 0x20 || [0x3C, 0x3E, 0x26, 0x2028, 0x2029].contains point then
      "\\u" ++ hexadecimal 4 point
    else spelling

def safeString (text : Bytes) : Bytes :=
  0x22 :: ((symbols text).flatMap safeSymbol ++ [0x22])

/-- The string of a text, with no superfluous escapes. -/
def ofText (text : Bytes) : Json := .string text (escape text)

mutual

def compact : Json → Bytes
  | .null => "null"
  | .boolean b => if b then "true" else "false"
  | .number spelling => spelling
  | .string _ spelling => 0x22 :: (spelling ++ [0x22])
  | .array items => [0x5B] ++ compactItems items ++ [0x5D]
  | .object members => [0x7B] ++ compactMembers members ++ [0x7D]

def compactItems : List Json → Bytes
  | [] => []
  | [item] => item.compact
  | item :: next :: rest =>
    item.compact ++ [0x2C] ++ compactItems (next :: rest)

def compactMembers : List (Bytes × Json) → Bytes
  | [] => []
  | [(name, value)] => stringText name ++ [0x3A] ++ value.compact
  | (name, value) :: next :: rest =>
    stringText name ++ [0x3A] ++ value.compact ++ [0x2C] ++
      compactMembers (next :: rest)

end

end Json

end Schemata
