import Schemata.Json
import Schemata.Text.Base64
import Schemata.Value

/-!
# Indented JSON

Lists and associations in log messages are written as JSON over several lines,
after a margin that sets them off from the text around them.  Values without a
form in JSON, such as numbers that are not finite or associations whose keys
have no text, make the whole list or association one without it.
-/

namespace Schemata

namespace Log

open Text

/-- The start of a line at a depth: the margin and two spaces for each level. -/
def lineStart (depth : Nat) : Bytes := "\n   |" ++ Bytes.spaces (2 * depth)

def bracketed (opening closing : Bytes) (depth : Nat) (items : List Bytes) :
    Bytes :=
  if items.isEmpty then opening ++ closing
  else
    opening ++
      Bytes.join "," (items.map fun item => lineStart (depth + 1) ++ item) ++
      lineStart depth ++ closing

/-- Whether the keys of a type have texts: strings and integers have. -/
def hasKeyText (key : ValueType) : Bool :=
  match key.base with
  | .text | .byteString | .integer _ => true
  | _ => false

def keyText? : Value → Option Bytes
  | .text s => some s
  | .byteString s => some s
  | .integer _ n => some (decimalInt n)
  | .labelled _ _ content => keyText? content
  | _ => none

/-- A number that is kept as its spelling, where the empty one is zero. -/
def numeral? (spelling : Bytes) : Option Bytes :=
  if spelling.isEmpty then some "0"
  else
    match Json.readNumber spelling with
    | some (_, []) => some spelling
    | _ => none

mutual

def json? (depth : Nat) : Value → Option Bytes
  | .absent => some "null"
  | .nullPointer _ => some "null"
  | .boolean b => some (truth b)
  | .integer _ n => some (decimalInt n)
  | .float type x =>
    match x with
    | .finite .. => some (x.text .json type.format)
    | _ => none
  | .text s => some (Json.safeString s)
  | .byteString s => some (Json.safeString s)
  | .bytes _ s => some (Json.safeString (Text.base64 s))
  | .slice _ items =>
    (jsonItems? (depth + 1) items).map (bracketed "[" "]" depth)
  | .array _ items =>
    (jsonItems? (depth + 1) items).map (bracketed "[" "]" depth)
  | .map key _ entries =>
    if hasKeyText key then
      (jsonEntries? (depth + 1) entries).map fun entries =>
        let sorted := sortBy (fun a b => compare a.1 b.1) entries
        bracketed "\x7b" "\x7d" depth
          (sorted.map fun (key, text) => Json.safeString key ++ ": " ++ text)
    else none
  | .struct fields =>
    (jsonFields? (depth + 1) fields).map (bracketed "\x7b" "\x7d" depth)
  | .pointer _ target => json? depth target
  | .unclassified _ _ => none
  | .unmade type =>
    match type with
    | .map key _ => if hasKeyText key then some "null" else none
    | _ => some "null"
  | .labelled type shown content =>
    if type == "json.Number" then numeral? shown
    else if type == "kpath.Path" then some (Json.safeString shown)
    else json? depth content

def jsonItems? (depth : Nat) : List Value → Option (List Bytes)
  | [] => some []
  | v :: rest =>
    match json? depth v, jsonItems? depth rest with
    | some text, some more => some (text :: more)
    | _, _ => none

def jsonEntries? (depth : Nat) :
    List (Value × Value) → Option (List (Bytes × Bytes))
  | [] => some []
  | (k, v) :: rest =>
    match keyText? k, json? depth v, jsonEntries? depth rest with
    | some key, some text, some more => some ((key, text) :: more)
    | _, _, _ => none

/-- Fields as indented JSON; those with a small initial letter are left out. -/
def jsonFields? (depth : Nat) : List (Field × Value) → Option (List Bytes)
  | [] => some []
  | (f, v) :: rest =>
    match jsonFields? depth rest with
    | none => none
    | some more =>
      match f.name with
      | [] => some more
      | initial :: _ =>
        if 0x41 ≤ initial && initial ≤ 0x5A then
          (json? depth v).map fun text =>
            (Json.safeString f.name ++ ": " ++ text) :: more
        else some more

end

end Log

end Schemata
