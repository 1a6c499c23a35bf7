import Schemata.Text.Symbol

/-!
# Editing texts

Cutting texts into pieces at a separator, replacing parts of them, trimming
their ends and changing the case of their letters.  Separators and parts are
found from left to right and do not overlap; the empty one is found between any
two symbols.
-/

namespace Schemata.Text

def isBlankPoint (point : Nat) : Bool :=
  (0x09 ≤ point && point ≤ 0x0D) || (0x2000 ≤ point && point ≤ 0x200A) ||
    [0x20, 0x85, 0xA0, 0x1680, 0x2028, 0x2029, 0x202F, 0x205F, 0x3000].contains
      point

def trimBy (test : Nat → Bool) (text : Bytes) : Bytes :=
  let front := (symbols text).dropWhile fun s => test s.point
  let back := front.reverse.dropWhile fun s => test s.point
  back.reverse.flatMap Symbol.spelling

def indexOf? (part : Bytes) : Bytes → Option Nat
  | [] => if part.isEmpty then some 0 else none
  | b :: rest =>
    if part.isPrefixOf (b :: rest) then some 0
    else (indexOf? part rest).map (· + 1)

def lastIndexOf? (part : Bytes) : Bytes → Option Nat
  | [] => if part.isEmpty then some 0 else none
  | b :: rest =>
    match lastIndexOf? part rest with
    | some i => some (i + 1)
    | none => if part.isPrefixOf (b :: rest) then some 0 else none

/-- The pieces of a text between at most `count` occurrences of a separator that
is not empty. -/
def piecesBy (separator : Bytes) : Nat → Bytes → List Bytes
  | 0, text => [text]
  | count + 1, text =>
    match indexOf? separator text with
    | none => [text]
    | some i =>
      text.take i :: piecesBy separator count (text.drop (i + separator.length))

/-- The symbols of a text as texts, at most `count` of them with the rest in the
last one. -/
def symbolPieces (count : Nat) (text : Bytes) : List Bytes :=
  let all := (symbols text).map Symbol.spelling
  if all.length ≤ count then all
  else all.take (count - 1) ++ [(all.drop (count - 1)).flatten]

/-- The pieces of a text at a separator, at most `count` of them; without a
count there are as many as there can be, and a negative count is none. -/
def pieces (separator : Bytes) (count : Option Int) (text : Bytes) :
    List Bytes :=
  let limit : Nat := match count with
    | none => text.length + 1
    | some n => if n < 0 then text.length + 1 else n.toNat
  if limit = 0 then []
  else if separator.isEmpty then symbolPieces limit text
  else piecesBy separator (limit - 1) text

def withSeparator (separator : Bytes) : List Bytes → List Bytes
  | [] => []
  | [piece] => [piece]
  | piece :: rest => (piece ++ separator) :: withSeparator separator rest

/-- A text with at most `count` occurrences of a part replaced; without a count
all of them are. -/
def replaced (part replacement : Bytes) (count : Option Int) (text : Bytes) :
    Bytes :=
  let limit : Nat := match count with
    | none => text.length + 1
    | some n => if n < 0 then text.length + 1 else n.toNat
  if part.isEmpty then
    let all := (symbols text).map Symbol.spelling
    let front := (all.take limit).flatMap fun s => replacement ++ s
    let rest := (all.drop limit).flatten
    -- The empty part is found once more after the last symbol.
    front ++ rest ++ (if all.length < limit then replacement else [])
  else Bytes.join replacement (piecesBy part limit text)

def upperPoint (c : Nat) : Nat :=
  if (0x61 ≤ c && c ≤ 0x7A) || (0xE0 ≤ c && c ≤ 0xFE && c ≠ 0xF7) ||
      (0x3B1 ≤ c && c ≤ 0x3CB && c ≠ 0x3C2) || (0x430 ≤ c && c ≤ 0x44F) then
    c - 0x20
  else if 0x450 ≤ c && c ≤ 0x45F then c - 0x50
  else if c = 0x3C2 then 0x3A3
  else if c = 0xFF then 0x178
  else if c = 0xB5 then 0x39C
  else if ((0x100 ≤ c && c ≤ 0x137 && c ≠ 0x131) || (0x14A ≤ c && c ≤ 0x177)) &&
      c % 2 = 1 then
    c - 1
  else if 0x139 ≤ c && c ≤ 0x148 && c % 2 = 0 then c - 1
  else c

def lowerPoint (c : Nat) : Nat :=
  if (0x41 ≤ c && c ≤ 0x5A) || (0xC0 ≤ c && c ≤ 0xDE && c ≠ 0xD7) ||
      (0x391 ≤ c && c ≤ 0x3AB && c ≠ 0x3A2) || (0x410 ≤ c && c ≤ 0x42F) then
    c + 0x20
  else if 0x400 ≤ c && c ≤ 0x40F then c + 0x50
  else if c = 0x178 then 0xFF
  else if ((0x100 ≤ c && c ≤ 0x137 && c ≠ 0x130) || (0x14A ≤ c && c ≤ 0x177)) &&
      c % 2 = 0 then
    c + 1
  else if 0x139 ≤ c && c ≤ 0x148 && c % 2 = 1 then c + 1
  else c

def mapPoints (f : Nat → Nat) (text : Bytes) : Bytes :=
  (symbols text).flatMap fun s => encode (f s.point)

end Schemata.Text
