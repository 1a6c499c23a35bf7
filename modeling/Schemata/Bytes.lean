/-!
# Byte strings

Names, charsets, documents and messages are sequences of bytes.  They need not
be valid UTF-8, and they are compared and sorted byte by byte, which is the
order `compare` already has on lists.
-/

namespace Schemata

/-- Text as a sequence of bytes, whether or not it is valid UTF-8. -/
abbrev Bytes := List UInt8

def utf8 (s : String) : Bytes := s.toByteArray.data.toList

instance : Coe String Bytes := ⟨utf8⟩

def byte (c : Char) : UInt8 := c.toUInt8

def truth (b : Bool) : Bytes := if b then "true" else "false"

namespace Bytes

def join (separator : Bytes) (parts : List Bytes) : Bytes :=
  separator.intercalate parts

/-- The pieces between the occurrences of `separator`; a text without it is one
piece. -/
def split (separator : UInt8) : Bytes → List Bytes
  | [] => [[]]
  | b :: rest =>
    match split separator rest with
    | [] => [[b]]
    | piece :: pieces =>
      if b = separator then [] :: piece :: pieces else (b :: piece) :: pieces

/-- The pieces of a text, each ending just after an occurrence of `terminator`
(the last one perhaps without it).  Joined together they are the text again. -/
def splitAfter (terminator : UInt8) : Bytes → List Bytes
  | [] => []
  | b :: rest =>
    if b = terminator then [b] :: splitAfter terminator rest
    else
      match splitAfter terminator rest with
      | [] => [[b]]
      | piece :: pieces => (b :: piece) :: pieces

def repeated (n : Nat) (s : Bytes) : Bytes := (List.replicate n s).flatten

def spaces (n : Nat) : Bytes := List.replicate n (byte ' ')

def dropStart? (start s : Bytes) : Option Bytes :=
  if start.isPrefixOf s then some (s.drop start.length) else none

def occursIn (part : Bytes) : Bytes → Bool
  | [] => part.isEmpty
  | b :: rest => part.isPrefixOf (b :: rest) || occursIn part rest

def replaceByte (b : UInt8) (replacement s : Bytes) : Bytes :=
  s.flatMap fun c => if c = b then replacement else [c]

/-- ASCII upper case letters to lower case, all other bytes as they are. -/
def asciiLower (s : Bytes) : Bytes :=
  s.map fun b => if 0x41 ≤ b ∧ b ≤ 0x5A then b + 0x20 else b

end Bytes

end Schemata
