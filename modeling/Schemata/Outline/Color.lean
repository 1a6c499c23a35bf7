import Schemata.Kind

/-!
# Colors

Every kind has a color, set by an escape sequence before the text and reset by
one after it.  For kinds whose color is one of the terminal's own, a percent
sign in the text is doubled, whether the escape sequences are written or not.
-/

namespace Schemata

structure Color where
  before : Bytes
  after : Bytes
  doublesPercent : Bool

namespace Color

def sequence (codes : List Nat) : Bytes :=
  "\x1b[" ++ Bytes.join ";" (codes.map decimal) ++ "m"

def basic (code : Nat) : Color := ⟨sequence [code], sequence [0], true⟩

/-- The code that takes back what a code does; codes that are no text attribute
are taken back by 0. -/
def resetCode (code : Nat) : Nat :=
  match code with
  | 1 | 2 => 22
  | 3 => 23
  | 4 => 24
  | 5 | 6 => 25
  | 7 => 27
  | 8 => 28
  | 9 => 29
  | _ => 0

/-- A color given by its red, green and blue parts.  After the text every code
of the sequence is taken back on its own, the parts of the color included. -/
def rgb (red green blue : Nat) : Color :=
  let codes := [38, 2, red, green, blue]
  ⟨sequence codes, sequence (codes.map resetCode), false⟩

def ofKind : Kind → Color
  | .anything | .nothing | .null => rgb 168 0 196
  | .boolean => basic 36
  | .number => rgb 128 216 236
  | .string => rgb 8 196 16
  | .tensor => rgb 196 96 16
  | .collection => rgb 128 168 196
  | .mapping => rgb 196 168 128
  | .record => rgb 74 92 138
  | .union => rgb 255 0 196
  | .reference => basic 34

def paint (escapes : Bool) (kind : Kind) (text : Bytes) : Bytes :=
  let color := ofKind kind
  let text :=
    if color.doublesPercent then Bytes.replaceByte (byte '%') "%%" text
    else text
  if escapes then color.before ++ text ++ color.after else text

end Color

end Schemata
