import Schemata.Value

/-!
# Converting values

Values are converted to the element type of the list, association or pointer
that holds them.
-/

namespace Schemata

namespace Value

def label (name : Bytes) (v : Value) : Value := .labelled name v.shown v

/-- The value of a type that holds nothing: no, zero, empty or absent. -/
def empty : ValueType → Value
  | .boolean => .boolean false
  | .integer type => .integer type 0
  | .float type => .float type (.finite false 0 0)
  | .text => .text []
  | .byteString => .byteString []
  | .slice element => .unmade (.slice element)
  | .array length element =>
    .array element (List.replicate length (empty element))
  | .pointer target => .nullPointer target
  | .map key element => .unmade (.map key element)
  | .struct _ => .struct []
  | .named name like => label name (empty like)
  | _ => .absent

def toByte (v : Value) : UInt8 :=
  match v.core with
  | .integer _ n => n.toNat.toUInt8
  | _ => 0

def convert : ValueType → Value → Value
  | .integer type, .integer _ n => .integer type n
  | .integer type, .float _ x => .integer type (x.toInt?.getD 0)
  | .float type, .integer _ n => .float type (Floating.ofInt type.format n)
  | .float type, .float _ x => .float type (x.convert type.format)
  | .byteString, .text s => .byteString s
  | .byteString, .bytes _ s => .byteString s
  | .text, .byteString s => .text s
  | .text, .bytes _ s => .text s
  | .slice element, .bytes own s =>
    .bytes (if element.isByte then element else own) s
  | .slice element, .text s => .bytes element s
  | .slice element, .unmade _ => .unmade (.slice element)
  | .slice element, .slice _ items =>
    if element.isByte then .bytes element (items.map toByte)
    else .slice element (items.map (convert element))
  | .pointer _, .nullPointer own => .nullPointer own
  | .pointer target, .absent => .nullPointer target
  | .pointer _, .pointer own v => .pointer own v
  | .pointer target, v => .pointer target (convert target v)
  | .struct [], _ => .struct []
  | .named name _, .labelled _ shown content => .labelled name shown content
  | .named name like, v => label name (convert like v)
  | _, v => v

end Value

end Schemata
