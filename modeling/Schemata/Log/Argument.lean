import Schemata.Log.Style
import Schemata.Value

/-!
# Arguments

A letter says what an argument is written as: `v` takes every value as it is
shown, the others expect a text, a number or a truth value.  Lists, associations
and structures hand the letter on to what they hold.  An argument that does not
fit its letter is written between parentheses, after the letter and its type.
-/

namespace Schemata

namespace Log

open Text

/-- Whether a value that has a name for its type is shown in a way of its
own. -/
def hasOwnText (shown : Bytes) (content : Value) : Bool :=
  shown != content.shown

def plainInteger (style : Style) (type : IntegerType) (n : Int) : Bytes :=
  if style.literal && !type.signed then
    { style with alternate := true }.integerText 16 false "" n
  else style.integerText 10 false "" n

def complexZero
    (style : Style) (numeral : NumeralStyle) (upper : Bool)
    (fallback : Option Nat) : Bytes :=
  let zero : Floating := .finite false 0 0
  let part (style : Style) : Bytes :=
    style.floatText numeral upper fallback .double zero
  "(" ++ part style ++ part { style with signed := true } ++ "i)"

def enclosed
    (style : Style) (type : Bytes) (start finish : Bytes) (items : List Bytes) :
    Bytes :=
  if style.literal then type ++ "\x7b" ++ Bytes.join ", " items ++ "\x7d"
  else start ++ Bytes.join " " items ++ finish

def nothingOf (style : Style) (type : Bytes) (plain : Bytes) : Bytes :=
  if style.literal then type ++ "(nil)" else plain

mutual

/-- A value as it is shown, where `label` is the name of its type if it has one
of its own and `outer` is whether it is an argument itself and not part of
one. -/
def plain (style : Style) (outer : Bool) (label : Option Bytes) : Value → Bytes
  | .absent =>
    if outer then style.pad "<nil>"
    else nothingOf style "interface \x7b\x7d" "<nil>"
  | .boolean b => style.pad (truth b)
  | .integer type n => plainInteger style type n
  | .float type x => style.floatText .general false none type.format x
  | .text s => if style.literal then style.quotedText s else style.plainText s
  | .byteString s =>
    if style.literal then style.quotedText s else style.plainText s
  | .bytes element s =>
    let name : Bytes := match label, element with
      | some name, _ => name
      | none, .integer .uint8 => if outer then "[]byte" else "[]uint8"
      | none, element => "[]" ++ element.name
    enclosed style name "[" "]"
      (s.map fun b => plainInteger style .uint8 b.toNat)
  | .slice element items =>
    enclosed style (label.getD ("[]" ++ element.name)) "[" "]"
      (plainItems style items)
  | .array element items =>
    enclosed style
      (label.getD (ValueType.array items.length element).name) "[" "]"
      (plainItems style items)
  | .map key element entries =>
    let sorted :=
      sortBy (fun a b => Value.compareKeys a.1 b.1) (plainEntries style entries)
    enclosed style (label.getD (ValueType.map key element).name) "map[" "]"
      (sorted.map Prod.snd)
  | .struct fields =>
    enclosed style (label.getD (Value.struct fields).type.name) "\x7b" "\x7d"
      (plainFields style fields)
  | .pointer _ target => "&" ++ plain style false none target
  | .nullPointer type =>
    if style.literal then "(*" ++ type.name ++ ")(nil)" else style.pad "<nil>"
  | .unclassified .complex _ => complexZero style .general false none
  | .unclassified type _ =>
    if style.literal then "(" ++ type.name ++ ")(nil)" else style.pad "<nil>"
  | .unmade type =>
    let name : Bytes := match label, type with
      | some name, _ => name
      | none, .slice (.integer .uint8) => if outer then "[]byte" else "[]uint8"
      | none, type => type.name
    nothingOf style name (Value.unmade type).shown
  | .labelled name shown content =>
    if hasOwnText shown content && !style.literal then style.plainText shown
    else plain style outer (some name) content

def plainItems (style : Style) : List Value → List Bytes
  | [] => []
  | v :: rest => plain style false none v :: plainItems style rest

def plainEntries (style : Style) : List (Value × Value) → List (Value × Bytes)
  | [] => []
  | (k, v) :: rest =>
    (k, plain style false none k ++ ":" ++ plain style false none v) ::
      plainEntries style rest

/-- Fields as they are shown, with their names if the style asks for them. -/
def plainFields (style : Style) : List (Field × Value) → List Bytes
  | [] => []
  | (f, v) :: rest =>
    let name : Bytes :=
      if style.named || style.literal then f.name ++ ":" else ""
    (name ++ plain style false none v) :: plainFields style rest

end

def misfit (style : Style) (letter : Bytes) (label : Option Bytes) (v : Value) :
    Bytes :=
  match v with
  | .absent => "%!" ++ letter ++ "(<nil>)"
  | v =>
    "%!" ++ letter ++ "(" ++ label.getD v.typeName ++ "=" ++
      plain style true label v ++ ")"

def textAt? (style : Style) (letter : Bytes) (text : Bytes) : Option Bytes :=
  if letter == "s" then some (style.plainText text)
  else if letter == "q" then some (style.quotedText text)
  else if letter == "x" then some (style.hexadecimalText false text)
  else if letter == "X" then some (style.hexadecimalText true text)
  else none

def integerAt? (style : Style) (letter : Bytes) (n : Int) : Option Bytes :=
  if letter == "d" then some (style.integerText 10 false "" n)
  else if letter == "b" then some (style.integerText 2 false "" n)
  else if letter == "o" then some (style.integerText 8 false "" n)
  else if letter == "O" then some (style.integerText 8 false "0o" n)
  else if letter == "x" then some (style.integerText 16 false "" n)
  else if letter == "X" then some (style.integerText 16 true "" n)
  else if letter == "c" then some (style.pad (encode (Style.pointOf n)))
  else if letter == "q" then
    some (style.pad (quotePoint style.signed (Style.pointOf n)))
  else if letter == "U" then some (style.pointText n)
  else none

/-- The style of numerals of a letter, whether it has capital letters, and the
precision where none is given. -/
def numeralStyle? (letter : Bytes) :
    Option (NumeralStyle × Bool × Option Nat) :=
  if letter == "g" then some (.general, false, none)
  else if letter == "G" then some (.general, true, none)
  else if letter == "e" then some (.scientific, false, some 6)
  else if letter == "E" then some (.scientific, true, some 6)
  else if letter == "f" || letter == "F" then some (.positional, false, some 6)
  else if letter == "b" then some (.binary, false, none)
  else if letter == "x" then some (.hexadecimal, false, none)
  else if letter == "X" then some (.hexadecimal, true, none)
  else none

/-- What has no address at a letter: zero, if the letter takes addresses. -/
def addressAt? (style : Style) (letter : Bytes) : Option Bytes :=
  if ["b", "o", "d", "x", "X"].any fun l : String => letter == utf8 l then
    integerAt? style letter 0
  else none

def byteItems? (element : ValueType) (items : List Value) : Option Bytes :=
  if element.isByte then
    some (items.map fun v => match v.core with
      | .integer _ n => n.toNat.toUInt8
      | _ => 0)
  else none

mutual

def lettered
    (style : Style) (letter : Bytes) (outer : Bool) (label : Option Bytes)
    (v : Value) : Bytes :=
  match v with
  | .absent => if outer then misfit style letter label .absent else "<nil>"
  | .boolean b =>
    if letter == "t" then style.pad (truth b)
    else misfit style letter label (.boolean b)
  | .integer type n =>
    (integerAt? style letter n).getD
      (misfit style letter label (.integer type n))
  | .float type x =>
    match numeralStyle? letter with
    | some (numeral, upper, fallback) =>
      style.floatText numeral upper fallback type.format x
    | none => misfit style letter label (.float type x)
  | .text s =>
    (textAt? style letter s).getD (misfit style letter label (.text s))
  | .byteString s =>
    (textAt? style letter s).getD (misfit style letter label (.byteString s))
  | .bytes element s =>
    match textAt? style letter s with
    | some text => text
    | none =>
      let item (b : UInt8) : Bytes :=
        match integerAt? style letter b.toNat, element with
        | some text, _ => text
        | none, .named name _ =>
          misfit style letter (some name) (.integer .uint8 b.toNat)
        | none, _ => misfit style letter none (.integer .uint8 b.toNat)
      "[" ++ Bytes.join " " (s.map item) ++ "]"
  | .slice _ items =>
    "[" ++ Bytes.join " " (letteredItems style letter items) ++ "]"
  | .array element items =>
    match (byteItems? element items).bind (textAt? style letter) with
    | some text => text
    | none => "[" ++ Bytes.join " " (letteredItems style letter items) ++ "]"
  | .map _ _ entries =>
    let sorted :=
      sortBy (fun a b => Value.compareKeys a.1 b.1)
        (letteredEntries style letter entries)
    "map[" ++ Bytes.join " " (sorted.map Prod.snd) ++ "]"
  | .struct fields =>
    "\x7b" ++ Bytes.join " " (letteredFields style letter fields) ++ "\x7d"
  | .pointer _ target => "&" ++ lettered style letter false none target
  | .nullPointer type =>
    (addressAt? style letter).getD
      (misfit style letter label (.nullPointer type))
  | .unclassified .complex shown =>
    match numeralStyle? letter with
    | some (numeral, upper, fallback) =>
      complexZero style numeral upper fallback
    | none => misfit style letter label (.unclassified .complex shown)
  | .unclassified type shown =>
    (addressAt? style letter).getD
      (misfit style letter label (.unclassified type shown))
  | .unmade type =>
    match type, textAt? style letter [] with
    | .slice element, some text => if element.isByte then text else "[]"
    | .map _ _, _ => "map[]"
    | _, _ => "[]"
  | .labelled name shown content =>
    if hasOwnText shown content then
      (textAt? style letter shown).getD
        (misfit style letter (some name) content)
    else lettered style letter outer (some name) content

def letteredItems (style : Style) (letter : Bytes) : List Value → List Bytes
  | [] => []
  | v :: rest =>
    lettered style letter false none v :: letteredItems style letter rest

def letteredEntries (style : Style) (letter : Bytes) :
    List (Value × Value) → List (Value × Bytes)
  | [] => []
  | (k, v) :: rest =>
    (k, lettered style letter false none k ++ ":" ++
        lettered style letter false none v) ::
      letteredEntries style letter rest

def letteredFields (style : Style) (letter : Bytes) :
    List (Field × Value) → List Bytes
  | [] => []
  | (_, v) :: rest =>
    lettered style letter false none v :: letteredFields style letter rest

end

def isByteList : Value → Bool
  | .bytes (.integer .uint8) _ => true
  | .unmade (.slice (.integer .uint8)) => true
  | _ => false

def formatted (style : Style) (letter : Bytes) (v : Value) : Bytes :=
  -- For the letters of values the flags have other meanings.
  let asValue : Style :=
    { style with
        literal := style.alternate, alternate := false, named := style.signed,
        signed := false }
  if letter == "v" then plain asValue true none v
  else if letter == "T" then
    match v with
    | .absent => style.pad "<nil>"
    | v => style.plainText v.typeName
  else if letter == "w" then
    if isByteList v then lettered asValue letter true none v
    else misfit asValue letter none v
  else if letter == "p" then
    match v with
    | .nullPointer _ | .unmade _ | .unclassified .channel _ =>
      { style with alternate := !style.alternate }.integerText 16 false "" 0
    | v => misfit style letter none v
  else lettered style letter true none v

end Log

end Schemata
