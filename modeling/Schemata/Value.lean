import Schemata.Number.Floating
import Schemata.Schema.Text
import Schemata.Sorted
import Schemata.Text.Upper

/-!
# Values

The values that schemas describe carry types.  A list knows the type of its
elements and an association those of its keys and values; where that type is
dynamic, each element has one of its own.  A value may be behind pointers, or of
a type with a name of its own that is otherwise like another.
-/

namespace Schemata

inductive IntegerType
  | int | int8 | int16 | int32 | int64
  | uint | uint8 | uint16 | uint32 | uint64 | uintptr
  deriving DecidableEq

namespace IntegerType

def name : IntegerType → Bytes
  | .int => "int"
  | .int8 => "int8"
  | .int16 => "int16"
  | .int32 => "int32"
  | .int64 => "int64"
  | .uint => "uint"
  | .uint8 => "uint8"
  | .uint16 => "uint16"
  | .uint32 => "uint32"
  | .uint64 => "uint64"
  | .uintptr => "uintptr"

def all : List IntegerType :=
  [.int, .int8, .int16, .int32, .int64, .uint, .uint8, .uint16, .uint32,
   .uint64, .uintptr]

def ofName? (name : Bytes) : Option IntegerType :=
  all.find? fun t => t.name == name

def signed : IntegerType → Bool
  | .int | .int8 | .int16 | .int32 | .int64 => true
  | _ => false

def nbytes : IntegerType → Nat
  | .int8 | .uint8 => 1
  | .int16 | .uint16 => 2
  | .int32 | .uint32 => 4
  | _ => 8

end IntegerType

inductive FloatType
  | float32 | float64
  deriving DecidableEq

namespace FloatType

def name : FloatType → Bytes
  | .float32 => "float32"
  | .float64 => "float64"

def nbytes : FloatType → Nat
  | .float32 => 4
  | .float64 => 8

def format : FloatType → FloatFormat
  | .float32 => .single
  | .float64 => .double

end FloatType

/-- The name of a structure's field and the name it goes by in records, if it
has another. -/
structure Field where
  name : Bytes
  tag : Option Bytes
  deriving DecidableEq

inductive ValueType
  | dynamic
  | boolean
  | integer (type : IntegerType)
  | float (type : FloatType)
  | complex
  | text
  | byteString
  | channel
  | slice (element : ValueType)
  | array (length : Nat) (element : ValueType)
  | pointer (target : ValueType)
  | map (key element : ValueType)
  | struct (fields : List (Field × ValueType))
  /-- A type with its own name that is otherwise like another. -/
  | named (name : Bytes) (like : ValueType)
  deriving Inhabited

inductive Value
  | absent
  | boolean (b : Bool)
  | integer (type : IntegerType) (n : Int)
  | float (type : FloatType) (x : Floating)
  | text (s : Bytes)
  /-- A byte string that can be a key. -/
  | byteString (s : Bytes)
  /-- A list of elements that are bytes, which counts as a byte string and not
  as a list. -/
  | bytes (element : ValueType) (s : Bytes)
  | slice (element : ValueType) (items : List Value)
  | array (element : ValueType) (items : List Value)
  | map (key element : ValueType) (entries : List (Value × Value))
  | struct (fields : List (Field × Value))
  | pointer (type : ValueType) (target : Value)
  | nullPointer (type : ValueType)
  /-- A value that no schema but the most general one describes. -/
  | unclassified (type : ValueType) (shown : Bytes)
  /-- A list or an association that was never made, which counts as empty. -/
  | unmade (type : ValueType)
  /-- A value of a type with its own name, shown in its own way. -/
  | labelled (type shown : Bytes) (content : Value)
  deriving Inhabited

namespace ValueType

def base : ValueType → ValueType
  | .named _ like => like.base
  | t => t

def isString (t : ValueType) : Bool :=
  match t.base with
  | .text | .byteString => true
  | _ => false

def isByte (t : ValueType) : Bool :=
  match t.base with
  | .integer .uint8 => true
  | _ => false

/-- Whether members hold nothing, which makes an association with such values a
set. -/
def isEmptyStruct (t : ValueType) : Bool :=
  match t.base with
  | .struct fields => fields.isEmpty
  | _ => false

mutual

def name : ValueType → Bytes
  | .dynamic => "interface \x7b\x7d"
  | .boolean => "bool"
  | .integer type => type.name
  | .float type => type.name
  | .complex => "complex128"
  | .text => "string"
  | .byteString => "schema.ByteString"
  | .channel => "chan int"
  | .slice element => "[]" ++ element.name
  | .array length element => "[" ++ decimal length ++ "]" ++ element.name
  | .pointer target => "*" ++ target.name
  | .map key element => "map[" ++ key.name ++ "]" ++ element.name
  | .struct [] => "struct \x7b\x7d"
  | .struct fields => "struct \x7b " ++ fieldNames fields ++ " \x7d"
  | .named name _ => name

def fieldNames : List (Field × ValueType) → Bytes
  | [] => []
  | (f, t) :: rest =>
    let tag : Bytes := match f.tag with
      | none => []
      | some tag => " " ++ Text.quote ("typesys:" ++ Text.quote tag)
    let more : Bytes := match rest with
      | [] => []
      | _ :: _ => "; "
    f.name ++ " " ++ t.name ++ tag ++ more ++ fieldNames rest

end

end ValueType

namespace Value

mutual

def type : Value → ValueType
  | .absent => .dynamic
  | .boolean _ => .boolean
  | .integer type _ => .integer type
  | .float type _ => .float type
  | .text _ => .text
  | .byteString _ => .byteString
  | .bytes element _ => .slice element
  | .slice element _ => .slice element
  | .array element items => .array items.length element
  | .map key element _ => .map key element
  | .struct fields => .struct (fieldTypes fields)
  | .pointer type _ => .pointer type
  | .nullPointer type => .pointer type
  | .unclassified type _ => type
  | .unmade type => type
  | .labelled type _ content => .named type content.type

/-- The types of fields; a field without a value has the dynamic type. -/
def fieldTypes : List (Field × Value) → List (Field × ValueType)
  | [] => []
  | (f, v) :: rest => (f, v.type) :: fieldTypes rest

end

def typeName : Value → Bytes
  | .absent => "<nil>"
  | v => v.type.name

/-- The order in which keys of an association are shown: numbers, then
strings. -/
def compareKeys : Value → Value → Ordering
  | .integer _ a, .integer _ b => compare a b
  | .text a, .text b => compare a b
  | .byteString a, .byteString b => compare a b
  | .float _ a, .float _ b => Floating.order a b
  | .boolean a, .boolean b => compare a.toNat b.toNat
  | .labelled _ _ a, .labelled _ _ b => compareKeys a b
  | a, b => compare (keyRank a) (keyRank b)
where
  keyRank : Value → Nat
    | .absent => 0
    | .integer _ _ => 1
    | .text _ | .byteString _ => 2
    | .float _ _ => 3
    | .boolean _ => 4
    | _ => 5

mutual

def shown : Value → Bytes
  | .absent => "<nil>"
  | .boolean b => truth b
  | .integer _ n => decimalInt n
  | .float type x => x.text .message type.format
  | .text s => s
  | .byteString s => s
  | .bytes _ s => "[" ++ Bytes.join " " (s.map fun b => decimal b.toNat) ++ "]"
  | .slice _ items => "[" ++ Bytes.join " " (shownAll items) ++ "]"
  | .array _ items => "[" ++ Bytes.join " " (shownAll items) ++ "]"
  | .map _ _ entries =>
    let sorted :=
      (sortBy (fun a b => compareKeys a.1 b.1) (shownEntries entries)).map
        Prod.snd
    "map[" ++ Bytes.join " " sorted ++ "]"
  | .struct fields => "\x7b" ++ Bytes.join " " (shownFields fields) ++ "\x7d"
  | .pointer _ target => "&" ++ target.shown
  | .nullPointer _ => "<nil>"
  | .unclassified _ shown => shown
  | .unmade type => match type with
    | .map _ _ => "map[]"
    | _ => "[]"
  | .labelled _ shown _ => shown

def shownAll : List Value → List Bytes
  | [] => []
  | v :: rest => v.shown :: shownAll rest

def shownEntries : List (Value × Value) → List (Value × Bytes)
  | [] => []
  | (k, v) :: rest => (k, k.shown ++ ":" ++ v.shown) :: shownEntries rest

def shownFields : List (Field × Value) → List Bytes
  | [] => []
  | (_, v) :: rest => v.shown :: shownFields rest

end

def kindWord : Value → Bytes
  | .absent => "invalid"
  | .labelled _ _ content => content.kindWord
  | .pointer _ _ | .nullPointer _ => "ptr"
  | .text _ | .byteString _ => "string"
  | .bytes _ _ | .slice _ _ => "slice"
  | .array _ _ => "array"
  | .map _ _ _ => "map"
  | .struct _ => "struct"
  | .unclassified .channel _ => "chan"
  | .unmade (.map _ _) => "map"
  | .unmade _ => "slice"
  | v => v.type.name

/-- The empty list or association of a type; other types have none. -/
def emptyOf : ValueType → Value
  | .slice element =>
    if element.isByte then .bytes element [] else .slice element []
  | .map key element => .map key element []
  | _ => .absent

/-- The value behind all pointers and names; behind a null pointer there is
none. -/
def core : Value → Value
  | .pointer _ target => target.core
  | .nullPointer _ => .absent
  | .unmade type => emptyOf type
  | .labelled _ _ content => content.core
  | v => v

def elements? : Value → Option (List Value)
  | .slice _ items => some items
  | .array _ items => some items
  | _ => none

/-- The number schema of a number, as whether it is whole and signed, and its
width. -/
def number? : Value → Option (Bool × Bool × Nat)
  | .integer type _ => some (true, type.signed, type.nbytes)
  | .float type _ => some (false, true, type.nbytes)
  | _ => none

def numberSchema? (v : Value) : Option Schema :=
  v.core.number?.map fun (whole, signed, nbytes) => .number whole signed nbytes

/-- The length of a string of an encoding: bytes, or code points of text. -/
def stringLength? (charset : Bytes) (v : Value) : Option Nat :=
  if charset = charsetBytes then
    match v with
    | .bytes _ s => some s.length
    | .byteString s => some s.length
    | _ => none
  else if charset = charsetUtf8 then
    match v with
    | .text s => some (Text.symbolCount s)
    | _ => none
  else none

def string? : Value → Option Bytes
  | .text s => some s
  | .byteString s => some s
  | _ => none

end Value

namespace Field

/-- Whether a field is for use outside the structure: its name starts with an
upper case letter. -/
def isExported (f : Field) : Bool :=
  match f.name with
  | [] => false
  | b :: rest => Text.isUpper (Text.firstSymbol b rest).point

/-- The name a field has in records; fields that are not exported and those
tagged `-` have none. -/
def recordName? (f : Field) : Option Bytes :=
  if f.isExported then
    match f.tag with
    | none => some f.name
    | some tag =>
      if tag.isEmpty then some f.name
      else if tag = ("-" : Bytes) then none
      else some tag
  else none

end Field

namespace Value

/-- What a structure, or an association with string keys, has under the name of
a record field. -/
def field? (name : Bytes) : Value → Option Value
  | .struct fields =>
    (fields.find? fun f => f.1.recordName? == some name).map Prod.snd
  | .map key _ entries =>
    if key.isString then
      (entries.find? fun e => e.1.core.string? == some name).map Prod.snd
    else none
  | _ => none

def lookup (v : Value) (name : Bytes) : Option Value := v.core.field? name

end Value

end Schemata
