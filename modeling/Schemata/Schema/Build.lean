import Schemata.Schema.Order
import Schemata.Schema.Text

/-!
# Building schemas

Each constructor checks its attributes and refuses those that describe nothing
sensible: widths and extents that are not positive, an empty charset, negative
lengths other than -1 for no bound, missing parts and empty field names.  Unions
are built in `Schemata.Union`, since they are normalised.
-/

namespace Schemata

inductive ConstructionError
  | widthNotPositive (nbytes : Int)
  | emptyCharset
  /-- The bound on the length, found at `place`, is negative. -/
  | negativeLength (kind : Kind) (place : Bytes) (length : Int)
  | missingItems (kind : Kind)
  | noDimensions
  | dimensionTooSmall (position : Nat) (extent : Int)
  | missingKeysOrValues
  | emptyFieldName
  | missingField (name : Bytes)
  | missingPossibility
  | invalidPath (cause : PathError)
  /-- There is no schema to rebuild. -/
  | missingSchema

namespace ConstructionError

def kind : ConstructionError → Kind
  | .widthNotPositive _ => .number
  | .emptyCharset => .string
  | .negativeLength kind _ _ => kind
  | .missingItems kind => kind
  | .noDimensions => .tensor
  | .dimensionTooSmall _ _ => .tensor
  | .missingKeysOrValues => .mapping
  | .emptyFieldName => .record
  | .missingField _ => .record
  | .missingPossibility => .union
  | .invalidPath _ => .reference
  | .missingSchema => .anything

def reason : ConstructionError → Bytes
  | .widthNotPositive nbytes =>
    "nbytes must be positive, got " ++ decimalInt nbytes
  | .emptyCharset => "empty charset"
  | .negativeLength _ place length =>
    place ++ " must be non-negative, got " ++ decimalInt length
  | .missingItems _ => "nil items"
  | .noDimensions => "no dimensions"
  | .dimensionTooSmall position extent =>
    "dimension " ++ decimal position ++ " must be at least 1, got " ++
      decimalInt extent
  | .missingKeysOrValues => "nil keys or values"
  | .emptyFieldName => "empty field name"
  | .missingField name => "nil schema for field " ++ Text.quote name
  | .missingPossibility => "nil possibility"
  | .invalidPath cause => cause.message
  | .missingSchema => "unknown schema <nil>"

def message (e : ConstructionError) : Bytes :=
  "construction error: " ++ e.kind.name ++ ": " ++ e.reason

end ConstructionError

namespace Build

def number (whole signed : Bool) (nbytes : Int) :
    Except ConstructionError Schema :=
  if nbytes ≤ 0 then .error (.widthNotPositive nbytes)
  else .ok (.number whole signed nbytes.toNat)

/-- A bound on a length, where -1 stands for no bound. -/
def maxLength (kind : Kind) (length : Int) :
    Except ConstructionError (Option Nat) :=
  if length < -1 then .error (.negativeLength kind "maxlength" length)
  else if length = -1 then .ok none
  else .ok (some length.toNat)

def string (charset : Bytes) (length : Int) :
    Except ConstructionError Schema := do
  if charset.isEmpty then throw .emptyCharset
  return .string charset (← maxLength .string length)

/-- Extents of at least 1, counted from `position`. -/
def dimensions : Nat → List Int → Except ConstructionError (List Nat)
  | _, [] => .ok []
  | position, d :: ds =>
    if d < 1 then .error (.dimensionTooSmall position d)
    else
      match dimensions (position + 1) ds with
      | .error e => .error e
      | .ok rest => .ok (d.toNat :: rest)

def tensor (items : Option Schema) (extents : List Int) :
    Except ConstructionError Schema :=
  match items with
  | none => .error (.missingItems .tensor)
  | some items =>
    match extents with
    | [] => .error .noDimensions
    | d :: ds =>
      match dimensions 0 (d :: ds) with
      | .error e => .error e
      | .ok dims => .ok (.tensor items dims)

def collection (items : Option Schema) (ordered : Bool) (length : Int) :
    Except ConstructionError Schema := do
  match items with
  | none => throw (.missingItems .collection)
  | some items =>
    return .collection items ordered (← maxLength .collection length)

def mapping : Option Schema → Option Schema → Except ConstructionError Schema
  | some keys, some values => .ok (.mapping keys values)
  | _, _ => .error .missingKeysOrValues

def fields :
    List (Bytes × Option Schema) →
    Except ConstructionError (List (Bytes × Schema))
  | [] => .ok []
  | (name, f) :: rest =>
    if name.isEmpty then .error .emptyFieldName
    else
      match f with
      | none => .error (.missingField name)
      | some f =>
        match fields rest with
        | .error e => .error e
        | .ok more => .ok ((name, f) :: more)

/-- Records; the fields may be given in any order, and of two with one name the
later one counts. -/
def record (entries : List (Bytes × Option Schema)) :
    Except ConstructionError Schema :=
  match fields (sortEntries entries) with
  | .error e => .error e
  | .ok fs => .ok (.record fs)

def reference (text : Bytes) : Except ConstructionError Schema :=
  match Path.parse text with
  | .error cause => .error (.invalidPath cause)
  | .ok path => .ok (.reference path)

end Build

namespace Schema

def signedInteger (nbytes : Nat) : Schema := .number true true nbytes

def unsignedInteger (nbytes : Nat) : Schema := .number true false nbytes

def floatingPoint (nbytes : Nat) : Schema := .number false true nbytes

def anyText : Schema := .string charsetUtf8 none

def anyBytes : Schema := .string charsetBytes none

def common : List (Bytes × Schema) :=
  [("anything", .anything), ("nothing", .nothing), ("null", .null),
    ("boolean", .boolean), ("int8", signedInteger 1),
    ("int16", signedInteger 2), ("int32", signedInteger 4),
    ("int64", signedInteger 8), ("uint8", unsignedInteger 1),
    ("uint16", unsignedInteger 2), ("uint32", unsignedInteger 4),
    ("uint64", unsignedInteger 8), ("float32", floatingPoint 4),
    ("float64", floatingPoint 8), ("text", anyText), ("bytes", anyBytes)]

def list (items : Schema) : Schema := .collection items true none

end Schema

end Schemata
