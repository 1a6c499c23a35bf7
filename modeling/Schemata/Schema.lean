import Schemata.Kind
import Schemata.Path

/-!
# Schemas

A schema describes a set of values.  It is a tree of nodes of twelve kinds.
This type is the plain data; `Schemata.Schema.Build` builds schemas whose
attributes make sense.

Record fields stand in increasing order of their names.  Of a union's
possibilities none is a union, none covers another, and they stand in increasing
order.  A length bound of `none` is no bound.
-/

namespace Schemata

inductive Schema
  | anything
  | nothing
  /-- The absence of a value. -/
  | null
  | boolean
  /-- Integral or floating point numbers of a byte width. -/
  | number (whole signed : Bool) (nbytes : Nat)
  /-- Byte strings or text, by encoding. -/
  | string (charset : Bytes) (maxLength : Option Nat)
  /-- Arrays of fixed extents, outermost first. -/
  | tensor (items : Schema) (dimensions : List Nat)
  /-- Lists, or multisets if not ordered. -/
  | collection (items : Schema) (ordered : Bool) (maxLength : Option Nat)
  | mapping (keys values : Schema)
  | record (fields : List (Bytes × Schema))
  | union (possibilities : List Schema)
  /-- Positions in the table that a path leads to. -/
  | reference (path : Path)
  deriving Inhabited

namespace Schema

def kind : Schema → Kind
  | .anything => .anything
  | .nothing => .nothing
  | .null => .null
  | .boolean => .boolean
  | .number .. => .number
  | .string .. => .string
  | .tensor .. => .tensor
  | .collection .. => .collection
  | .mapping .. => .mapping
  | .record .. => .record
  | .union .. => .union
  | .reference .. => .reference

/-- The only possibility of a union of one, as often as there is one. -/
def unwrap : Schema → Schema
  | .union [p] => p.unwrap
  | s => s

def children : Schema → List Schema
  | .tensor items _ => [items]
  | .collection items _ _ => [items]
  | .mapping keys values => [keys, values]
  | .record fields => fields.map Prod.snd
  | .union possibilities => possibilities
  | _ => []

def field? (name : Bytes) (fields : List (Bytes × Schema)) : Option Schema :=
  (fields.find? fun f => f.1 == name).map Prod.snd

end Schema

def charsetBytes : Bytes := "bytes"

def charsetUtf8 : Bytes := "utf-8"

def charsetUtf32 : Bytes := "utf-32le"

end Schemata
