import Schemata.Text.Quoted

/-!
# Kinds of schema

There are twelve kinds.  Their order here is the order in which schemas of
different kinds sort.
-/

namespace Schemata

inductive Kind
  | anything | nothing | null | boolean | number | string
  | tensor | collection | mapping | record | union | reference
  deriving DecidableEq

namespace Kind

def all : List Kind :=
  [.anything, .nothing, .null, .boolean, .number, .string,
    .tensor, .collection, .mapping, .record, .union, .reference]

def rank : Kind → Nat
  | .anything => 0
  | .nothing => 1
  | .null => 2
  | .boolean => 3
  | .number => 4
  | .string => 5
  | .tensor => 6
  | .collection => 7
  | .mapping => 8
  | .record => 9
  | .union => 10
  | .reference => 11

def ofRank? (rank : Int) : Option Kind :=
  if 0 ≤ rank then all[rank.toNat]? else none

def name : Kind → Bytes
  | .anything => "Anything"
  | .nothing => "Nothing"
  | .null => "Null"
  | .boolean => "Boolean"
  | .number => "Number"
  | .string => "String"
  | .tensor => "Tensor"
  | .collection => "Collection"
  | .mapping => "Mapping"
  | .record => "Record"
  | .union => "Union"
  | .reference => "Reference"

def word (k : Kind) : Bytes := Bytes.asciiLower k.name

def rankName (rank : Int) : Bytes :=
  match ofRank? rank with
  | some k => k.name
  | none => "Kind(" ++ decimalInt rank ++ ")"

def rankMessage (rank : Int) : Bytes :=
  "<err: " ++ decimalInt rank ++ " is not a kind>"

/-- A code point as it counts when the case of ASCII letters does not matter.
The long s and the kelvin sign are the only code points outside ASCII that are
case variants of ASCII letters. -/
def foldPoint (point : Nat) : Nat :=
  if 0x41 ≤ point && point ≤ 0x5A then point + 0x20
  else if point = 0x017F then 0x73
  else if point = 0x212A then 0x6B
  else point

def parse? (text : Bytes) : Option Kind :=
  let folded := (Text.symbols text).map fun s => foldPoint s.point
  all.find? fun k => k.word.map UInt8.toNat == folded

def unknownMessage (text : Bytes) : Bytes :=
  "unknown schema kind " ++ Text.quote text

def isAtomic : Kind → Bool
  | .tensor | .collection | .mapping | .record | .union => false
  | _ => true

end Kind

instance : Ord Kind := ⟨fun a b => compare a.rank b.rank⟩

end Schemata
