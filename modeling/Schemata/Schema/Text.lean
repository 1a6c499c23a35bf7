import Schemata.Path.Text
import Schemata.Schema

/-!
# Schemas on one line

A schema is written as the name of its kind with its parts and attributes in
parentheses.
-/

namespace Schemata

namespace Schema

def dimensionsText (dimensions : List Nat) : Bytes :=
  Bytes.join ", " (dimensions.map decimal)

def maxLengthText : Option Nat → Bytes
  | none => []
  | some n => ", maxlength=" ++ decimal n

def collectionText (ordered : Bool) (maxLength : Option Nat) : Bytes :=
  "ordered=" ++ truth ordered ++ maxLengthText maxLength

mutual

def text : Schema → Bytes
  | .anything => "Anything()"
  | .nothing => "Nothing()"
  | .null => "Null()"
  | .boolean => "Boolean()"
  | .number whole signed nbytes =>
    "Number(whole=" ++ truth whole ++ ", signed=" ++ truth signed ++
      ", nbytes=" ++ decimal nbytes ++ ")"
  | .string charset maxLength =>
    "String(charset=" ++ Text.quote charset ++ maxLengthText maxLength ++ ")"
  | .tensor items dimensions =>
    "Tensor(" ++ items.text ++ ", " ++ dimensionsText dimensions ++ ")"
  | .collection items ordered maxLength =>
    "Collection(" ++ items.text ++ ", " ++ collectionText ordered maxLength ++
      ")"
  | .mapping keys values =>
    "Mapping(keys=" ++ keys.text ++ ", values=" ++ values.text ++ ")"
  | .record fields => "Record(" ++ fieldsText fields ++ ")"
  | .union possibilities => "Union(" ++ allText possibilities ++ ")"
  | .reference path => "Reference(" ++ Text.quote path.text ++ ")"

def allText : List Schema → Bytes
  | [] => []
  | [p] => p.text
  | p :: q :: rest => p.text ++ ", " ++ allText (q :: rest)

def fieldsText : List (Bytes × Schema) → Bytes
  | [] => []
  | [(name, f)] => name ++ "=" ++ f.text
  | (name, f) :: next :: rest =>
    name ++ "=" ++ f.text ++ ", " ++ fieldsText (next :: rest)

end

end Schema

end Schemata
