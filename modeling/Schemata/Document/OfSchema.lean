import Schemata.Document
import Schemata.Rebuild

/-!
# Documents of schemas

The document of a schema is an object with its kind and its attributes.  A bound
on the length that is not there is left out.
-/

namespace Schemata.Schema

def maxLengthMember : Option Nat → List (Bytes × Document)
  | none => []
  | some n => [("maxlength", .integer .int n)]

mutual

/-- The document of a schema, with the members of objects in order of their
names. -/
def toDocument : Schema → Document
  | .anything => .object [("kind", .text "anything")]
  | .nothing => .object [("kind", .text "nothing")]
  | .null => .object [("kind", .text "null")]
  | .boolean => .object [("kind", .text "boolean")]
  | .number whole signed nbytes =>
    .object [("kind", .text "number"), ("nbytes", .integer .int nbytes),
      ("signed", .boolean signed),
      ("whole", .boolean whole)]
  | .string charset maxLength =>
    .object
      (("charset", .text charset) :: ("kind", .text "string") ::
        maxLengthMember maxLength)
  | .tensor items dimensions =>
    .object
      [("dimensions", .list (dimensions.map fun d : Nat => .integer .int d)),
      ("items", items.toDocument), ("kind", .text "tensor")]
  | .collection items ordered maxLength =>
    .object (("items", items.toDocument) :: ("kind", .text "collection") ::
      (maxLengthMember maxLength ++
        [((("ordered" : Bytes), .boolean ordered) : Bytes × Document)]))
  | .mapping keys values =>
    .object
      [("keys", keys.toDocument), ("kind", .text "mapping"),
       ("values", values.toDocument)]
  | .record fields =>
    .object
      [("fields", .object (fieldDocuments fields)), ("kind", .text "record")]
  | .union possibilities =>
    .object
      [("kind", .text "union"),
       ("possibilities", .list (allDocuments possibilities))]
  | .reference path =>
    .object [("kind", .text "reference"), ("path", .text path.text)]

def allDocuments : List Schema → List Document
  | [] => []
  | p :: ps => p.toDocument :: allDocuments ps

def fieldDocuments : List (Bytes × Schema) → List (Bytes × Document)
  | [] => []
  | (name, f) :: rest => (name, f.toDocument) :: fieldDocuments rest

end

end Schemata.Schema
