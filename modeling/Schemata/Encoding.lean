import Schemata.Document.OfSchema
import Schemata.Document.ToSchema
import Schemata.Format
import Schemata.Yaml.Read
import Schemata.Yaml.Write

/-!
# Encoded schemas

A schema is written as the text of its document and read back from such a text.
Within every object the kind comes first and the other names follow in order.
Both formats are read in the same way.
-/

namespace Schemata

/-- The text of a schema in a format; the indentation matters for YAML only. -/
def Schema.encode (s : Schema) (format : Format := .yaml) (indent : Nat := 2) :
    Bytes :=
  let d := s.toDocument.ordered
  match format with
  | .yaml => Yaml.write indent d
  | .json => d.jsonText ++ "\n"

namespace Schema

def decodeM {m : Type → Type} [Monad m] [MonadReport m] (text : Bytes) :
    ExceptT DecodeError m Schema :=
  match Yaml.parse? text with
  | none => throw .malformed
  | some d => d.toSchemaM

def decode (text : Bytes) : Except DecodeError Schema :=
  Id.run (decodeM text).run

end Schema

end Schemata
