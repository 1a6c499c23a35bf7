import Schemata.Yaml.Meaning

/-!
# Reading YAML

A text may hold several documents.  All of them have to be well formed, and the
first one that has a value is the document of the text.  A text without any is
null.
-/

namespace Schemata.Yaml

def parse? (text : Bytes) : Option Document := do
  let (documents, _) ←
    (documentsOf (4 * text.length + 8) (← nodes? text)).run {}
  return documents.headD .null

end Schemata.Yaml
