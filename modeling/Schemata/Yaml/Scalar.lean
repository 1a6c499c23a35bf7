import Schemata.Document
import Schemata.Yaml.Numeral

/-!
# Plain scalars of YAML

A plain scalar is null, a truth value, a number or else a string.  Its text
alone decides which.
-/

namespace Schemata.Yaml

def nullWords : List Bytes := ["null", "Null", "NULL", "~", ""]

def specialWords : List (Bytes × Document) :=
  [("true", .boolean true), ("True", .boolean true), ("TRUE", .boolean true),
    ("false", .boolean false), ("False", .boolean false),
    ("FALSE", .boolean false), (".inf", .float .float64 (.infinity false)),
    (".Inf", .float .float64 (.infinity false)),
    (".INF", .float .float64 (.infinity false)),
    ("-.inf", .float .float64 (.infinity true)),
    ("-.Inf", .float .float64 (.infinity true)),
    ("-.INF", .float .float64 (.infinity true)), (".nan", .float .float64 .nan),
    (".NaN", .float .float64 .nan), (".NAN", .float .float64 .nan)]

def plain (text : Bytes) : Document :=
  if nullWords.contains text then .null
  else
    match specialWords.lookup text with
    | some d => d
    | none =>
      match readNumeral text with
      | .integer signed n => .integer (if signed then .int64 else .uint64) n
      | .fraction x => .float .float64 x
      | _ => .text text

end Schemata.Yaml
