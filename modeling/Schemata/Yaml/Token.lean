import Schemata.Yaml.Scalar

/-!
# Tokens of YAML

A text is read as a sequence of tokens, each at a place.  Indentation is not a
token of its own: how tokens belong together is seen from their lines and
columns.
-/

namespace Schemata.Yaml

/-- The characters of a text; bytes that are not UTF-8 count as U+FFFD. -/
def charactersOf (text : Bytes) : List Char :=
  (Text.symbols text).map fun s => Char.ofNat s.point

def textOf (chars : List Char) : Bytes :=
  chars.flatMap fun c => Text.encode c.toNat

def isBreak (c : Char) : Bool := c = '\n' || c = '\r'

def isBlank (c : Char) : Bool := c = ' ' || c = '\t'

/-- A line and a column, both counted from 1. -/
structure Place where
  line : Nat
  column : Nat

inductive Form
  | documentStart
  | documentEnd
  | directive
  | openBrace
  | closeBrace
  | openBracket
  | closeBracket
  | comma
  | dash
  | question
  | colon
  /-- The name under which another object is merged into an object. -/
  | merge
  | anchor
  | alias
  | tag
  | block
  | comment
  /-- A scalar whose text decides what it is. -/
  | plain
  /-- A scalar that is a string whatever its text is. -/
  | string
  | quoted
  deriving DecidableEq

structure Token where
  form : Form
  place : Place
  text : Bytes := []
  /-- The token as it is written, with the white space around it. -/
  origin : List Char := []

namespace Token

def value (t : Token) : Document :=
  match t.form with
  | .plain => Yaml.plain t.text
  | .string | .quoted => .text t.text
  | _ => .null

/-- Whether a token is a string that is not quoted. -/
def isString (t : Token) : Bool :=
  match t.form, t.value with
  | .plain, .text _ => true
  | .string, _ => true
  | _, _ => false

def isScalar (t : Token) : Bool :=
  t.form = .plain || t.form = .string || t.form = .quoted

end Token

def scalarTags : List Bytes :=
  ["!!int", "!!float", "!!str", "!!binary", "!!timestamp", "!!bool", "!!null"]

def knownTags : List Bytes :=
  "!!map" :: "!!set" :: "!!seq" :: "!!omap" :: "!!merge" :: scalarTags

end Schemata.Yaml
