import Schemata.Document
import Schemata.Yaml.Numeral
import Schemata.Yaml.Timestamp

/-!
# Writing documents

As YAML, every member of an object and every item of a list has lines of its
own.  Strings are plain unless they would be read as something else, and strings
with line breaks are literal blocks.  As JSON, a document is on one line and
every string is quoted.
-/

namespace Schemata

namespace Yaml

/-- Plain words that are not read as strings by every reader. -/
def reservedWords : List Bytes :=
  ["null", "Null", "NULL", "~", "true", "True", "TRUE", "false", "False",
    "FALSE", "y", "Y", "yes", "Yes", "YES", "n", "N", "no", "No", "NO", "on",
    "On", "ON", "off", "Off", "OFF"]

/-- Bytes that a plain string does not start with. -/
def isIndicator (b : UInt8) : Bool :=
  (utf8 "*&[\x7b\x7d],!|>%'\"@ \x60").contains b

/-- Whether a string has a byte, or a byte before a space, that makes it be
quoted. -/
def hasMarker : Bytes → Bool
  | [] => false
  | b :: rest =>
    b = byte '#' || b = 0x5C ||
      ((b = byte ':' || b = byte '-') && rest.head? == some (byte ' ')) ||
      hasMarker rest

def needsQuotes (text : Bytes) : Bool :=
  text.isEmpty || reservedWords.contains text || isNumeral text ||
    text == ("-" : Bytes) || (text.head?.map isIndicator).getD false ||
    text.getLast? == some (byte ':') || text.getLast? == some (byte ' ') ||
    Timestamp.isTimestamp text || hasMarker text

/-- The number of times a text occurs in another one, apart from itself. -/
def occurrences (part : Bytes) : Nat → Bytes → Nat
  | _, [] => 0
  | skip + 1, _ :: rest => occurrences part skip rest
  | 0, b :: rest =>
    if part.isPrefixOf (b :: rest) then
      occurrences part (part.length - 1) rest + 1
    else occurrences part 0 rest

def lineBreakOf (text : Bytes) : Bytes :=
  let feeds := text.count 0x0A
  let returns := text.count 0x0D
  let pairs := occurrences [0x0D, 0x0A] 0 text
  if feeds = pairs && returns = pairs then [0x0D, 0x0A]
  else if feeds < returns then [0x0D]
  else [0x0A]

/-- The pieces of a text between the occurrences of `separator`, where `skip`
bytes at its front belong to the one before. -/
def splitAt (separator : Bytes) : Nat → Bytes → List Bytes
  | _, [] => [[]]
  | skip + 1, _ :: rest => splitAt separator skip rest
  | 0, b :: rest =>
    if separator.isPrefixOf (b :: rest) then
      [] :: splitAt separator (separator.length - 1) rest
    else
      match splitAt separator 0 rest with
      | piece :: pieces => (b :: piece) :: pieces
      | [] => [[b]]

def dropEnding (ending text : Bytes) : Bytes :=
  if ending.isSuffixOf text then text.take (text.length - ending.length)
  else text

/-- The header of a literal block: it says whether the text ends with a line
break, or with several. -/
def literalHeader (lineBreak text : Bytes) : Bytes :=
  if (lineBreak ++ lineBreak).isSuffixOf text then "|+"
  else if lineBreak.isSuffixOf text then "|"
  else "|-"

def literal (margin : Nat) (text : Bytes) : Bytes :=
  let lineBreak := lineBreakOf text
  let lines := (splitAt lineBreak 0 text).map (Bytes.spaces margin ++ ·)
  let body :=
    dropEnding (lineBreak ++ Bytes.spaces margin) (Bytes.join lineBreak lines)
  literalHeader lineBreak text ++ lineBreak ++
    dropEnding (Bytes.spaces margin) body

/-- A string as a scalar, which may be a block with lines after `margin`
spaces. -/
def scalar (margin : Nat) (text : Bytes) : Bytes :=
  if needsQuotes text then Text.quote text
  else if text.any fun b => b = 0x0A || b = 0x0D then literal margin text
  else text

/-- A line of an item after the first, `shift` columns of which are replaced by
`column` and two more; a line with nothing else on it is empty. -/
def itemLine (column shift : Nat) (line : Bytes) : Bytes :=
  if line.length ≤ shift then []
  else Bytes.spaces (column + 2) ++ line.drop shift

def itemText (column : Nat) (text : Bytes) : Bytes :=
  match Bytes.split 0x0A text with
  | first :: rest =>
    let start := first.dropWhile fun b => b = byte ' '
    let shift := first.length - start.length
    Bytes.join "\n"
      ((Bytes.spaces column ++ "- " ++ start) ::
        rest.map (itemLine column shift))
  | [] => []

def member (indent column : Nat) (name value : Bytes) : Bytes :=
  Bytes.spaces column ++ scalar (column + indent) name ++ ": " ++ value

def nested (indent column : Nat) (name value : Bytes) : Bytes :=
  Bytes.spaces column ++ scalar (column + indent) name ++ ":\n" ++ value

mutual

/-- The text of a document at a column, counted from 0.  Objects and lists take
whole lines; a nested object is deeper by `indent`. -/
def textAt (indent column : Nat) : Document → Bytes
  | .null => "null"
  | .boolean b => truth b
  | .integer _ n => decimalInt n
  | .float type x => x.text .message type.format
  | .text s => scalar (column + indent) s
  | .list [] => "[]"
  | .list (d :: rest) => Bytes.join "\n" (itemTexts indent column (d :: rest))
  | .object [] => "\x7b\x7d"
  | .object (e :: rest) =>
    Bytes.join "\n" (memberTexts indent column (e :: rest))
  | .table entries => (Document.table entries).shown
  | .other v => v.shown

def itemTexts (indent column : Nat) : List Document → List Bytes
  | [] => []
  | d :: rest =>
    itemText column (textAt indent column d) :: itemTexts indent column rest

def memberTexts (indent column : Nat) : List (Bytes × Document) → List Bytes
  | [] => []
  | (name, .list (d :: items)) :: rest =>
    nested indent column name (textAt indent column (.list (d :: items))) ::
      memberTexts indent column rest
  | (name, .object (e :: members)) :: rest =>
    nested indent column name
      (textAt indent (column + indent) (.object (e :: members))) :: memberTexts
      indent column rest
  | (name, d) :: rest =>
    member indent column name (textAt indent column d) ::
      memberTexts indent column rest

end

/-- A document as YAML, where values are indented by `indent` under their
names. -/
def write (indent : Nat) (d : Document) : Bytes := textAt indent 0 d ++ "\n"

end Yaml

namespace Document

mutual

def jsonText : Document → Bytes
  | .null => "null"
  | .boolean b => truth b
  | .integer _ n => decimalInt n
  | .float type x => x.text .message type.format
  | .text s => Text.quote s
  | .list items => "[" ++ jsonItems items ++ "]"
  | .object members => "\x7b" ++ jsonMembers members ++ "\x7d"
  | .table entries => Text.quote (Document.table entries).shown
  | .other v => Text.quote v.shown

def jsonItems : List Document → Bytes
  | [] => []
  | [d] => d.jsonText
  | d :: next :: rest => d.jsonText ++ ", " ++ jsonItems (next :: rest)

def jsonMembers : List (Bytes × Document) → Bytes
  | [] => []
  | [(name, d)] => Text.quote name ++ ": " ++ d.jsonText
  | (name, d) :: next :: rest =>
    Text.quote name ++ ": " ++ d.jsonText ++ ", " ++ jsonMembers (next :: rest)

end

end Document

end Schemata
