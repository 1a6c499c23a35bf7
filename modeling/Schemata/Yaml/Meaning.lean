import Schemata.Yaml.Node

/-!
# The documents of nodes

An alias stands for what its anchor named last.  An object may be merged into
another one, member by member; of several members of the same name the last one
counts.  Names that are not strings count as the text of their value.
-/

namespace Schemata.Yaml

structure Anchors where
  nodes : List (Bytes × Option Node) := []
  documents : List (Bytes × Document) := []

/-- The meaning of a node depends on the anchors before it. -/
abbrev Reading := StateT Anchors Option

namespace Anchors

def name (a : Anchors) (name : Bytes) (node : Option Node) : Anchors :=
  { a with nodes := (name, node) :: a.nodes }

def mean (a : Anchors) (name : Bytes) (d : Document) : Anchors :=
  { a with documents := (name, d) :: a.documents }

end Anchors

def setMember (name : Bytes) (d : Document) :
    List (Bytes × Document) → List (Bytes × Document)
  | [] => [(name, d)]
  | (other, e) :: rest =>
    if other = name then (name, d) :: rest
    else (other, e) :: setMember name d rest

def nameOf : Document → Bytes
  | .null => "null"
  | .text s => s
  | d => d.shown

def truthValue? (text : Bytes) : Option Bool :=
  let text := Bytes.asciiLower text
  if (["1", "t", "true", "yes"] : List Bytes).contains text then some true
  else if (["0", "f", "false", "no"] : List Bytes).contains text then some false
  else none

/-- A number as a floating point number, and a text by the numeral in it. -/
def fractionOf : Document → Document
  | .integer _ n => .float .float64 (Floating.ofInt .double n)
  | .float type x => .float type x
  | .text s =>
    match readFraction s with
    | .fraction x => .float .float64 x
    | _ => .float .float64 (Floating.ofInt .double 0)
  | _ => .integer .int 0

/-- A text as an integer; one that is too large counts as the last integer there
is, and other texts as 0. -/
def integerOf (text : Bytes) : Document :=
  match readInt text with
  | .ok n => .integer .int n
  | .error .outOfRange =>
    .integer .int
      (if text.head? = some (byte '-') then -(signedLimit : Int)
      else signedLimit - 1)
  | .error _ => .integer .int 0

def underTag (tag : Bytes) (d : Document) : Option Document :=
  if tag = ("!!int" : Bytes) then some (integerOf d.shown)
  else if tag = ("!!float" : Bytes) then some (fractionOf d)
  else if tag = ("!!null" : Bytes) then some .null
  else if tag = ("!!bool" : Bytes) then (truthValue? d.shown).map .boolean
  else if tag = ("!!str" : Bytes) then
    some (.text (match d with
      | .null => []
      | d => d.shown))
  else some d

/-- The members that a node merges into an object: its own, those of what an
alias names, or those of every item of a list. -/
def mergedMembers : Nat → Bool → Node → Reading (List (Node × Node))
  | 0, _, _ => failure
  | _ + 1, _, .object members => return members
  | fuel + 1, isList, .anchor _ name value => do
    modify (·.name name (some value))
    mergedMembers fuel isList value
  | fuel + 1, isList, .alias name => do
    match (← get).nodes.lookup name with
    | some (some node) => mergedMembers fuel isList node
    | _ => failure
  | fuel + 1, true, .list items =>
    return (← items.mapM (mergedMembers fuel false)).flatten
  | _ + 1, _, _ => failure

mutual

def documentOf (within : List Bytes) : Nat → Node → Reading Document
  | 0, _ => failure
  | fuel + 1, node =>
    match node with
    | .absent => return .null
    | .scalar t => return t.value
    | .object members => return .object (← membersOf within fuel [] members)
    | .list items => return .list (← itemsOf within fuel items)
    | .anchor _ name value => do
      modify (·.name name none)
      let d ← documentOf (name :: within) fuel value
      modify fun a => (a.name name (some value)).mean name d
      return d
    | .alias name => do
      if within.contains name then return .null
      match (← get).documents.lookup name with
      | some d => return d
      | none => failure
    | .tagged _ tag value => do
      let d ← documentOf within fuel value
      match underTag tag d with
      | some d => return d
      | none => failure
    | .directive => return .null

def itemsOf (within : List Bytes) : Nat → List Node → Reading (List Document)
  | 0, _ => failure
  | _ + 1, [] => return []
  | fuel + 1, node :: rest => do
    let d ← documentOf within fuel node
    return d :: (← itemsOf within fuel rest)

def membersOf (within : List Bytes) :
    Nat → List (Bytes × Document) → List (Node × Node) →
    Reading (List (Bytes × Document))
  | 0, _, _ => failure
  | _ + 1, before, [] => return before
  | fuel + 1, before, (key, value) :: rest => do
    if key.isMerge then
      let merged ←
        membersOf within fuel before (← mergedMembers fuel true value)
      membersOf within fuel merged rest
    else
      let name := nameOf (← documentOf within fuel key)
      let d ← documentOf within fuel value
      membersOf within fuel (setMember name d before) rest

end

/-- The documents of nodes, one after the other; those that have no value at all
are left out. -/
def documentsOf (fuel : Nat) : List Node → Reading (List Document)
  | [] => return []
  | node :: rest => do
    let d ← documentOf [] fuel node
    let ds ← documentsOf fuel rest
    match d with
    | .null => return if node.isNull then d :: ds else ds
    | d => return d :: ds

end Schemata.Yaml
