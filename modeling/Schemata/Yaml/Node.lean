import Schemata.Yaml.Phrase

/-!
# Nodes

A document is a tree of nodes: scalars, objects and lists, with anchors, aliases
and tags.  In block form the members of an object and the items of a list are
phrases of the same column, and what is nested in them is deeper; but a list may
stand right under the name it belongs to.
-/

namespace Schemata.Yaml

inductive Node
  | absent
  | scalar (t : Token)
  | object (members : List (Node × Node))
  | list (items : List Node)
  | anchor (place : Place) (name : Bytes) (value : Node)
  | alias (name : Bytes)
  | tagged (place : Place) (tag : Bytes) (value : Node)
  | directive
  deriving Inhabited

namespace Node

def isAnchor : Node → Bool
  | .anchor _ _ _ => true
  | _ => false

def isNull : Node → Bool
  | .absent => true
  | .scalar t => match t.form, t.value with
    | .plain, .null => true
    | _, _ => false
  | _ => false

/-- Whether a node is the name under which objects are merged. -/
def isMerge : Node → Bool
  | .scalar t => t.form = .merge
  | .anchor _ _ value => value.isMerge
  | .tagged _ _ value => value.isMerge
  | _ => false

def nameText : Node → Bytes
  | .scalar t => t.text
  | .anchor _ _ value => value.nameText
  | .tagged _ _ value => value.nameText
  | .alias name => name
  | _ => []

/-- Whether a node is a tag on a later line than its anchor, no deeper than a
column. -/
def isMisplaced (column : Nat) : Node → Bool
  | .anchor mark _ (.tagged tag _ _) =>
    mark.line ≠ tag.line && tag.column ≤ column
  | _ => false

end Node

/-- What a scalar tag without a scalar stands for. -/
def defaultScalar (tag : Token) : Node :=
  let text : Bytes :=
    if tag.text = ("!!int" : Bytes) || tag.text = ("!!float" : Bytes) then "0"
    else if tag.text = ("!!bool" : Bytes) then "false"
    else if tag.text = ("!!null" : Bytes) then "null"
    else ""
  .scalar ⟨if text.isEmpty then .string else .plain, tag.place, text, []⟩

def Phrase.scalar? : Phrase → Option Node
  | .token t =>
    if t.isScalar || t.form = .merge then some (.scalar t)
    else if t.form = .tag && scalarTags.contains t.text then
      some (.tagged t.place t.text (defaultScalar t))
    else none
  | .block header none => some (.scalar ⟨.string, header.place, [], []⟩)
  | .block _ (some content) =>
    if content.isString || content.form = .quoted then some (.scalar content)
    else none
  | .anchored mark name value =>
    match value.scalar? with
    | some node =>
      if name.isScalar && !node.isAnchor then
        some (.anchor mark.place name.text node)
      else none
    | none => none
  | .alias _ name => if name.isScalar then some (.alias name.text) else none
  | .tagged tag value => value.scalar?.map (.tagged tag.place tag.text ·)
  | _ => none

/-- The number of line breaks, where a pair of two different ones counts
once. -/
def countBreaks : List Char → Nat
  | [] => 0
  | '\r' :: '\n' :: rest => countBreaks rest + 1
  | c :: rest => countBreaks rest + if isBreak c then 1 else 0

/-- Whether a token may be the name of a member.  A name in block form is on one
line; in braces the colon at line `colon` has to follow on the line where the
name ends. -/
def isName (flow : Bool) (colon : Nat) (t : Token) : Bool :=
  let isEdge := fun c => c = ' ' || isBreak c
  let text := t.origin.dropWhile isEdge
  if flow then
    t.place.line +
      countBreaks (if t.isString then dropEnd isEdge text else text) = colon
  else !(t.isString || t.form = .quoted) || countBreaks text = 0

/-- The name of a member, unless one of the names `seen` is the same. -/
def readName (flow : Bool) (seen : List Bytes) (p : Phrase) : Option Node := do
  let (name, colon) ← match p with
    | .asked _ name => some (name, name.line)
    | .named (.asked _ name) colon => some (name, colon.place.line)
    | .named name colon => some (name, colon.place.line)
    | _ => none
  let node ← name.scalar?
  guard (!seen.contains node.nameText && isName flow colon p.first)
  return node

/-- Whether what follows the value of a member on the same line, or deeper, may
stand there. -/
def mayFollow (flow : Bool) (column : Nat) : List Phrase → Bool
  | [] => true
  | p :: _ =>
    p.column ≤ column || (flow && (p.isToken .comma || p.isToken .closeBracket))

def isMemberOrBrace (p : Phrase) : Bool :=
  p.isMember || p.isToken .openBrace || p.isToken .closeBrace

/-- Whether nothing is written for the value of a member at a column, or of an
item if `item` says so, when `p` comes next. -/
def isMissing (item : Bool) (column : Nat) (p : Phrase) : Bool :=
  p.column < column ||
    (p.column = column && if item then p.isToken .dash else isMemberOrBrace p)

def isDirective (name : Token) (words : List Phrase) : Bool :=
  if !name.isScalar then false
  else if words.isEmpty then true
  else if name.text = ("YAML" : Bytes) then
    match words with
    | [version] =>
      (["1.0", "1.1", "1.2", "1.3"] : List Bytes).contains version.first.text
    | _ => false
  else if name.text = ("TAG" : Bytes) then words.length = 2
  else true

mutual

/-- Reads a node from phrases; `flow` says whether it is within braces or
brackets. -/
def readNode (flow : Bool) : Nat → List Phrase → Option (Node × List Phrase)
  | 0, _ => none
  | _, [] => none
  | fuel + 1, p :: rest =>
    match p with
    | .asked _ _ | .named _ _ | .pair _ _ =>
      (readMembers flow fuel [] (p :: rest)).map fun (members, rest) =>
        (.object members, rest)
    | .directive _ name words =>
      if isDirective name words then some (.directive, rest) else none
    | .anchor mark name =>
      match readNode flow fuel rest with
      | some (value, rest) =>
        if name.isScalar && !value.isAnchor then
          some (.anchor mark.place name.text value, rest)
        else none
      | none => none
    | .token t =>
      match t.form with
      | .tag =>
        (readTagged flow fuel t rest).map fun (value, rest) =>
          (.tagged t.place t.text value, rest)
      | .openBrace =>
        (readBraces fuel true [] rest).map fun (members, rest) =>
          (.object members, rest)
      | .openBracket =>
        (readBrackets fuel true rest).map fun (items, rest) =>
          (.list items, rest)
      | .dash =>
        (readItems flow fuel t.place (p :: rest)).map fun (items, rest) =>
          (.list items, rest)
      | _ => p.scalar?.map fun node => (node, rest)
    | _ => p.scalar?.map fun node => (node, rest)

def readTagged (flow : Bool) :
    Nat → Token → List Phrase → Option (Node × List Phrase)
  | 0, _, _ => none
  | _, _, [] => some (.absent, [])
  | fuel + 1, tag, p :: rest =>
    if tag.text = ("!!map" : Bytes) || tag.text = ("!!set" : Bytes) then
      if isMemberOrBrace p then readNode flow fuel (p :: rest) else none
    else if scalarTags.contains tag.text then
      if p.isToken .comma then some (defaultScalar tag, p :: rest)
      else p.scalar?.map fun node => (node, rest)
    else if tag.text = ("!!seq" : Bytes) || tag.text = ("!!omap" : Bytes) then
      if p.isToken .openBracket || p.isToken .dash then
        readNode flow fuel (p :: rest)
      else some (.list [], p :: rest)
    else readNode flow fuel (p :: rest)

def readMembers (flow : Bool) :
    Nat → List Bytes → List Phrase → Option (List (Node × Node) × List Phrase)
  | 0, _, _ => none
  | _, _, [] => none
  | fuel + 1, seen, p :: rest => do
    let (member, rest) ← readMember flow fuel seen p rest
    match rest with
    | [] => return ([member], [])
    | next :: more =>
      if next.column ≠ p.column || (flow && next.isToken .closeBracket) then
        return ([member], next :: more)
      else if next.isToken .closeBrace then return ([member], more)
      else
        let (members, rest) ←
          readMembers flow fuel (member.1.nameText :: seen) (next :: more)
        return (member :: members, rest)

def readMember (flow : Bool) :
    Nat → List Bytes → Phrase → List Phrase →
    Option ((Node × Node) × List Phrase)
  | 0, _, _, _ => none
  | fuel + 1, seen, p, rest =>
    match p with
    | .pair name value => do
      let key ← readName flow seen name
      let node ← value.scalar?
      guard (mayFollow flow p.column rest)
      return ((key, node), rest)
    | _ => do
      let key ← readName flow seen p
      guard
        (!(rest.head?.map fun v =>
          v.line = p.line && (v.isToken .dash || v.isMember)).getD false)
      let (node, rest) ← readValue flow fuel false p.first.place rest
      return ((key, node), rest)

/-- Reads the value of a member, or of an item if `item` says so, that starts at
a place. -/
def readValue (flow : Bool) :
    Nat → Bool → Place → List Phrase → Option (Node × List Phrase)
  | 0, _, _, _ => none
  | _, _, _, [] => some (.absent, [])
  | fuel + 1, item, place, p :: rest =>
    if p.column = place.column && isMissing item place.column p then
      some (.absent, p :: rest)
    else
      match p, rest with
      | .anchor mark name, next :: more =>
        if p.line = place.line && isMissing item place.column next then
          if name.isScalar then
            some (.anchor mark.place name.text .absent, next :: more)
          else none
        else if p.column ≤ place.column then none
        else
          (readNode flow fuel (p :: rest)).filter fun (node, _) =>
            !node.isMisplaced place.column
      | _, _ =>
        if p.column ≤ place.column && (p.form = .tag || p.isAnchor) then none
        else if p.column < place.column then some (.absent, p :: rest)
        else readNode flow fuel (p :: rest)

def readItems (flow : Bool) :
    Nat → Place → List Phrase → Option (List Node × List Phrase)
  | 0, _, _ => none
  | _, _, [] => some ([], [])
  | fuel + 1, place, p :: rest =>
    if p.isToken .dash && p.column = place.column then do
      let (node, rest) ← readValue flow fuel true place rest
      let (nodes, rest) ← readItems flow fuel place rest
      return (node :: nodes, rest)
    else some ([], p :: rest)

/-- Reads the members of an object in braces and the closing brace.  A name
without a colon has no value and may occur again. -/
def readBraces :
    Nat → Bool → List Bytes → List Phrase →
    Option (List (Node × Node) × List Phrase)
  | 0, _, _, _ => none
  | _, _, _, [] => none
  | fuel + 1, isFirst, seen, p :: rest => do
    if p.isToken .closeBrace then return ([], rest)
    guard (isFirst || p.isToken .comma)
    match if p.isToken .comma then rest else p :: rest with
    | [] => none
    | p :: rest =>
      if p.isToken .closeBrace then return ([], rest)
      let ends :=
        (rest.head?.map fun d => d.isToken .closeBrace || d.isToken .comma).getD
          false
      match p with
      | .pair name value =>
        let key ← readName true seen name
        let node ← value.scalar?
        let (members, rest) ← readBraces fuel false (key.nameText :: seen) rest
        return ((key, node) :: members, rest)
      | .asked _ _ | .named _ _ =>
        let key ← readName true seen p
        let (node, rest) ←
          if ends then some (.absent, rest) else readNode true fuel rest
        let (members, rest) ← readBraces fuel false (key.nameText :: seen) rest
        return ((key, node) :: members, rest)
      | _ =>
        guard ends
        let key ← p.scalar?
        let (members, rest) ← readBraces fuel false seen rest
        return ((key, .absent) :: members, rest)

def readBrackets : Nat → Bool → List Phrase → Option (List Node × List Phrase)
  | 0, _, _ => none
  | _, _, [] => none
  | fuel + 1, isFirst, p :: rest => do
    if p.isToken .closeBracket then return ([], rest)
    guard (isFirst != p.isToken .comma)
    match if p.isToken .comma then rest else p :: rest with
    | [] => none
    | p :: rest =>
      if p.isToken .closeBracket then return ([], rest)
      let (node, rest) ← readNode true fuel (p :: rest)
      let (nodes, rest) ← readBrackets fuel false rest
      return (node :: nodes, rest)

end

def readDocument (ps : List Phrase) : Option (Option Node) :=
  let body := match ps with
    | p :: rest => if p.isToken .documentStart then rest else p :: rest
    | [] => []
  let body := match body.getLast? with
    | some p => if p.isToken .documentEnd then body.dropLast else body
    | none => body
  if body.isEmpty then some none
  else
    match readNode false (4 * body.length + 4) body with
    | some (node, []) => some (some node)
    | _ => none

def mayStart (mark : Phrase) (next : Phrase) : Bool :=
  mark.line ≠ next.line || !(next.isMember || next.isToken .dash)

/-- Cuts phrases into documents.  A document that is only its start ends
everything if another start follows it, and no scalar stands after the end of a
document. -/
def splitDocuments : List Phrase → Option (List (List Phrase))
  | [] => some [[]]
  | p :: rest =>
    if p.isToken .documentStart then
      match rest with
      | [] => some [[], [p]]
      | next :: _ =>
        if next.isToken .documentStart then some [[], [p]]
        else if !mayStart p next then none
        else
          match splitDocuments rest with
          | some (d :: ds) => some ([] :: (p :: d) :: ds)
          | _ => none
    else if p.isToken .documentEnd then
      match rest with
      | [] => some [[p]]
      | next :: _ =>
        if next.isScalar then none else (splitDocuments rest).map ([p] :: ·)
    else
      match splitDocuments rest with
      | some (d :: ds) => some ((p :: d) :: ds)
      | _ => none

def nodes? (text : Bytes) : Option (List Node) := do
  let documents ← splitDocuments (← phrases? (← tokens? text))
  return (← documents.mapM readDocument).filterMap id

end Schemata.Yaml
