import Schemata.Yaml.Tokens

/-!
# Phrases

Tokens that belong together form phrases: an anchor with its name and its
scalar, a tag with its scalar, a name with its colon, and such a name with the
scalar that follows it on its line.
-/

namespace Schemata.Yaml

inductive Phrase
  | token (t : Token)
  | block (header : Token) (content : Option Token)
  /-- An anchor whose value follows. -/
  | anchor (mark name : Token)
  | anchored (mark name : Token) (value : Phrase)
  | alias (mark name : Token)
  | tagged (tag : Token) (value : Phrase)
  | asked (mark : Token) (name : Phrase)
  | named (name : Phrase) (colon : Token)
  | pair (name value : Phrase)
  | directive (mark name : Token) (words : List Phrase)

namespace Phrase

def first : Phrase → Token
  | .token t => t
  | .block header _ => header
  | .anchor mark _ => mark
  | .anchored mark _ _ => mark
  | .alias mark _ => mark
  | .tagged tag _ => tag
  | .asked mark _ => mark
  | .named name _ => name.first
  | .pair name _ => name.first
  | .directive mark _ _ => mark

def form (p : Phrase) : Form := p.first.form

def line (p : Phrase) : Nat := p.first.place.line

def column (p : Phrase) : Nat := p.first.place.column

def isToken (form : Form) : Phrase → Bool
  | .token t => t.form = form
  | _ => false

def isMember : Phrase → Bool
  | .asked _ _ | .named _ _ | .pair _ _ => true
  | _ => false

def isAnchor : Phrase → Bool
  | .anchor _ _ => true
  | _ => false

def isScalar (p : Phrase) : Bool :=
  !p.isMember &&
    (p.first.isScalar || p.form = .anchor || p.form = .alias || p.form = .block)

def markForms : List Form :=
  [.directive, .documentStart, .documentEnd, .comma, .openBrace, .closeBrace,
    .openBracket, .closeBracket, .dash, .colon]

def isNoName (p : Phrase) : Bool := markForms.contains p.form

end Phrase

def joinBlocks : List Token → List Phrase
  | [] => []
  | [t] => [if t.form = .block then .block t none else .token t]
  | t :: content :: rest =>
    if t.form = .block then .block t (some content) :: joinBlocks rest
    else .token t :: joinBlocks (content :: rest)

/-- Joins anchors and aliases with their names, and anchors with scalars on the
same line. -/
def joinAnchors : List Phrase → Option (List Phrase)
  | [] => some []
  | .token mark :: .token name :: rest =>
    if mark.form = .alias then (joinAnchors rest).map (.alias mark name :: ·)
    else if mark.form = .anchor then
      match rest with
      | [] => none
      | value :: more =>
        if mark.place.line ≠ value.line then
          (joinAnchors (value :: more)).map (.anchor mark name :: ·)
        else if value.isToken .dash then none
        else if value.isScalar then
          (joinAnchors more).map (.anchored mark name value :: ·)
        else (joinAnchors (value :: more)).map (.anchor mark name :: ·)
    else (joinAnchors (.token name :: rest)).map (.token mark :: ·)
  | p :: rest =>
    if p.isToken .alias || p.isToken .anchor then none
    else (joinAnchors rest).map (p :: ·)

def untaggedForms : List Form := [.openBrace, .closeBrace, .openBracket, .dash]

def takesValue (tag : Token) (value : Phrase) : Bool :=
  tag.place.line = value.line && !value.isAnchor &&
    if ("!!" : Bytes).isPrefixOf tag.text then
      scalarTags.contains tag.text && value.isScalar
    else !untaggedForms.contains value.form

/-- Joins tags with scalars on the same line, and then anchors with tagged
scalars. -/
def joinTags : List Phrase → List Phrase
  | [] => []
  | [p] => [p]
  | p :: value :: rest =>
    if p.isToken .tag && takesValue p.first value then
      .tagged p.first value :: joinTags rest
    else p :: joinTags (value :: rest)

def joinTagged : List Phrase → Option (List Phrase)
  | [] => some []
  | .anchor _ _ :: [] => none
  | .anchor mark name :: .tagged tag value :: rest =>
    if mark.place.line = tag.place.line then
      (joinTagged rest).map (.anchored mark name (.tagged tag value) :: ·)
    else
      (joinTagged rest).map fun ps =>
        .anchor mark name :: .tagged tag value :: ps
  | p :: rest => (joinTagged rest).map (p :: ·)

def joinQuestions : List Phrase → Option (List Phrase)
  | [] => some []
  | [p] => if p.isToken .question then none else some [p]
  | p :: name :: rest =>
    if p.isToken .question then
      (joinQuestions rest).map (.asked p.first name :: ·)
    else (joinQuestions (name :: rest)).map (p :: ·)

def joinNames : List Phrase → Option (List Phrase)
  | [] => some []
  | [p] => if p.isToken .colon then none else some [p]
  | p :: colon :: rest =>
    if p.isToken .colon then none
    else if colon.isToken .colon then
      if p.isNoName then none
      else (joinNames rest).map (.named p colon.first :: ·)
    else (joinNames (colon :: rest)).map (p :: ·)

def isPair (name value : Phrase) : Bool :=
  match value with
  | .tagged _ _ => name.line = value.line
  | _ => name.line = value.line && value.isScalar && !value.isAnchor

def joinPairs : List Phrase → List Phrase
  | [] => []
  | [p] => [p]
  | name :: value :: rest =>
    if name.isMember && isPair name value then
      .pair name value :: joinPairs rest
    else name :: joinPairs (value :: rest)

/-- Joins directives with what follows them on their line.  A document has to
start after a directive; `fuel` bounds the number of phrases. -/
def joinDirectives : Nat → List Phrase → Option (List Phrase)
  | 0, _ => none
  | _, [] => some []
  | fuel + 1, p :: rest =>
    if p.isToken .directive then
      match rest with
      | [] => none
      | name :: rest =>
        let words := rest.takeWhile fun w => w.line = p.line
        match rest.drop words.length with
        | next :: more =>
          if next.isToken .documentStart then
            (joinDirectives fuel (next :: more)).map
              (.directive p.first name.first words :: ·)
          else none
        | [] => none
    else (joinDirectives fuel rest).map (p :: ·)

def phrases? (tokens : List Token) : Option (List Phrase) := do
  let ps ← joinAnchors (joinBlocks tokens)
  let ps ← joinTagged (joinTags ps)
  let ps ← joinNames (← joinQuestions ps)
  joinDirectives (tokens.length + 1) (joinPairs ps)

end Schemata.Yaml
