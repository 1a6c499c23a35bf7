import Schemata.Yaml.Quoted

/-!
# The tokens of a text

Most characters mean something only where no scalar is being read; within a
scalar they are part of it.  Some need white space after them, some count only
at the start of a line.
-/

namespace Schemata.Yaml

namespace Scanner

def documentMark? (s : Scanner) (c : Char) (form : Form) : Option Scanner :=
  if s.indentation = 0 && s.column = 1 &&
      (s.rest.takeWhile (· = c)).length = 3 then
    some (s.flush.mark form 3)
  else none

def isMergeName (s : Scanner) : Bool :=
  (s.rest.takeWhile (· = '<')).length = 2 &&
    match (s.rest.drop 2).dropWhile (· = ' ') with
    | ':' :: c :: _ => c = ' ' || isBreak c
    | _ => false

def mergeName (s : Scanner) : Scanner :=
  { s.push ⟨.merge, s.place, "<<", []⟩ with delimiter := s.column }.advance 2

def hasLeadingTab (s : Scanner) : Bool :=
  (dropFirstIf ' ' s.buffer.origin.toList).head? = some '\t'

/-- A dash: it separates documents, goes on with a scalar on a deeper line, or
starts an item. -/
def dash (s : Scanner) : Option Scanner :=
  match s.documentMark? '-' .documentStart with
  | some s => some { s with delimiter := 0, indentation := 0 }
  | none =>
    if s.hasText then
      if s.depth = .deeper then
        some ({ s with block := some (.continuing s.column) }.add '-')
      else some (s.add '-')
    else if s.following ≠ '\x00' && !isBlank s.following &&
        !isBreak s.following then
      some (s.add '-')
    else if s.hasLeadingTab then none
    else some ({ s with delimiter := s.column }.mark .dash)

/-- A colon: it ends a name if white space follows or if the name is in
braces. -/
def colon (s : Scanner) : Option Scanner :=
  let isText :=
    if s.braces ≤ 0 then
      !isBlank s.following && !isBreak s.following && !s.isLast
    else s.following = '/' || (s.last?.map Token.form) = some .colon
  if s.inName || s.inDirective || isText then some (s.add ':')
  else if s.hasLeadingTab then none
  else
    let delimiter :=
      match s.text?, s.last? with
      | some t, _ => t.place.column
      | none, some t => if t.form = .quoted then t.place.column else s.delimiter
      | none, none => s.delimiter
    some ({ s.flush with delimiter := delimiter }.mark .colon)

/-- What follows the mark of a block on its line, and how many characters there
are up to the line break that ends it.  In a text without such a line break the
last character takes its place. -/
def headerLine (chars : List Char) : List Char × Nat :=
  let line := chars.takeWhile fun c => !isBreak c
  match chars.drop line.length with
  | '\r' :: '\n' :: _ => (line, line.length + 1)
  | _ :: _ => (line, line.length)
  | [] => (line.dropLast, line.length - 1)

def headerText (line : List Char) : List Char :=
  let comment := line.dropWhile (· ≠ '#')
  let shown :=
    if comment.length < line.length then line.takeWhile (· ≠ '#') else line
  dropEnd isBlank shown

def blockHeader (s : Scanner) (c : Char) : Option Scanner :=
  if s.hasText then some (s.add c)
  else
    let (line, length) := headerLine (s.rest.drop 1)
    (BlockHeader.read? (headerText line)).map fun header =>
      let delimiter := if s.column = 1 then 1 else s.delimiter
      let style := if c = '|' then .literal else .folded
      let s := (s.push ⟨.block, s.place, [], []⟩).advance (length + 1)
      { s.nextLine with
        delimiter := delimiter
        depth := .inside
        buffer := {}
        block := some (.start style header delimiter) }

/-- A tag.  A tag at the end of the text does not count. -/
def tag (s : Scanner) : Option Scanner :=
  if s.hasText || s.inDirective then some (s.add '!')
  else
    let name := (s.rest.drop 1).takeWhile fun c =>
      c ≠ ' ' && !isBreak c && c ≠ '\x7b' && c ≠ '\x7d' &&
        !(c = ',' && s.inFlow)
    let length := name.length + 1
    let token : Token := ⟨.tag, s.place, textOf ('!' :: name), []⟩
    match s.rest.drop length with
    | [] => some (s.advance length).clear
    | ' ' :: _ => some (((s.push token).pass 1).advance length).clear
    | c :: _ =>
      if c = '\x7b' || c = '\x7d' then none
      else some (((s.push token).pass 1).advance name.length).clear

def comment (s : Scanner) : Scanner :=
  if s.hasText && !isBlank s.before && !isBreak s.before then s.add '#'
  else
    let s := s.flush
    let line := s.rest.takeWhile fun c => !isBreak c
    ((s.push ⟨.comment, s.place, [], []⟩).pass line.length).nextLine.clear

def lineBreak (s : Scanner) (c : Char) : Scanner :=
  let started :=
    if s.buffer.chars.isEmpty || s.started.isSome then s.started
    else some ⟨s.line, s.column - s.content.length⟩
  let s := { s with started := started, buffer := s.buffer.trimEnd }
  let s := if c = '\r' && s.following = '\n' then (s.note '\r').pass 1 else s
  let s := if s.isLast || s.inName || s.inDirective then s.flush else s
  { s with
      buffer := (s.buffer.addBreak s.atStart).note (s.rest.headD c) }.nextLine

/-- A space outside of blocks: it is indentation, or it ends a name or a word of
a directive. -/
def space (s : Scanner) : Scanner :=
  if s.atStart then (s.note ' ').advance 1
  else if s.inDirective then (s.flush.note ' ').advance 1
  else if s.inName then { s.flush with inName := false }
  else s.add ' '

/-- A tab outside of blocks: it does not count after a name or dash and is no
indentation. -/
def tab (s : Scanner) : Option Scanner :=
  if (s.hasText && s.delimiter = 0) || s.delimiter < s.column then
    some ({ s.note '\t' with indentation := s.indentation + 1 }.pass 1)
  else if s.inFlow || !s.atStart then some (s.add '\t')
  else none

def inBlock (s : Scanner) (b : Block) (c : Char) : Option Scanner :=
  let s := s.note c
  let joined := c = '\r' && s.following = '\n'
  let s := if joined then s.pass 1 else s
  let c := if joined then '\n' else c
  let added := { s with buffer := s.buffer.add c }
  let indented :=
    if b.first = 0 || s.column < b.first then s
    else
      { s with
          buffer := s.buffer.addSpace,
          block := some { b with broken := false } }
  if s.isLast then
    let s := if s.atStart && c = ' ' then indented else added
    let b := b.reach s.column
    if b.isShort then none
    else
      let s := { s with block := some b }
      let text : Token :=
        ⟨.string, s.place, textOf s.content, s.buffer.origin.toList⟩
      some ((s.push text).clear.advance 1)
  else if isBreak c then
    let s := { added with block := some (b.nextLine s.column) }.nextLine
    if isDocumentMark s.rest then
      some (s.push
        ⟨.string, s.place, textOf s.content, s.buffer.origin.toList⟩).clear
    else some s
  else if s.atStart && c = ' ' then some (indented.advance 1)
  else if s.atStart && c = '\t' && b.isMargin s.column then none
  else if c = '\t' && !b.isMargin s.column then
    some ({ s with buffer := s.buffer.addText c }.advance 1)
  else if b.first = 0 && s.column < b.blank then none
  else
    let b := b.reach s.column
    if b.isShort then none
    else
      some ({ s with
        delimiter := if 1 < b.first then b.first - 1 else s.delimiter
        block := some { b with broken := false }
        buffer := (s.buffer.fold b s.column).addText c }.advance 1)

def outside (s : Scanner) (c : Char) : Option Scanner :=
  match c with
  | '\x7b' =>
    if s.hasText then some (s.add c)
    else some { s.mark .openBrace with braces := s.braces + 1 }
  | '\x7d' =>
    if s.hasText && s.braces ≤ 0 then some (s.add c)
    else some { s.flush.mark .closeBrace with braces := s.braces - 1 }
  | '[' =>
    if s.hasText then some (s.add c)
    else some { s.mark .openBracket with brackets := s.brackets + 1 }
  | ']' =>
    if s.hasText && s.brackets ≤ 0 then some (s.add c)
    else some { s.flush.mark .closeBracket with brackets := s.brackets - 1 }
  | ',' => some (if s.inFlow then s.flush.mark .comma else s.add c)
  | '.' => some ((s.documentMark? '.' .documentEnd).getD (s.add c))
  | '<' => some (if s.isMergeName then s.mergeName else s.add c)
  | '-' => s.dash
  | ':' => s.colon
  | '|' => s.blockHeader c
  | '>' => s.blockHeader c
  | '!' => s.tag
  | '%' =>
    if s.hasText || s.indentation ≠ 0 then some (s.add c)
    else some { s.mark .directive with inDirective := true }
  | '?' =>
    if s.hasText || !isBlank s.following then some (s.add c)
    else some ({ s with delimiter := s.column }.mark .question)
  | '&' =>
    if s.hasText then some (s.add c)
    else some { s.mark .anchor with inName := true }
  | '*' =>
    if s.hasText then some (s.add c)
    else some { s.mark .alias with inName := true }
  | '#' => some s.comment
  | '\'' => s.quoted? c
  | '"' => s.quoted? c
  | '\n' => some (s.lineBreak c)
  | '\r' => some (s.lineBreak c)
  | ' ' => some s.space
  | '@' => if s.hasText then some (s.add c) else none
  | '\x60' => if s.hasText then some (s.add c) else none
  | '\t' => s.tab
  | _ => some (s.add c)

/-- Ends a block at a line that is not deeper.  A block without text is an empty
string. -/
def endBlock (s : Scanner) : Option Scanner :=
  match s.last? with
  | none => some { s with block := none }
  | some t =>
    if t.place.column = 1 then none
    else if t.isString then some { s with block := none }
    else some { s.push ⟨.string, s.place, [], []⟩ with block := none }

def step (s : Scanner) (c : Char) : Option Scanner :=
  let s := s.arrive c
  if s.depth = .notDeeper then
    let s := s.flush
    if s.block.isSome then s.endBlock.bind fun s => s.outside c else s.outside c
  else
    match s.block with
    | some b => s.inBlock b c
    | none => s.outside c

def run : Nat → Scanner → Option Scanner
  | 0, _ => none
  | fuel + 1, s =>
    match s.rest with
    | [] => some s.flush
    | c :: _ => (s.step c).bind (run fuel)

end Scanner

/-- The tokens of a text without its comments.  No character takes more than two
steps. -/
def tokens? (text : Bytes) : Option (List Token) :=
  let chars := charactersOf text
  (Scanner.run (2 * chars.length + 1) { rest := chars }).map fun s =>
    s.tokens.reverse.filter fun t => t.form ≠ .comment

end Schemata.Yaml
