import Schemata.Log.Argument
import Schemata.Log.Directive
import Schemata.Log.Indented

/-!
# Log messages

A log message is made from a format and arguments.  Each directive of the format
stands for an argument, as a rule for the one after the last.  Associations with
text keys and lists of anything are written as indented JSON, which counts as a
text; so does a value that is shown in a way of its own.  What is wrong with a
format or its arguments is said in the message itself.
-/

namespace Schemata

namespace Log

open Text

def argument (v : Value) : Value :=
  let written : Value := match json? 0 v with
    | some text => .text text
    | none => .text v.shown
  match v with
  | .map .text .dynamic _ => written
  | .slice .dynamic _ => written
  | .unmade (.map .text .dynamic) => written
  | .unmade (.slice .dynamic) => written
  | .labelled type shown content =>
    if type == "json.Number" then written
    else if hasOwnText shown content then .text shown
    else v
  | _ => v

/-- Where a message has come to: the number of the argument that comes next,
whether arguments were picked by number, and whether all numbers of the
directive at hand were good. -/
structure Cursor where
  next : Nat := 0
  reordered : Bool := false
  good : Bool := true

namespace Cursor

def pick (count : Nat) (cursor : Cursor) : Pick → Cursor
  | .following => cursor
  | .malformed => { cursor with reordered := true, good := false }
  | .numbered n =>
    if 1 ≤ n && n ≤ count then { cursor with next := n - 1, reordered := true }
    else { cursor with reordered := true, good := false }

end Cursor

/-- The integer that an argument is, unless it is too large for a width. -/
def sizeOf? (v : Value) : Option Int :=
  match v.core with
  | .integer _ n => if n.natAbs ≤ Piece.numberLimit then some n else none
  | _ => none

def isPointer : Value → Bool
  | .pointer _ _ => true
  | _ => false

def taken (args : List Value) (cursor : Cursor) : Option Int × Cursor :=
  match args[cursor.next]? with
  | some v =>
    (if isPointer v then none else sizeOf? v,
     { cursor with next := cursor.next + 1 })
  | none => (none, cursor)

def applyWidth (args : List Value) (d : Directive) (cursor : Cursor) :
    Style × Bytes × Cursor :=
  let cursor := cursor.pick args.length d.widthPick
  match d.width with
  | .unset => (d.flags, [], cursor)
  | .fixed n =>
    let cursor :=
      if Piece.isNumbered d.widthPick then { cursor with good := false }
      else cursor
    ({ d.flags with width := some n }, [], cursor)
  | .taken =>
    match taken args cursor with
    | (some n, cursor) =>
      if n < 0 then
        ({ d.flags with
            width := some n.natAbs, leftAligned := true,
            zeroFilled := false }, [], cursor)
      else ({ d.flags with width := some n.toNat }, [], cursor)
    | (none, cursor) => (d.flags, "%!(BADWIDTH)", cursor)

def applyPrecision
    (args : List Value) (d : Directive) (style : Style) (cursor : Cursor) :
    Style × Bytes × Cursor :=
  match d.precision with
  | none => (style, [], cursor)
  | some (pick, size) =>
    let afterNumber := Piece.isNumbered d.widthPick && match d.width with
      | .taken => false
      | _ => true
    let cursor := if afterNumber then { cursor with good := false } else cursor
    let cursor := cursor.pick args.length pick
    match size with
    | .unset => ({ style with precision := some 0 }, [], cursor)
    | .fixed n => ({ style with precision := some n }, [], cursor)
    | .taken =>
      match taken args cursor with
      | (some n, cursor) =>
        if n < 0 then (style, "%!(BADPREC)", cursor)
        else ({ style with precision := some n.toNat }, [], cursor)
      | (none, cursor) => (style, "%!(BADPREC)", cursor)

def directed (args : List Value) (d : Directive) (cursor : Cursor) :
    Bytes × Cursor :=
  let (style, badWidth, cursor) :=
    applyWidth args d { cursor with good := true }
  let (style, badPrecision, cursor) := applyPrecision args d style cursor
  let cursor := cursor.pick args.length d.letterPick
  let complaints := badWidth ++ badPrecision
  match d.letter with
  | none => (complaints ++ "%!(NOVERB)", cursor)
  | some symbol =>
    let letter := encode symbol.point
    if letter == "%" then (complaints ++ "%", cursor)
    else if !cursor.good then
      (complaints ++ "%!" ++ letter ++ "(BADINDEX)", cursor)
    else
      match args[cursor.next]? with
      | none => (complaints ++ "%!" ++ letter ++ "(MISSING)", cursor)
      | some v =>
        (complaints ++ formatted style letter v,
         { cursor with next := cursor.next + 1 })

/-- What is written of arguments that no letter stands for. -/
def surplus : List Value → Bytes
  | [] => []
  | args =>
    let one (v : Value) : Bytes := match v with
      | .absent => "<nil>"
      | v => v.typeName ++ "=" ++ plain {} true none v
    "%!(EXTRA " ++ Bytes.join ", " (args.map one) ++ ")"

def fill (args : List Value) : Cursor → List Piece → Bytes
  | cursor, [] =>
    if cursor.reordered then [] else surplus (args.drop cursor.next)
  | cursor, .text text :: rest => text ++ fill args cursor rest
  | cursor, .directive d :: rest =>
    let (text, cursor) := directed args d cursor
    text ++ fill args cursor rest

def message (format : Bytes) (args : List Value) : Bytes :=
  fill (args.map argument) {} (Piece.ofFormat format)

end Log

end Schemata
