import Schemata.Text.Edit
import Schemata.Text.Quoted

/-!
# Tokens of rules

A rule is written with names, numbers, strings in single or double quotes or
between backquotes, and operators.  Some operators are words.  Two slashes start
a comment up to the end of the line, and a slash and a star one up to a star and
a slash.
-/

namespace Schemata.Rule

open Text

/-- A token of a rule; numbers keep their spelling. -/
inductive Token
  | name (n : Bytes)
  | integer (n : Nat) (spelling : Bytes)
  | fraction (x : Float) (spelling : Bytes)
  | text (s : Bytes)
  | symbol (s : Bytes)

def wordOperators : List Bytes :=
  ["in", "or", "and", "not", "matches", "contains", "startsWith", "endsWith",
   "let", "if", "else"]

def doubleSymbols : List Bytes :=
  ["&&", "||", "==", "!=", "<=", ">=", "**", "..", "??", "?.", "::"]

def singleSymbols : List Bytes :=
  ["+", "-", "*", "/", "%", "<", ">", "!", "?", ":", ",", ".", "#", "(", ")",
    "[", "]", "\x7b", "\x7d", "|", "^", ";", "="]

/-- Operators and brackets, the longer ones first. -/
def symbolOperators : List Bytes := doubleSymbols ++ singleSymbols

def isDigit (point : Nat) : Bool := 0x30 ≤ point && point ≤ 0x39

def startsName (point : Nat) : Bool :=
  (0x61 ≤ point && point ≤ 0x7A) || (0x41 ≤ point && point ≤ 0x5A) ||
    point = 0x5F || point = 0x24 ||
    (0x80 ≤ point && point ≠ 0xFFFD && !isBlankPoint point)

def continuesName (point : Nat) : Bool := startsName point || isDigit point

def spelled (text : List Symbol) : Bytes := text.flatMap Symbol.spelling

/-- The symbols up to a closing quote of the form `mark`; what follows a
backslash closes nothing. -/
def upToQuote (mark : Nat) : List Symbol → Option (List Symbol)
  | [] => none
  | s :: rest =>
    if s.point = mark then some []
    else if s.point = 0x0A then none
    else if s.point = 0x5C then
      match rest with
      | [] => none
      | t :: more => (upToQuote mark more).map fun inner => s :: t :: inner
    else (upToQuote mark rest).map (s :: ·)

def escaped? (mark : Nat) (rest : List Symbol) : Option (Bytes × Nat) :=
  let coded (digits : Nat) (skip : Nat) (n : Nat) : Option (Bytes × Nat) :=
    if n ≤ 0x10FFFF then some (encode n, digits + skip) else none
  match rest with
  | [] => none
  | s :: more =>
    let c := s.point
    if c = 0x5C || c = mark then some (s.spelling, 1)
    else if c = 0x78 then (fixedDigits? hexDigit? 16 2 more).bind (coded 2 1)
    else if c = 0x75 then (fixedDigits? hexDigit? 16 4 more).bind (coded 4 1)
    else if c = 0x55 then (fixedDigits? hexDigit? 16 8 more).bind (coded 8 1)
    else if 0x30 ≤ c && c ≤ 0x33 then
      (fixedDigits? octalDigit? 8 3 rest).bind (coded 3 0)
    else (shortEscaped? c).map fun b => ([b], 1)

/-- The text meant by symbols between quotes, where `skip` of them belong to the
escape before. -/
def unescape (mark : Nat) : Nat → List Symbol → Option Bytes
  | _, [] => some []
  | skip + 1, _ :: rest => unescape mark skip rest
  | 0, s :: rest =>
    if s.point = 0x5C then
      match escaped? mark rest with
      | some (text, skip) => (unescape mark skip rest).map (text ++ ·)
      | none => none
    else (unescape mark 0 rest).map (encode s.point ++ ·)

/-- The text between backquotes, where two of them stand for one, and how many
symbols it has with the closing one. -/
def readRaw : List Symbol → Option (Bytes × Nat)
  | [] => none
  | [s] => if s.point = 0x60 then some ([], 1) else none
  | s :: t :: rest =>
    if s.point = 0x60 then
      if t.point = 0x60 then
        (readRaw rest).map fun (text, n) => (0x60 :: text, n + 2)
      else some ([], 1)
    else (readRaw (t :: rest)).map fun (text, n) => (s.spelling ++ text, n + 1)

/-- The digits at the front of a text, where underscores may stand between
them. -/
def digitRun (text : Bytes) : Bytes :=
  text.takeWhile fun b => isDigit b.toNat || b = 0x5F

def digitsValue (digits : Bytes) : Nat :=
  digits.foldl (fun n b => match digit? b with
    | some d => n * 10 + d
    | none => n) 0

def readExponent (text : Bytes) : Option (Int × Nat) :=
  match text with
  | b :: rest =>
    if b = 0x65 || b = 0x45 then
      let (negative, signLength) := match rest with
        | 0x2D :: _ => (true, 1)
        | 0x2B :: _ => (false, 1)
        | _ => (false, 0)
      let digits := digitRun (rest.drop signLength)
      let n : Int := digitsValue digits
      if digits.isEmpty then none
      else some (if negative then -n else n, digits.length + signLength + 1)
    else none
  | [] => none

def fractionValue (digits : Nat) (exponent : Int) : Float :=
  Float.ofScientific digits (exponent < 0) exponent.natAbs

def basedDigits? : Bytes → Option (Bytes × Nat)
  | 0x30 :: b :: rest =>
    let base :=
      if b = 0x78 || b = 0x58 then 16
      else if b = 0x6F || b = 0x4F then 8
      else if b = 0x62 || b = 0x42 then 2
      else 0
    if base = 0 then none
    else
      let isDigit (b : UInt8) : Bool :=
        b == 0x5F || (hexDigit? b).any fun d => d < base
      some (rest.takeWhile isDigit, base)
  | _ => none

def readBased (text digits : Bytes) (base : Nat) : Option (Token × Nat) :=
  let value :=
    digits.foldl (fun n b => (hexDigit? b).elim n fun d => n * base + d) 0
  let total := digits.length + 2
  if digits.isEmpty || signedLimit ≤ value then none
  else some (.integer value (text.take total), total)

/-- A number at the front of a text and its length: digits, perhaps a point and
more digits, perhaps an exponent.  Two points are an operator and belong to no
number.  Integers have at most 63 bits, and numbers with decimal places are
finite. -/
def readDecimal (text : Bytes) : Option (Token × Nat) :=
  let whole := digitRun text
  let rest := text.drop whole.length
  let part := match rest with
    | 0x2E :: more =>
      if more.head? = some 0x2E then none else some (digitRun more)
    | _ => none
  let length := whole.length + part.elim 0 fun p => p.length + 1
  let exponent := readExponent (text.drop length)
  let total := length + exponent.elim 0 Prod.snd
  let spelling := text.take total
  match part, exponent with
  | none, none =>
    let value := digitsValue whole
    if value < signedLimit then some (.integer value spelling, total) else none
  | _, _ =>
    let places : Nat := (part.getD []).countP fun b => isDigit b.toNat
    let digits := digitsValue (whole ++ part.getD [])
    let value := fractionValue digits (exponent.elim 0 Prod.fst - places)
    if value.isInf then none else some (.fraction value spelling, total)

/-- A number at the front of a text and its length.  No name may follow
directly. -/
def readNumber (text : List Symbol) : Option (Token × Nat) :=
  let front : Bytes :=
    (text.takeWhile fun s => s.point < 0x80).map fun s => s.point.toUInt8
  let number := match basedDigits? front with
    | some (digits, base) => readBased front digits base
    | none => readDecimal front
  number.filter fun (_, length) =>
    !((text.drop length).head?.any fun s => continuesName s.point)

def readToken (s : Symbol) (rest : List Symbol) : Option (Token × Nat) :=
  let c := s.point
  if c = 0x22 || c = 0x27 then
    (upToQuote c rest).bind fun inner =>
      (unescape c 0 inner).map fun text => (.text text, inner.length + 2)
  else if c = 0x60 then (readRaw rest).map fun (text, n) => (.text text, n + 1)
  else if isDigit c ||
      (c = 0x2E && (rest.head?.any fun t => isDigit t.point)) then
    readNumber (s :: rest)
  else if startsName c then
    let run := (s :: rest).takeWhile fun t => continuesName t.point
    let name := spelled run
    some (if wordOperators.contains name then .symbol name else .name name,
          run.length)
  else
    let front := spelled ((s :: rest).take 2)
    (symbolOperators.find? fun o => o.isPrefixOf front).map fun o =>
      (.symbol o, o.length)

/-- How many symbols there are up to and with the first star followed by a
slash. -/
def commentEnd? : List Symbol → Option Nat
  | [] => none
  | s :: rest =>
    if s.point = 0x2A && (rest.head?.any fun t => t.point = 0x2F) then some 2
    else (commentEnd? rest).map fun n => n + 1

/-- The length of a comment that starts with `s`, after that symbol: `none` if
there is none, and a comment without an end has no length. -/
def comment? (s : Symbol) (rest : List Symbol) : Option (Option Nat) :=
  if s.point ≠ 0x2F then none
  else
    match rest with
    | .code 0x2F _ :: more =>
      some (some ((more.takeWhile fun t => t.point ≠ 0x0A).length + 1))
    | .code 0x2A _ :: more => some ((commentEnd? more).map fun n => n + 1)
    | _ => none

/-- The tokens of a text, where `skip` symbols at its front belong to the token
before. -/
def tokensFrom : Nat → List Symbol → Option (List Token)
  | _, [] => some []
  | skip + 1, _ :: rest => tokensFrom skip rest
  | 0, s :: rest =>
    if isBlankPoint s.point then tokensFrom 0 rest
    else
      match comment? s rest, readToken s rest with
      | some none, _ => none
      | some (some length), _ => tokensFrom length rest
      | none, none => none
      | none, some (token, length) =>
        (tokensFrom (length - 1) rest).map (token :: ·)

def tokens (text : Bytes) : Option (List Token) := tokensFrom 0 (symbols text)

end Schemata.Rule
