import Schemata.Rule.Expr
import Schemata.Rule.Token

/-!
# The grammar of rules

Binary operators bind by level: disjunction, conjunction, comparison, range,
sum, product, power, from the loosest to the tightest.  A sign binds tighter
than a product and looser than a power; a negation binds tighter than a sum.
Comparisons chain, so that `1 < n < 4` means what it looks like.  A choice
`c ? a : b` is the loosest of all; in `c ?: b` the condition itself is chosen.
A value may be handed on to a function by a bar, as its first argument.
-/

namespace Schemata.Rule

def expect (s : Bytes) : List Token → Option (List Token)
  | .symbol t :: rest => if t == s then some rest else none
  | _ => none

/-- A name at the front, where operators that are words count as names too. -/
def memberName? : List Token → Option (Bytes × List Token)
  | .name n :: rest => some (n, rest)
  | .symbol s :: rest =>
    if wordOperators.contains s then some (s, rest) else none
  | _ => none

def Expr.unchained : Expr → Expr × Bool
  | .chain e => (e, true)
  | e => (e, false)

def Expr.chainedIf (isChain : Bool) (e : Expr) : Expr :=
  if isChain then .chain e else e

mutual

/-- Reads expressions separated by semicolons; the last one is the value. -/
def readSequence (inside : Bool) : Nat → List Token → Option (Expr × List Token)
  | 0, _ => none
  | fuel + 1, ts =>
    match readExpr inside fuel 0 ts with
    | none => none
    | some (first, rest) =>
      match expect ";" rest with
      | none => some (first, rest)
      | some [] => some (first, [])
      | some rest =>
        (readSequence inside fuel rest).map fun (second, rest) =>
          (.sequence first second, rest)

/-- Reads an expression whose operators bind at least as tightly as `level`.
Inside the condition of a list function, `inside` is true and `#` stands for the
element. -/
def readExpr (inside : Bool) :
    Nat → Nat → List Token → Option (Expr × List Token)
  | 0, _, _ => none
  | fuel + 1, level, ts =>
    let whole := level = 0
    match (expect "let" ts).filter fun _ => whole,
        (expect "if" ts).filter fun _ => whole with
    | some rest, _ => readDeclaration inside fuel rest
    | none, some rest => readAlternative inside fuel rest
    | none, none =>
      match readPrimary inside fuel ts with
      | none => none
      | some (left, rest) =>
        match readOperators inside fuel level false left rest with
        | none => none
        | some (e, rest) =>
          if whole then readChoice inside fuel e rest else some (e, rest)

def readDeclaration (inside : Bool) :
    Nat → List Token → Option (Expr × List Token)
  | 0, _ => none
  | fuel + 1, ts =>
    match ts with
    | .name n :: rest =>
      match expect "=" rest with
      | none => none
      | some rest =>
        match readExpr inside fuel 0 rest with
        | none => none
        | some (value, rest) =>
          match expect ";" rest with
          | none => none
          | some rest =>
            (readSequence inside fuel rest).map fun (body, rest) =>
              (.declare n value body, rest)
    | _ => none

def readAlternative (inside : Bool) :
    Nat → List Token → Option (Expr × List Token)
  | 0, _ => none
  | fuel + 1, ts =>
    match readExpr inside fuel 0 ts with
    | none => none
    | some (condition, rest) =>
      match readBraces inside fuel rest with
      | none => none
      | some (yes, rest) =>
        match expect "else" rest with
        | none => none
        | some rest =>
          (readBraces inside fuel rest).map fun (no, rest) =>
            (.choice condition yes no, rest)

def readBraces (inside : Bool) : Nat → List Token → Option (Expr × List Token)
  | 0, _ => none
  | fuel + 1, ts =>
    match expect "\x7b" ts with
    | none => none
    | some rest =>
      match readSequence inside fuel rest with
      | none => none
      | some (e, rest) => (expect "\x7d" rest).map fun rest => (e, rest)

def readChoice (inside : Bool) :
    Nat → Expr → List Token → Option (Expr × List Token)
  | 0, _, _ => none
  | fuel + 1, condition, ts =>
    match expect "?" ts with
    | none => some (condition, ts)
    | some rest =>
      match expect ":" rest with
      | some rest =>
        match readExpr inside fuel 0 rest with
        | none => none
        | some (no, rest) =>
          readChoice inside fuel (.choice condition condition no) rest
      | none =>
        match readExpr inside fuel 0 rest with
        | none => none
        | some (yes, rest) =>
          match expect ":" rest with
          | none => none
          | some rest =>
            match readExpr inside fuel 0 rest with
            | none => none
            | some (no, rest) =>
              readChoice inside fuel (.choice condition yes no) rest

/-- Reads binary operators that bind at least as tightly as `level`, and their
right operands.  After an operator for what has no value, which is what
`afterOtherwise` tells, no other kind of operator may follow without
parentheses. -/
def readOperators (inside : Bool) :
    Nat → Nat → Bool → Expr → List Token → Option (Expr × List Token)
  | 0, _, _, _, _ => none
  | fuel + 1, level, afterOtherwise, left, ts =>
    match ts with
    | .symbol s :: rest =>
      if s == ("not" : Bytes) then
        match rest with
        | .symbol t :: rest =>
          match BinaryOp.ofSpelling? t with
          | some op =>
            if !op.isNegatable then none
            else if level ≤ op.level then
              if afterOtherwise then none
              else
                match readExpr inside fuel (op.level + 1) rest with
                | none => none
                | some (right, rest) =>
                  readOperators inside fuel level false
                    (.unary .not (.binary op left right)) rest
            else some (left, ts)
          | none => none
        | _ => none
      else if s == ("|" : Bytes) then
        if level ≠ 0 then some (left, ts)
        else
          match rest with
          | .name n :: rest =>
            match readCall inside fuel n [left] rest with
            | none => none
            | some (e, rest) =>
              match readSelections inside fuel e rest with
              | none => none
              | some (e, rest) => readOperators inside fuel level false e rest
          | _ => none
      else
        match BinaryOp.ofSpelling? s with
        | none => some (left, ts)
        | some op =>
          if op.level < level then some (left, ts)
          else if afterOtherwise && op ≠ .otherwise then none
          else if op.isSize then
            match readExpr inside fuel (op.level + 1) rest with
            | none => none
            | some (right, rest) =>
              match
                readChain inside fuel (.binary op left right) right rest with
              | none => none
              | some (e, rest) => readOperators inside fuel level false e rest
          else
            let tightness := if op = .power then op.level else op.level + 1
            match readExpr inside fuel tightness rest with
            | none => none
            | some (right, rest) =>
              readOperators inside fuel level (op = .otherwise)
                (.binary op left right) rest
    | _ => some (left, ts)

/-- Reads further comparisons of sizes, each with the operand before it. -/
def readChain (inside : Bool) :
    Nat → Expr → Expr → List Token → Option (Expr × List Token)
  | 0, _, _, _ => none
  | fuel + 1, e, last, ts =>
    match ts with
    | .symbol s :: rest =>
      match BinaryOp.ofSpelling? s with
      | none => some (e, ts)
      | some op =>
        if op.isSize then
          match readExpr inside fuel (op.level + 1) rest with
          | none => none
          | some (right, rest) =>
            readChain inside fuel (.binary .and e (.binary op last right)) right
              rest
        else some (e, ts)
    | _ => some (e, ts)

def readPrimary (inside : Bool) : Nat → List Token → Option (Expr × List Token)
  | 0, _ => none
  | fuel + 1, ts =>
    match ts with
    | [] => none
    | .integer n _ :: rest => readSelections inside fuel (.integer n) rest
    | .fraction x _ :: rest => readSelections inside fuel (.fraction x) rest
    | .text s :: rest => readSelections inside fuel (.text s) rest
    | .name n :: rest =>
      if n == ("true" : Bytes) then some (.boolean true, rest)
      else if n == ("false" : Bytes) then some (.boolean false, rest)
      else if n == ("nil" : Bytes) then some (.nil, rest)
      else
        match expect "(" rest with
        | some _ =>
          match readCall inside fuel n [] rest with
          | none => none
          | some (e, rest) => readSelections inside fuel e rest
        | none => readSelections inside fuel (.name n) rest
    | .symbol s :: rest =>
      match UnaryOp.ofSpelling? s with
      | some (op, level) =>
        match readExpr inside fuel level rest with
        | none => none
        | some (operand, rest) =>
          readSelections inside fuel (.unary op operand) rest
      | none =>
        if s == ("(" : Bytes) then
          match readSequence inside fuel rest with
          | none => none
          | some (e, rest) =>
            match expect ")" rest with
            | none => none
            | some rest => readSelections inside fuel e rest
        else if s == ("[" : Bytes) then
          match readArguments inside fuel "]" rest with
          | none => none
          | some (items, rest) => readSelections inside fuel (.list items) rest
        else if inside && s == ("#" : Bytes) then
          match rest with
          | .name n :: rest =>
            (Pointer.ofName? n).bind fun p =>
              readSelections inside fuel (.pointer p) rest
          | _ => readSelections inside fuel (.pointer .element) rest
        else if inside && s == ("." : Bytes) then
          readSelections inside fuel (.pointer .element) ts
        else if s == ("\x7b" : Bytes) then
          match readEntries inside fuel rest with
          | none => none
          | some (entries, rest) =>
            readSelections inside fuel (.map entries) rest
        else if s == ("::" : Bytes) then
          match rest with
          | .name n :: rest =>
            match readCall inside fuel n [] rest with
            | none => none
            | some (e, rest) => readSelections inside fuel e rest
          | _ => none
        else none

def readSelections (inside : Bool) :
    Nat → Expr → List Token → Option (Expr × List Token)
  | 0, _, _ => none
  | fuel + 1, e, ts =>
    match expect "[" ts, expect "." ts, expect "?." ts with
    | some rest, _, _ => readPosition inside fuel false e rest
    | none, some rest, _ => readMember inside fuel false e rest
    | none, none, some rest =>
      match expect "[" rest with
      | some rest => readPosition inside fuel true e rest
      | none => readMember inside fuel true e rest
    | none, none, none => some (e, ts)

def readMember (inside : Bool) :
    Nat → Bool → Expr → List Token → Option (Expr × List Token)
  | 0, _, _, _ => none
  | fuel + 1, isOptional, e, ts =>
    match memberName? ts with
    | none => none
    | some (n, rest) =>
      let (base, isChain) := e.unchained
      match expect "(" rest with
      | some rest =>
        match readArguments inside fuel ")" rest with
        | none => none
        | some (arguments, rest) =>
          readSelections inside fuel
            (Expr.chainedIf (isChain || isOptional) (.method base n arguments))
            rest
      | none =>
        readSelections inside fuel
          (Expr.chainedIf (isChain || isOptional) (.member isOptional base n))
          rest

def readPosition (inside : Bool) :
    Nat → Bool → Expr → List Token → Option (Expr × List Token)
  | 0, _, _, _ => none
  | fuel + 1, isOptional, e, ts =>
    match expect ":" ts with
    | some rest => readPart inside fuel e (.integer 0) rest
    | none =>
      match readExpr inside fuel 0 ts with
      | none => none
      | some (low, rest) =>
        match expect ":" rest with
        | some rest => readPart inside fuel e low rest
        | none =>
          match expect "]" rest with
          | none => none
          | some rest =>
            readSelections inside fuel
              (Expr.chainedIf isOptional (.index isOptional e low)) rest

def readPart (inside : Bool) :
    Nat → Expr → Expr → List Token → Option (Expr × List Token)
  | 0, _, _, _ => none
  | fuel + 1, e, low, ts =>
    match expect "]" ts with
    | some rest => readSelections inside fuel (.sliceFrom e low) rest
    | none =>
      match readExpr inside fuel 0 ts with
      | none => none
      | some (high, rest) =>
        match expect "]" rest with
        | none => none
        | some rest => readSelections inside fuel (.slice e low high) rest

/-- Reads the arguments of a function, of which some may stand before it. -/
def readCall (inside : Bool) :
    Nat → Bytes → List Expr → List Token → Option (Expr × List Token)
  | 0, _, _, _ => none
  | fuel + 1, name, before, ts =>
    match expect "(" ts with
    | none => none
    | some ts =>
      match Quantifier.ofName? name with
      | some q =>
        match before with
        | list :: _ => readQuantified inside fuel q list ts
        | [] =>
          match readExpr inside fuel 0 ts with
          | none => none
          | some (list, rest) =>
            match expect ")" rest, q.withoutBody? with
            | some rest, some f => some (.call f [list], rest)
            | _, _ =>
              (expect "," rest).bind fun rest =>
                readQuantified inside fuel q list rest
      | none =>
        match Builtin.ofName? name with
        | none => none
        | some f =>
          (readArguments inside fuel ")" ts).map fun (arguments, rest) =>
            (.call f (before ++ arguments), rest)

def readQuantified (inside : Bool) :
    Nat → Quantifier → Expr → List Token → Option (Expr × List Token)
  | 0, _, _, _ => none
  | fuel + 1, q, list, ts =>
    match expect ")" ts, q.withoutBody? with
    | some rest, some f => some (.call f [list], rest)
    | _, _ =>
      match readBody fuel ts with
      | none => none
      | some (body, rest) =>
        match expect ")" rest, expect "," rest with
        | some rest, _ => some (.quantified q list body [], rest)
        | none, none => none
        | none, some rest =>
          match expect ")" rest with
          | some rest => some (.quantified q list body [], rest)
          | none =>
            if q.takesExtra then
              match readExpr inside fuel 0 rest with
              | none => none
              | some (extra, rest) =>
                let rest := (expect "," rest).getD rest
                (expect ")" rest).map fun rest =>
                  (.quantified q list body [extra], rest)
            else none

/-- Reads the condition or term of a list function, in braces or not. -/
def readBody : Nat → List Token → Option (Expr × List Token)
  | 0, _ => none
  | fuel + 1, ts =>
    match expect "\x7b" ts with
    | none => readExpr true fuel 0 ts
    | some _ => readBraces true fuel ts

def readArguments (inside : Bool) :
    Nat → Bytes → List Token → Option (List Expr × List Token)
  | 0, _, _ => none
  | fuel + 1, close, ts =>
    match expect close ts with
    | some rest => some ([], rest)
    | none =>
      match readExpr inside fuel 0 ts with
      | none => none
      | some (e, rest) =>
        match expect close rest, expect "," rest with
        | some rest, _ => some ([e], rest)
        | none, some rest =>
          match readArguments inside fuel close rest with
          | none => none
          | some (more, rest) => some (e :: more, rest)
        | none, none => none

def readEntries (inside : Bool) :
    Nat → List Token → Option (List Expr × List Token)
  | 0, _ => none
  | fuel + 1, ts =>
    match expect "\x7d" ts with
    | some rest => some ([], rest)
    | none =>
      let key := match ts with
        | .name n :: rest => some (.text n, rest)
        | .text s :: rest => some (.text s, rest)
        | .integer _ spelling :: rest => some (.text spelling, rest)
        | .fraction _ spelling :: rest => some (.text spelling, rest)
        | _ => (expect "(" ts).bind fun _ => readExpr inside fuel 0 ts
      match key with
      | none => none
      | some (key, rest) =>
        match expect ":" rest with
        | none => none
        | some rest =>
          match readExpr inside fuel 0 rest with
          | none => none
          | some (value, rest) =>
            match expect "\x7d" rest, expect "," rest with
            | some rest, _ => some ([key, value], rest)
            | none, some rest =>
              (readEntries inside fuel rest).map fun (more, rest) =>
                (key :: value :: more, rest)
            | none, none => none

end

/-- The expression of a text; the fuel is enough, since between two tokens there
are only so many steps. -/
def parse? (text : Bytes) : Option Expr :=
  match tokens text with
  | none => none
  | some ts =>
    match readSequence false (16 * ts.length + 32) ts with
    | some (e, []) => some e
    | _ => none

end Schemata.Rule
