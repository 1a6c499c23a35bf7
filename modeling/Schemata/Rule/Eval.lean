import Schemata.Rule.Function

/-!
# Evaluating rules

An expression is evaluated with values for its names.  Evaluation stops where
there is no value: it fails, or an optional part of a chain is absent, which
makes the whole chain absent and no more.
-/

namespace Schemata.Rule

inductive Stop
  | failure
  | absence
  deriving DecidableEq

structure Scope where
  names : List (Bytes × Datum)
  element : Datum := .nil
  position : Nat := 0
  accumulator : Datum := .nil

namespace Scope

/-- The name of the node as a whole. -/
def whole : Bytes := "$env"

/-- The value of a name; the whole node is an association of its attributes. -/
def name? (scope : Scope) (n : Bytes) : Option Datum :=
  match scope.names.lookup n with
  | some d => some d
  | none =>
    if n = whole then some (.map (scope.names.map fun (n, d) => (.text n, d)))
    else none

def pointer (scope : Scope) : Pointer → Datum
  | .element => scope.element
  | .position => .integer scope.position
  | .accumulator => scope.accumulator

end Scope

def orFail {α : Type} : Option α → Except Stop α
  | some a => .ok a
  | none => .error .failure

/-- The base of an optional part, which is absent where the base has no
value. -/
def present (isOptional : Bool) (base : Datum) : Except Stop Datum :=
  if isOptional && base.isNil then .error .absence else .ok base

/-- The entries of keys and values that alternate; the keys have to be texts. -/
def entriesOf? : List Datum → Option (List (Datum × Datum))
  | [] => some []
  | .text k :: v :: rest =>
    (entriesOf? rest).map fun more =>
      if (Datum.lookup (.text k) more).isSome then more
      else (.text k, v) :: more
  | _ => none

mutual

def eval (scope : Scope) : Expr → Except Stop Datum
  | .nil => .ok .nil
  | .boolean b => .ok (.boolean b)
  | .integer n => .ok (.integer n)
  | .fraction x => .ok (.fraction x)
  | .text s => .ok (.text s)
  | .name n => orFail (scope.name? n)
  | .pointer p => .ok (scope.pointer p)
  | .list items => (evalAll scope items).map .list
  | .map entries => do orFail ((entriesOf? (← evalAll scope entries)).map .map)
  | .unary op e => do orFail (Datum.ofUnary op (← eval scope e))
  | .binary .or l r => do
    match ← eval scope l with
    | .boolean true => .ok (.boolean true)
    | .boolean false => eval scope r
    | _ => .error .failure
  | .binary .and l r => do
    match ← eval scope l with
    | .boolean false => .ok (.boolean false)
    | .boolean true => eval scope r
    | _ => .error .failure
  | .binary .otherwise l r => do
    let d ← eval scope l
    if d.isNil then eval scope r else .ok d
  | .binary .within l (.binary .range low high) => do
    let d ← eval scope l
    let a ← eval scope low
    let b ← eval scope high
    match d, a, b with
    | .integer n, .integer a, .integer b => .ok (.boolean (a ≤ n && n ≤ b))
    | _, _, _ => orFail ((Datum.range a b).bind (Datum.within d))
  | .binary op l r => do
    let a ← eval scope l
    let b ← eval scope r
    orFail (Datum.ofBinary op a b)
  | .choice c yes no => do
    match ← eval scope c with
    | .boolean true => eval scope yes
    | .boolean false => eval scope no
    | _ => .error .failure
  | .index isOptional base position => do
    let b ← present isOptional (← eval scope base)
    orFail (Datum.at? b (← eval scope position))
  | .member isOptional base n => do
    let b ← present isOptional (← eval scope base)
    match b with
    | .map entries => .ok ((Datum.lookup (.text n) entries).getD .nil)
    | _ => .error .failure
  | .method _ _ _ => .error .failure
  | .chain e =>
    match eval scope e with
    | .ok d => .ok (if d.isNil then .nil else d)
    | .error .absence => .ok .nil
    | .error .failure => .error .failure
  | .sliceFrom base low => do
    let b ← eval scope base
    orFail (Datum.part? b (← eval scope low) none)
  | .slice base low high => do
    let b ← eval scope base
    let l ← eval scope low
    orFail (Datum.part? b l (some (← eval scope high)))
  | .quantified q list body extra => do
    let items ← orFail (← eval scope list).items?
    let extra ← evalAll scope extra
    let step (position : Nat) (element accumulator : Datum) : Option Datum :=
      (eval { scope with element, position, accumulator } body).toOption
    orFail (Datum.ofQuantified q step items extra)
  | .call f arguments => do orFail (Datum.ofCall f (← evalAll scope arguments))
  | .declare n value body => do
    let d ← eval scope value
    eval { scope with names := (n, d) :: scope.names } body
  | .sequence first second => do
    let _ ← eval scope first
    eval scope second

def evalAll (scope : Scope) : List Expr → Except Stop (List Datum)
  | [] => .ok []
  | e :: es => do
    let d ← eval scope e
    let ds ← evalAll scope es
    .ok (d :: ds)

end

end Schemata.Rule
