import Schemata.Json
import Schemata.Number.Styled
import Schemata.Rule.Expr
import Schemata.Rule.Pattern
import Schemata.Sorted
import Schemata.Text.Edit

/-!
# Values of expressions

Integers have 64 bits and wrap around.  Quotients and powers are floating point
numbers, and a number of either sort equals one of the other if it does as a
floating point number.  A list that a node does not have is empty and equals the
absence of a value.  What has no value, as a position outside of a list or a
remainder by zero, makes the whole evaluation fail.
-/

namespace Schemata.Rule

inductive Datum
  | nil
  | boolean (b : Bool)
  | integer (n : Int)
  | fraction (x : Float)
  | text (s : Bytes)
  | list (items : List Datum)
  /-- A list that there is not. -/
  | noList
  | map (entries : List (Datum × Datum))
  deriving Inhabited

namespace Datum

def wrapped (n : Int) : Datum := .integer (n.bmod wordCount)

def float? : Datum → Option Float
  | .integer n => some (Float.ofInt n)
  | .fraction x => some x
  | _ => none

def items? : Datum → Option (List Datum)
  | .list items => some items
  | .noList => some []
  | _ => none

def isNil : Datum → Bool
  | .nil | .noList => true
  | _ => false

def truth? : Datum → Option Bool
  | .boolean b => some b
  | _ => none

def text? : Datum → Option Bytes
  | .text s => some s
  | _ => none

def integer? : Datum → Option Int
  | .integer n => some n
  | _ => none

mutual

def equal : Datum → Datum → Bool
  | .nil, .nil => true
  | .nil, .noList => true
  | .noList, .nil => true
  | .noList, .noList => true
  | .noList, .list items => items.isEmpty
  | .list items, .noList => items.isEmpty
  | .boolean a, .boolean b => a == b
  | .integer a, .integer b => a == b
  | .integer a, .fraction y => Float.ofInt a == y
  | .fraction x, .integer b => x == Float.ofInt b
  | .fraction x, .fraction y => x == y
  | .text a, .text b => a == b
  | .list as, .list bs => equalAll as bs
  | .map as, .map bs => as.length == bs.length && covers bs as
  | _, _ => false

def equalAll : List Datum → List Datum → Bool
  | [], [] => true
  | a :: as, b :: bs => equal a b && equalAll as bs
  | _, _ => false

/-- Whether every entry of the second list is one of the first. -/
def covers (others : List (Datum × Datum)) : List (Datum × Datum) → Bool
  | [] => true
  | (k, v) :: rest =>
    (others.any fun (j, w) => equal k j && equal v w) && covers others rest

end

/-- Whether two keys are the same, which an integer and a floating point number
never are. -/
def sameKey : Datum → Datum → Bool
  | .integer _, .fraction _ => false
  | .fraction _, .integer _ => false
  | a, b => equal a b

def lookup (key : Datum) (entries : List (Datum × Datum)) : Option Datum :=
  (entries.find? fun e => sameKey e.1 key).map Prod.snd

/-- Changes the value under a key; it stays at its place, and a new one goes to
the end. -/
def update (key : Datum) (change : Option Datum → Datum) :
    List (Datum × Datum) → List (Datum × Datum)
  | [] => [(key, change none)]
  | (k, v) :: rest =>
    if sameKey k key then (k, change (some v)) :: rest
    else (k, v) :: update key change rest

def sizes
    (onOrder : Ordering → Bool) (onFloat : Float → Float → Bool) (l r : Datum) :
    Option Datum :=
  match l, r with
  | .integer a, .integer b => some (.boolean (onOrder (compare a b)))
  | .text a, .text b => some (.boolean (onOrder (compare a b)))
  | _, _ =>
    match l.float?, r.float? with
    | some x, some y => some (.boolean (onFloat x y))
    | _, _ => none

def arithmetic
    (onInt : Int → Int → Int) (onFloat : Float → Float → Float) (l r : Datum) :
    Option Datum :=
  match l, r with
  | .integer a, .integer b => some (wrapped (onInt a b))
  | _, _ =>
    match l.float?, r.float? with
    | some x, some y => some (.fraction (onFloat x y))
    | _, _ => none

def floating (f : Float → Float → Float) (l r : Datum) : Option Datum :=
  match l.float?, r.float? with
  | some x, some y => some (.fraction (f x y))
  | _, _ => none

def strings (test : Bytes → Bytes → Bool) (l r : Datum) : Option Datum :=
  match l, r with
  | .text a, .text b => some (.boolean (test a b))
  | _, _ => none

def matching (l r : Datum) : Option Datum :=
  match l, r with
  | .text s, .text p => (Pattern.parse? p).map fun p => .boolean (p.isFound s)
  | _, _ => none

/-- Ranges of integers, and texts made by repetition, are shorter than this. -/
def sizeLimit : Nat := 1000000

def range (l r : Datum) : Option Datum :=
  match l, r with
  | .integer a, .integer b =>
    let size := (b - a + 1).toNat
    if sizeLimit ≤ size then none
    else
      some (.list ((List.range size).map fun i => .integer (a + Int.ofNat i)))
  | _, _ => none

def within (l r : Datum) : Option Datum :=
  match r with
  | .nil => some (.boolean false)
  | .map entries => some (.boolean (lookup l entries).isSome)
  | r => r.items?.map fun items => .boolean (items.any (equal l))

def ofBinary (op : BinaryOp) (l r : Datum) : Option Datum :=
  match op with
  | .or | .and | .otherwise => none
  | .equal => some (.boolean (equal l r))
  | .unequal => some (.boolean (!equal l r))
  | .equalIntegers =>
    match l, r with
    | .integer a, .integer b => some (.boolean (a == b))
    | _, _ => none
  | .equalTexts => strings (· == ·) l r
  | .less => sizes (· == .lt) (fun x y => x < y) l r
  | .lessEqual => sizes (· != .gt) (fun x y => x <= y) l r
  | .greater => sizes (· == .gt) (fun x y => x > y) l r
  | .greaterEqual => sizes (· != .lt) (fun x y => x >= y) l r
  | .within => within l r
  | .matching => matching l r
  | .contains => strings (fun a b => Bytes.occursIn b a) l r
  | .startsWith => strings (fun a b => b.isPrefixOf a) l r
  | .endsWith => strings (fun a b => b.isSuffixOf a) l r
  | .range => range l r
  | .add =>
    match l, r with
    | .text a, .text b => some (.text (a ++ b))
    | _, _ => arithmetic (· + ·) (· + ·) l r
  | .subtract => arithmetic (· - ·) (· - ·) l r
  | .multiply => arithmetic (· * ·) (· * ·) l r
  | .divide => floating (· / ·) l r
  | .power => floating Float.pow l r
  | .remainder =>
    match l, r with
    | .integer a, .integer b =>
      if b = 0 then none else some (wrapped (Int.tmod a b))
    | _, _ => none

def ofUnary (op : UnaryOp) (d : Datum) : Option Datum :=
  match op, d with
  | .not, .boolean b => some (.boolean !b)
  | .negate, .integer n => some (wrapped (-n))
  | .negate, .fraction x => some (.fraction (-x))
  | .identity, .integer n => some (.integer n)
  | .identity, .fraction x => some (.fraction x)
  | _, _ => none

def truncated (x : Float) : Int :=
  let whole := if x < 0 then x.ceil else x.floor
  if whole.abs < 9223372036854775808.0 then whole.toInt64.toInt
  else -signedLimit

def position? : Datum → Option Int
  | .integer n => some n
  | .fraction x => some (truncated x)
  | _ => none

/-- The element at a position, which counts from the end if it is negative. -/
def itemAt? (items : List Datum) (i : Int) : Option Datum :=
  let j := if i < 0 then i + items.length else i
  if j < 0 then none else items[j.toNat]?

def at? (base position : Datum) : Option Datum :=
  match base with
  | .map entries => some ((lookup position entries).getD .nil)
  | base =>
    base.items?.bind fun items => position.position?.bind (itemAt? items)

/-- The bounds of a part of so many things: positions count from the end if they
are negative, and are brought within the bounds of the whole. -/
def partBounds (length : Nat) (low high : Int) : Nat × Nat :=
  let fromEnd (i : Int) : Nat := (if i < 0 then i + length else i).toNat
  let high := min (fromEnd high) length
  (min (fromEnd low) high, high)

def part? (base low : Datum) (high : Option Datum) : Option Datum :=
  let bounds (length : Nat) : Option (Nat × Nat) :=
    match low.position?, high.elim (some (length : Int)) position? with
    | some low, some high => some (partBounds length low high)
    | _, _ => none
  match base with
  | .text s =>
    (bounds s.length).map fun (low, high) => .text ((s.take high).drop low)
  | base =>
    base.items?.bind fun items =>
      (bounds items.length).map fun (low, high) =>
        .list ((items.take high).drop low)

/-- The order of two values that have one: numbers or texts. -/
def order? (l r : Datum) : Option Ordering :=
  match ofBinary .less l r, ofBinary .less r l with
  | some (.boolean true), _ => some .lt
  | _, some (.boolean true) => some .gt
  | some _, some _ => some .eq
  | _, _ => none

def areOrdered (keys : List Datum) : Bool :=
  keys.length ≤ 1 || keys.all (fun d => d.float?.isSome) ||
    keys.all (fun d => d.text?.isSome)

/-- Values sorted by their keys, from the smallest or from the largest, if the
keys have an order. -/
def sortedBy {α : Type} (key : α → Datum) (descending : Bool) (items : List α) :
    Option (List α) :=
  let cmp (a b : α) : Ordering :=
    let o := (order? (key a) (key b)).getD .eq
    if descending then o.swap else o
  if areOrdered (items.map key) then some (Schemata.sortBy cmp items) else none

/-- Whether an order is from the largest; only two words are orders. -/
def descending? : Datum → Option Bool
  | .text s =>
    if s == ("asc" : Bytes) then some false
    else if s == ("desc" : Bytes) then some true
    else none
  | _ => none

/-- The sum of values, starting from an integer zero. -/
def total (items : List Datum) : Option Datum :=
  items.foldlM (fun sum d => ofBinary .add d sum) (.integer 0)

end Datum

end Schemata.Rule
