import Schemata.Bytes

/-!
# Rules as expressions

An expression is made of literals, names, operators and functions.  Functions of
lists take a condition or a term for the elements, in which `#` stands for the
element at hand.  A name may be declared for the rest of an expression.
-/

namespace Schemata.Rule

inductive UnaryOp
  | not | negate | identity
  deriving DecidableEq

inductive BinaryOp
  | or | and
  | equal | unequal | less | lessEqual | greater | greaterEqual
  | within | matching | contains | startsWith | endsWith
  | range
  | add | subtract
  | multiply | divide | remainder
  | power
  /-- The right operand where the left one has no value. -/
  | otherwise
  /-- Equality of operands that are known to be integers. -/
  | equalIntegers
  /-- Equality of operands that are known to be texts. -/
  | equalTexts
  deriving DecidableEq

/-- What stands for a part of the list that a condition or term is about. -/
inductive Pointer
  | element
  | position
  /-- What the elements before were reduced to. -/
  | accumulator
  deriving DecidableEq

inductive Quantifier
  | all | any | none | one | count | filter | map | sum
  | find | findIndex | findLast | findLastIndex
  | groupBy | sortBy | reduce
  deriving DecidableEq

inductive Builtin
  | length | count | sum | maximum | minimum | mean | median
  | typeName | absolute | ceiling | floor | round
  | toInteger | toFraction | toText
  | trim | trimStart | trimEnd | upper | lower
  | split | splitAfter | replace | repeated | join | indexOf | lastIndexOf
  | hasStart | hasEnd
  | first | last | get | take | keys | values | toPairs | ofPairs
  | reverse | unique | concat | flatten | sort
  | toJson | ofJson | toBase64 | ofBase64
  | bitAnd | bitOr | bitXor | bitClear | bitNot | shiftLeft | shiftRight
  | shiftRightWord
  deriving DecidableEq

inductive Expr
  | nil
  | boolean (b : Bool)
  | integer (n : Nat)
  | fraction (x : Float)
  | text (s : Bytes)
  | name (n : Bytes)
  | pointer (p : Pointer)
  | list (items : List Expr)
  /-- An association; the keys and the values alternate. -/
  | map (entries : List Expr)
  | unary (op : UnaryOp) (operand : Expr)
  | binary (op : BinaryOp) (left right : Expr)
  | choice (condition yes no : Expr)
  /-- What stands at a position or under a key; an optional one has no value
  where the base has none. -/
  | index (isOptional : Bool) (base position : Expr)
  /-- What has a name; an optional one has no value where the base has none. -/
  | member (isOptional : Bool) (base : Expr) (name : Bytes)
  | method (base : Expr) (name : Bytes) (arguments : List Expr)
  /-- Where an optional part of the expression has no value, the whole has
  none. -/
  | chain (e : Expr)
  | sliceFrom (base low : Expr)
  | slice (base low high : Expr)
  | quantified (q : Quantifier) (list body : Expr) (extra : List Expr)
  | call (f : Builtin) (arguments : List Expr)
  | declare (name : Bytes) (value body : Expr)
  | sequence (first second : Expr)
  deriving Inhabited

namespace BinaryOp

def ofSpelling? (s : Bytes) : Option BinaryOp :=
  let table : List (Bytes × BinaryOp) :=
    [("or", .or), ("||", .or), ("and", .and), ("&&", .and), ("==", .equal),
      ("!=", .unequal), ("<", .less), ("<=", .lessEqual), (">", .greater),
      (">=", .greaterEqual), ("in", .within), ("matches", .matching),
      ("contains", .contains), ("startsWith", .startsWith),
      ("endsWith", .endsWith), ("..", .range), ("+", .add), ("-", .subtract),
      ("*", .multiply), ("/", .divide), ("%", .remainder), ("**", .power),
      ("^", .power), ("??", .otherwise)]
  table.lookup s

def level : BinaryOp → Nat
  | .or => 10
  | .and => 15
  | .equal | .unequal | .less | .lessEqual | .greater | .greaterEqual
  | .within | .matching | .contains | .startsWith | .endsWith
  | .equalIntegers | .equalTexts => 20
  | .range => 25
  | .add | .subtract => 30
  | .multiply | .divide | .remainder => 60
  | .power => 100
  | .otherwise => 500

/-- Whether an operator compares sizes, and so may be chained. -/
def isSize : BinaryOp → Bool
  | .less | .lessEqual | .greater | .greaterEqual => true
  | _ => false

def isNegatable : BinaryOp → Bool
  | .within | .matching | .contains | .startsWith | .endsWith => true
  | _ => false

end BinaryOp

def UnaryOp.ofSpelling? (s : Bytes) : Option (UnaryOp × Nat) :=
  let table : List (Bytes × UnaryOp × Nat) :=
    [("not", .not, 50), ("!", .not, 50), ("-", .negate, 90),
     ("+", .identity, 90)]
  table.lookup s

def Pointer.ofName? (s : Bytes) : Option Pointer :=
  let table : List (Bytes × Pointer) :=
    [("index", .position), ("acc", .accumulator)]
  table.lookup s

namespace Quantifier

def ofName? (s : Bytes) : Option Quantifier :=
  let table : List (Bytes × Quantifier) :=
    [("all", .all), ("any", .any), ("none", .none), ("one", .one),
      ("count", .count), ("filter", .filter), ("map", .map), ("sum", .sum),
      ("find", .find), ("findIndex", .findIndex), ("findLast", .findLast),
      ("findLastIndex", .findLastIndex), ("groupBy", .groupBy),
      ("sortBy", .sortBy), ("reduce", .reduce)]
  table.lookup s

/-- The function of values that stands for a list function without a
condition. -/
def withoutBody? : Quantifier → Option Builtin
  | .count => some .count
  | .sum => some .sum
  | _ => Option.none

def takesExtra : Quantifier → Bool
  | .sortBy | .reduce => true
  | _ => false

end Quantifier

namespace Builtin

def numeric : List (Bytes × Builtin) :=
  [("len", .length), ("max", .maximum), ("min", .minimum), ("mean", .mean),
    ("median", .median), ("type", .typeName), ("abs", .absolute),
    ("ceil", .ceiling), ("floor", .floor), ("round", .round),
    ("int", .toInteger), ("float", .toFraction), ("string", .toText),
    ("bitand", .bitAnd), ("bitor", .bitOr), ("bitxor", .bitXor),
    ("bitnand", .bitClear), ("bitnot", .bitNot), ("bitshl", .shiftLeft),
    ("bitshr", .shiftRight), ("bitushr", .shiftRightWord)]

def textual : List (Bytes × Builtin) :=
  [("trim", .trim), ("trimPrefix", .trimStart), ("trimSuffix", .trimEnd),
    ("upper", .upper), ("lower", .lower), ("split", .split),
    ("splitAfter", .splitAfter), ("replace", .replace), ("repeat", .repeated),
    ("join", .join), ("indexOf", .indexOf), ("lastIndexOf", .lastIndexOf),
    ("hasPrefix", .hasStart), ("hasSuffix", .hasEnd), ("toJSON", .toJson),
    ("fromJSON", .ofJson), ("toBase64", .toBase64), ("fromBase64", .ofBase64)]

def structural : List (Bytes × Builtin) :=
  [("first", .first), ("last", .last), ("get", .get), ("take", .take),
    ("keys", .keys), ("values", .values), ("toPairs", .toPairs),
    ("fromPairs", .ofPairs), ("reverse", .reverse), ("uniq", .unique),
    ("concat", .concat), ("flatten", .flatten), ("sort", .sort)]

def ofName? (s : Bytes) : Option Builtin :=
  (numeric.lookup s).orElse fun _ =>
    (textual.lookup s).orElse fun _ => structural.lookup s

end Builtin

/-- Whether a name is that of a function, and so cannot be declared. -/
def isFunctionName (s : Bytes) : Bool :=
  (Quantifier.ofName? s).isSome || (Builtin.ofName? s).isSome
    || ["now", "duration", "date", "timezone"].any fun n : String => s == utf8 n

end Schemata.Rule
