import Schemata.Rule.Grammar
import Schemata.Rule.Pattern

/-!
# Types of rules

Every expression has a type before it is evaluated, and a rule has to be a truth
value.  Where the type of an expression is unknown, as that of the largest
element of a list that may be empty, it is checked when the expression is
evaluated.  A list of a node knows the type of its elements for good; lists that
are made by functions and brackets forget it when they are handed to another
function.
-/

namespace Schemata.Rule

inductive ExprType
  | unknown | nil | boolean | integer | fraction | text
  /-- A list; the type of the elements is `fixed` or only known where the list
  is made. -/
  | list (fixed : Bool) (element : ExprType)
  /-- An association, whose keys are texts or, if they are `free`, anything. -/
  | map (free : Bool) (element : ExprType)

namespace ExprType

def isUnknown : ExprType → Bool
  | .unknown => true
  | _ => false

def isNil : ExprType → Bool
  | .nil => true
  | _ => false

def isNumber : ExprType → Bool
  | .integer | .fraction => true
  | _ => false

def isInteger : ExprType → Bool
  | .integer => true
  | _ => false

def isText : ExprType → Bool
  | .text => true
  | _ => false

def isBoolean : ExprType → Bool
  | .boolean => true
  | _ => false

def isList : ExprType → Bool
  | .list _ _ => true
  | _ => false

def isMap : ExprType → Bool
  | .map _ _ => true
  | _ => false

/-- Whether members may have a property: an unknown type may have every one. -/
def may (p : ExprType → Bool) (t : ExprType) : Bool := t.isUnknown || p t

/-- Whether two types are alike, whatever the elements of lists and associations
are. -/
def isAlike : ExprType → ExprType → Bool
  | .unknown, .unknown => true
  | .nil, .nil => true
  | .boolean, .boolean => true
  | .integer, .integer => true
  | .fraction, .fraction => true
  | .text, .text => true
  | .list _ _, .list _ _ => true
  | .map _ _, .map _ _ => true
  | _, _ => false

def isComparable (l r : ExprType) : Bool :=
  l.isUnknown || r.isUnknown || isAlike l r || (l.isNumber && r.isNumber) ||
    l.isNil || r.isNil

def both (p : ExprType → Bool) (l r : ExprType) : Bool := l.may p && r.may p

def combined (l r : ExprType) : ExprType :=
  if l.isUnknown || r.isUnknown then .unknown
  else if l.isInteger && r.isInteger then .integer
  else .fraction

/-- Whether a value of the first type can stand where one of the second is
expected. -/
def isAssignable : ExprType → ExprType → Bool
  | .list true a, .list true b => isAlike a b
  | .list fixed _, .list other _ => fixed == other
  | .map free _, .map other _ => free == other
  | a, b => !a.isUnknown && isAlike a b

def ofChoice (yes no : ExprType) : ExprType :=
  if yes.isNil then no
  else if no.isNil then yes
  else if isAssignable yes no then yes
  else .unknown

def ofBinary (op : BinaryOp) (l r : ExprType) : Option ExprType :=
  match op with
  | .or | .and => if both isBoolean l r then some .boolean else none
  | .equal | .unequal | .equalIntegers | .equalTexts =>
    if isComparable l r then some .boolean else none
  | .less | .lessEqual | .greater | .greaterEqual =>
    if both isNumber l r || both isText l r then some .boolean else none
  | .within =>
    match r with
    | .list _ element => if isComparable l element then some .boolean else none
    | .map free _ => if free || l.may isText then some .boolean else none
    | .unknown => some .boolean
    | .text => if l.isUnknown then some .boolean else none
    | _ => none
  | .matching | .contains | .startsWith | .endsWith =>
    if both isText l r then some .boolean else none
  | .range => if both isInteger l r then some (.list false .integer) else none
  | .add =>
    if both isNumber l r then some (combined l r)
    else if both isText l r then
      some (if l.isUnknown || r.isUnknown then .unknown else .text)
    else none
  | .subtract | .multiply =>
    if both isNumber l r then some (combined l r) else none
  | .divide | .power => if both isNumber l r then some .fraction else none
  | .remainder => if both isInteger l r then some .integer else none
  | .otherwise => some (ofChoice r l)

def ofUnary (op : UnaryOp) (t : ExprType) : Option ExprType :=
  match op with
  | .not => if t.may isBoolean then some .boolean else none
  | .negate | .identity => if t.may isNumber then some t else none

def ofElements : List ExprType → ExprType
  | [] => .list false .unknown
  | t :: ts =>
    if ts.all (isAlike t) then .list false t else .list false .unknown

def element? : ExprType → Option ExprType
  | .list _ element => some element
  | .unknown => some .unknown
  | _ => none

def ofIndex (base position : ExprType) : Option ExprType :=
  match base with
  | .unknown => some .unknown
  | .list _ element => if position.may isInteger then some element else none
  | .map free element =>
    if free || position.may isText then some element else none
  | _ => none

def ofMember : ExprType → Option ExprType
  | .unknown => some .unknown
  | .map _ element => some element
  | _ => none

def ofSlice (base low high : ExprType) : Option ExprType :=
  if base.isUnknown then some .unknown
  else if (base.isText || base.isList) && both isInteger low high then some base
  else none

def ofQuantified (q : Quantifier) (list element body : ExprType) :
    Option ExprType :=
  let condition := body.may isBoolean
  match q with
  | .all | .any | .none | .one => if condition then some .boolean else none
  | .count | .findIndex | .findLastIndex =>
    if condition then some .integer else none
  | .filter => if condition then some (.list false element) else none
  | .find | .findLast => if condition then some element else none
  | .map => some (.list false body)
  | .sum | .reduce => some body
  | .groupBy => some (.map true (.list false element))
  | .sortBy => some list

def ofExtreme : List ExprType → Option ExprType
  | [] => none
  | t :: ts =>
    match (t :: ts).find? fun u => !u.isNumber with
    | none => some t
    | some u => if u.may isList then some .unknown else none

/-- The type of a function whose arguments may have properties in turn. -/
def signature
    (properties : List (ExprType → Bool)) (result : ExprType)
    (arguments : List ExprType) : Option ExprType :=
  if properties.length = arguments.length &&
      (properties.zip arguments).all fun (p, t) => t.may p then
    some result
  else none

/-- A list of anything that functions make. -/
def freeList : ExprType := .list false .unknown

def isJoinable : ExprType → Bool
  | .list true element => element.isText
  | .list false _ => true
  | _ => false

def ofTextCall (f : Builtin) (arguments : List ExprType) : Option ExprType :=
  let words (more : List (ExprType → Bool)) (result : ExprType) :=
    signature (isText :: more) result arguments
  let either (a b : Option ExprType) : Option ExprType := a.orElse fun _ => b
  match f with
  | .trim | .trimStart | .trimEnd =>
    either (words [] .text) (words [isText] .text)
  | .upper | .lower | .toBase64 | .ofBase64 => words [] .text
  | .split | .splitAfter =>
    either (words [isText] (.list true .text))
      (words [isText, isInteger] (.list true .text))
  | .replace =>
    either (words [isText, isText] .text)
      (words [isText, isText, isInteger] .text)
  | .repeated => words [isInteger] .text
  | .indexOf | .lastIndexOf => words [isText] .integer
  | .hasStart | .hasEnd => words [isText] .boolean
  | .ofJson => words [] .unknown
  | .join =>
    either (signature [isJoinable] .text arguments)
      (signature [isJoinable, isText] .text arguments)
  | _ => none

def ofListCall (f : Builtin) (arguments : List ExprType) : Option ExprType :=
  match f, arguments with
  | .first, [t] | .last, [t] =>
    match t with
    | .list true element => some element
    | t => if t.may isList then some .unknown else none
  | .get, [base, position] => ofIndex base position
  | .take, [t, n] =>
    match t with
    | .list true element =>
      if n.may isInteger then some (.list true element) else none
    | .list false _ => if n.may isInteger then some freeList else none
    | .unknown => if n.may isInteger then some .unknown else none
    | _ => none
  | .keys, [t] | .values, [t] | .toPairs, [t] =>
    if t.may isMap then some freeList else none
  | .ofPairs, [t] => if t.may isList then some (.map true .unknown) else none
  | .reverse, [t] | .unique, [t] | .flatten, [t] =>
    if t.may isList then some freeList else none
  | .concat, t :: ts =>
    if (t :: ts).all fun t => t.may isList then some freeList else none
  | .sort, [t] => if t.may isList then some freeList else none
  | .sort, [t, order] =>
    if t.may isList && order.may isText then some freeList else none
  | _, _ => none

def ofCall (f : Builtin) (arguments : List ExprType) : Option ExprType :=
  match f, arguments with
  | .length, [t] =>
    if t.may isText || t.isList || t.isMap then some .integer else none
  | .count, [t] => (element? t).map fun _ => .integer
  | .sum, [t] => element? t
  | .maximum, ts | .minimum, ts | .mean, ts | .median, ts => ofExtreme ts
  | .typeName, [_] | .toText, [_] | .toJson, [_] => some .text
  | .absolute, [t] => if t.may isNumber then some t else none
  | .ceiling, [t] | .floor, [t] | .round, [t] =>
    if t.may isNumber then some .fraction else none
  | .toInteger, [t] =>
    if t.may isNumber || t.isText then some .integer else none
  | .toFraction, [t] =>
    if t.may isNumber || t.isText then some .fraction else none
  | .bitNot, [t] => if t.may isInteger then some .integer else none
  | .bitAnd, [t, u] | .bitOr, [t, u] | .bitXor, [t, u] | .bitClear, [t, u]
  | .shiftLeft, [t, u] | .shiftRight, [t, u] | .shiftRightWord, [t, u] =>
    if both isInteger t u then some .integer else none
  | f, ts => (ofTextCall f ts).orElse fun _ => ofListCall f ts

end ExprType

structure TypeScope where
  names : Bytes → Option ExprType
  declared : List (Bytes × ExprType) := []
  element : ExprType := .unknown
  hasPosition : Bool := false
  hasAccumulator : Bool := false

namespace TypeScope

def whole : Bytes := "$env"

def name? (scope : TypeScope) (n : Bytes) : Option ExprType :=
  match scope.declared.lookup n with
  | some t => some t
  | none => if n = whole then some .unknown else scope.names n

/-- The scope of a condition or term for elements of a type. -/
def within (scope : TypeScope) (q : Quantifier) (element : ExprType) :
    TypeScope :=
  { scope with
      element, hasPosition := q = .map || q = .reduce,
      hasAccumulator := q = .reduce }

def isWhole (scope : TypeScope) : Expr → Bool
  | .name n => n = whole && (scope.declared.lookup n).isNone
  | _ => false

/-- Whether a name can be declared: it stands for nothing yet. -/
def isFree (scope : TypeScope) (n : Bytes) : Bool :=
  (scope.names n).isNone && (scope.declared.lookup n).isNone &&
    !isFunctionName n

def wholeMember
    (scope : TypeScope) (isOptional : Bool) (base : Expr) (n : Bytes) :
    Option (Expr × ExprType) :=
  match scope.names n with
  | some t => some (.name n, t)
  | none => if isOptional then some (.member true base n, .unknown) else none

end TypeScope

/-- An expression with a binary operator and its type.  Equality is that of the
type of the operands, and a pattern that is written out has to be one. -/
def typedBinary (op : BinaryOp) (l r : Expr × ExprType) :
    Option (Expr × ExprType) :=
  let badPattern := op = .matching && match r.1 with
    | .text s => (Pattern.parse? s).isNone
    | _ => false
  let same : Option BinaryOp :=
    if l.2.isInteger && r.2.isInteger then some .equalIntegers
    else if l.2.isText && r.2.isText then some .equalTexts
    else none
  if badPattern then none
  else
    (ExprType.ofBinary op l.2 r.2).map fun t =>
      match op, same with
      | .equal, some same => (.binary same l.1 r.1, t)
      | .unequal, some same => (.unary .not (.binary same l.1 r.1), t)
      | _, _ => (.binary op l.1 r.1, t)

mutual

def typed? (scope : TypeScope) : Expr → Option (Expr × ExprType)
  | .nil => some (.nil, .nil)
  | .boolean b => some (.boolean b, .boolean)
  | .integer n => some (.integer n, .integer)
  | .fraction x => some (.fraction x, .fraction)
  | .text s => some (.text s, .text)
  | .name n => (scope.name? n).map fun t => (.name n, t)
  | .pointer p =>
    match p with
    | .element => some (.pointer p, scope.element)
    | .position =>
      if scope.hasPosition then some (.pointer p, .integer) else none
    | .accumulator =>
      if scope.hasAccumulator then some (.pointer p, .unknown) else none
  | .list items =>
    (typedAll? scope items).map fun ts =>
      (.list (ts.map Prod.fst), ExprType.ofElements (ts.map Prod.snd))
  | .map entries =>
    (typedAll? scope entries).map fun ts =>
      (.map (ts.map Prod.fst), .map false .unknown)
  | .unary op e =>
    (typed? scope e).bind fun (e, t) =>
      (ExprType.ofUnary op t).map fun t => (.unary op e, t)
  | .binary op l r =>
    match typed? scope l, typed? scope r with
    | some l, some r => typedBinary op l r
    | _, _ => none
  | .choice c yes no =>
    match typed? scope c, typed? scope yes, typed? scope no with
    | some (c, t), some (yes, u), some (no, v) =>
      if t.may ExprType.isBoolean then
        some (.choice c yes no, ExprType.ofChoice u v)
      else none
    | _, _, _ => none
  | .index isOptional base position =>
    match typed? scope base, typed? scope position with
    | some (b, t), some (p, u) =>
      match scope.isWhole base, p with
      | true, .text n => scope.wholeMember isOptional base n
      | _, _ => (ExprType.ofIndex t u).map fun t => (.index isOptional b p, t)
    | _, _ => none
  | .member isOptional base n =>
    if scope.isWhole base then scope.wholeMember isOptional base n
    else
      (typed? scope base).bind fun (b, t) =>
        (ExprType.ofMember t).map fun t => (.member isOptional b n, t)
  | .method base n arguments =>
    match typed? scope base, typedAll? scope arguments with
    | some (b, t), some ts =>
      if (ExprType.ofMember t).any ExprType.isUnknown &&
          !scope.isWhole base then
        some (.method b n (ts.map Prod.fst), .unknown)
      else none
    | _, _ => none
  | .chain e => (typed? scope e).map fun (e, t) => (.chain e, t)
  | .sliceFrom base low =>
    match typed? scope base, typed? scope low with
    | some (b, t), some (l, u) =>
      (ExprType.ofSlice t u .integer).map fun t => (.sliceFrom b l, t)
    | _, _ => none
  | .slice base low high =>
    match typed? scope base, typed? scope low, typed? scope high with
    | some (b, t), some (l, u), some (h, v) =>
      (ExprType.ofSlice t u v).map fun t => (.slice b l h, t)
    | _, _, _ => none
  | .quantified q list body extra =>
    match typed? scope list, typedAll? scope extra with
    | some (l, t), some extra =>
      match t.element? with
      | none => none
      | some element =>
        (typed? (scope.within q element) body).bind fun (b, u) =>
          (ExprType.ofQuantified q t element u).map fun v =>
            (.quantified q l b (extra.map Prod.fst), v)
    | _, _ => none
  | .call f arguments =>
    match f, arguments, typedAll? scope arguments with
    | _, _, none => none
    | .get, [base, .text n], some ts =>
      if scope.isWhole base then
        some (((scope.names n).map fun t => (Expr.name n, t)).getD
          (.nil, .unknown))
      else
        (ExprType.ofCall f (ts.map Prod.snd)).map fun t =>
          (.call f (ts.map Prod.fst), t)
    | f, _, some ts =>
      (ExprType.ofCall f (ts.map Prod.snd)).map fun t =>
        (.call f (ts.map Prod.fst), t)
  | .declare n value body =>
    if scope.isFree n then
      match typed? scope value with
      | none => none
      | some (v, t) =>
        (typed? { scope with declared := (n, t) :: scope.declared } body).map
          fun (b, u) => (.declare n v b, u)
    else none
  | .sequence first second =>
    match typed? scope first, typed? scope second with
    | some (a, _), some (b, t) => some (.sequence a b, t)
    | _, _ => none

def typedAll? (scope : TypeScope) : List Expr → Option (List (Expr × ExprType))
  | [] => some []
  | e :: es =>
    match typed? scope e, typedAll? scope es with
    | some t, some ts => some (t :: ts)
    | _, _ => none

end

/-- The value of an integer expression without names. -/
def constant? : Expr → Option Int
  | .integer n => some n
  | .unary .negate e => (constant? e).map (- ·)
  | .unary .identity e => constant? e
  | .binary .add l r => (constant? l).bind fun a => (constant? r).map (a + ·)
  | .binary .subtract l r =>
    (constant? l).bind fun a => (constant? r).map (a - ·)
  | .binary .multiply l r =>
    (constant? l).bind fun a => (constant? r).map (a * ·)
  | .binary .remainder l r =>
    (constant? l).bind fun a => (constant? r).map (Int.tmod a)
  | _ => none

mutual

/-- Whether a remainder of constants has the divisor zero, which is refused
before evaluation. -/
def dividesByZero : Expr → Bool
  | .list items => anyDividesByZero items
  | .map entries => anyDividesByZero entries
  | .unary _ e => dividesByZero e
  | .binary op l r =>
    dividesByZero l || dividesByZero r
      || (op = .remainder && (constant? l).isSome && constant? r == some 0)
  | .choice c yes no => dividesByZero c || dividesByZero yes || dividesByZero no
  | .index _ base position => dividesByZero base || dividesByZero position
  | .member _ base _ => dividesByZero base
  | .method base _ arguments => dividesByZero base || anyDividesByZero arguments
  | .chain e => dividesByZero e
  | .sliceFrom base low => dividesByZero base || dividesByZero low
  | .slice base low high =>
    dividesByZero base || dividesByZero low || dividesByZero high
  | .quantified _ list body extra =>
    dividesByZero list || dividesByZero body || anyDividesByZero extra
  | .call _ arguments => anyDividesByZero arguments
  | .declare _ value body => dividesByZero value || dividesByZero body
  | .sequence first second => dividesByZero first || dividesByZero second
  | _ => false

def anyDividesByZero : List Expr → Bool
  | [] => false
  | e :: es => dividesByZero e || anyDividesByZero es

end

end Schemata.Rule
