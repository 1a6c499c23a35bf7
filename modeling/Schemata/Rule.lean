import Schemata.Rule.Eval
import Schemata.Rule.Typing
import Schemata.Schema
import Schemata.Rebuild

/-!
# Rules

A rule is a condition on a single node of a schema, written as an expression
over the attributes of the node.  An attribute that nodes of a kind do not have
is false, zero or empty there.
-/

namespace Schemata

structure Node where
  kind : Bytes
  whole : Bool := false
  signed : Bool := false
  nbytes : Nat := 0
  charset : Bytes := []
  bounded : Bool := false
  /-- The bound on the length, or -1 where there may be one and is none. -/
  maxLength : Int := 0
  dimensions : List Nat := []
  ordered : Bool := false
  fields : List Bytes := []
  primitiveFields : Bool := false
  possibilities : Nat := 0
  /-- Whether one possibility is the absence of a value. -/
  nullable : Bool := false

namespace Node

def rank (n : Node) : Nat := n.dimensions.length

/-- Whether a schema is a truth value, a number or a string, or a union of one
of these alone. -/
def isPrimitive (s : Schema) : Bool :=
  let inner := match s with
    | .union [p] => p
    | s => s
  match inner.kind with
  | .boolean | .number | .string => true
  | _ => false

def ofSchema (s : Schema) : Node :=
  let kind := s.kind.name
  match s with
  | .number whole signed nbytes => { kind, whole, signed, nbytes }
  | .string charset maxLength =>
    { kind, charset, bounded := maxLength.isSome,
      maxLength := Layer.lengthBound maxLength }
  | .tensor _ dimensions => { kind, dimensions }
  | .collection _ ordered maxLength =>
    { kind, ordered, bounded := maxLength.isSome,
      maxLength := Layer.lengthBound maxLength }
  | .record fields =>
    { kind, fields := fields.map Prod.fst,
      primitiveFields := fields.all fun f => isPrimitive f.2 }
  | .union possibilities =>
    { kind, possibilities := possibilities.length,
      nullable := possibilities.any fun p => p.kind = .null }
  | _ => { kind }

end Node

structure Rule where
  source : Bytes
  body : Rule.Expr

namespace Rule

/-- A list of a node; where it is empty there is none. -/
def listOf (items : List Datum) : Datum :=
  if items.isEmpty then .noList else .list items

def attributes : List (Bytes × ExprType × (Node → Datum)) :=
  [("kind", .text, fun n => .text n.kind),
    ("whole", .boolean, fun n => .boolean n.whole),
    ("signed", .boolean, fun n => .boolean n.signed),
    ("nbytes", .integer, fun n => .integer n.nbytes),
    ("charset", .text, fun n => .text n.charset),
    ("bounded", .boolean, fun n => .boolean n.bounded),
    ("maxlength", .integer, fun n => .integer n.maxLength),
    ("rank", .integer, fun n => .integer n.rank),
    ("dimensions", .list true .integer,
     fun n => listOf (n.dimensions.map fun d : Nat => .integer d)),
    ("ordered", .boolean, fun n => .boolean n.ordered),
    ("fields", .list true .text, fun n => listOf (n.fields.map .text)),
    ("primitiveFields", .boolean, fun n => .boolean n.primitiveFields),
    ("possibilities", .integer, fun n => .integer n.possibilities),
    ("nullable", .boolean, fun n => .boolean n.nullable)]

/-- A rule from its text, if the text is an expression whose value is a truth
value. -/
def compile? (source : Bytes) : Option Rule :=
  match parse? source with
  | none => none
  | some e =>
    match typed? { names := fun n => (attributes.lookup n).map Prod.fst } e with
    | none => none
    | some (body, t) =>
      if t.may ExprType.isBoolean && !dividesByZero body then
        some ⟨source, body⟩
      else none

def attributesOf (node : Node) : List (Bytes × Datum) :=
  attributes.map fun (name, _, value) => (name, value node)

/-- Whether a node satisfies a rule; where the rule has no value it does not. -/
def holds (rule : Rule) (node : Node) : Bool :=
  match eval { names := attributesOf node } rule.body with
  | .ok (.boolean b) => b
  | _ => false

end Rule

structure RuleError where
  kind : Kind
  source : Bytes

def RuleError.message (e : RuleError) : Bytes :=
  "backend rule error: " ++ e.kind.name ++ " rule " ++ Text.quote e.source ++
    ": "

abbrev RuleTable := List (Kind × Rule)

namespace RuleTable

/-- Compiles rules by kind; the first text that is no rule is the error. -/
def compile : List (Kind × Bytes) → Except RuleError RuleTable
  | [] => .ok []
  | (kind, source) :: rest =>
    match Rule.compile? source with
    | none => .error ⟨kind, source⟩
    | some rule =>
      match compile rest with
      | .error e => .error e
      | .ok table => .ok ((kind, rule) :: table)

def allows (table : RuleTable) (s : Schema) : Bool :=
  match table.lookup s.kind with
  | some rule => rule.holds (Node.ofSchema s)
  | none => true

end RuleTable

end Schemata
