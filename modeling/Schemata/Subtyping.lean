import Schemata.Diagnostics
import Schemata.Schema.Fingerprint
import Schemata.Schema.Order

/-!
# Subtyping

A schema `sub` is a subtype of `super` if its values can be used wherever those
of `super` are asked for.  The rules are tried in a fixed order, after unions of
one possibility have been replaced by it.  Against a union every possibility of
the subtype has to be covered; against any other schema one possibility of a
union is enough.

References on either side are resolved in a root schema.  A root may refer back
into itself, so a pair that is met again below itself, on the way through a
reference, is assumed to hold.  The assumed pairs are kept in a table under a
key of each side and are taken out again as the comparison returns, with an
answer or with an error.  The nesting depth of the comparison is bounded by the
sizes of the three schemas: between two resolved references it only goes down,
and every resolved pair is new.
-/

namespace Schemata

namespace Schema

mutual

/-- The number of nodes and extents of a schema. -/
def weight : Schema → Nat
  | .tensor items dimensions => items.weight + dimensions.length + 1
  | .collection items _ _ => items.weight + 1
  | .mapping keys values => keys.weight + values.weight + 1
  | .record fields => fieldsWeight fields + 1
  | .union possibilities => allWeight possibilities + 1
  | _ => 1

def allWeight : List Schema → Nat
  | [] => 0
  | p :: ps => p.weight + allWeight ps

def fieldsWeight : List (Bytes × Schema) → Nat
  | [] => 0
  | (_, f) :: rest => f.weight + fieldsWeight rest

end

end Schema

namespace Subtyping

/-- Numbers are covered if they are no more fractional, of the same signedness
and no wider. -/
def coversNumber
    (whole signed : Bool) (nbytes : Nat) (whole' signed' : Bool)
    (nbytes' : Nat) : Bool :=
  !(whole && !whole') && signed == signed' && nbytes' ≤ nbytes

/-- A bound on lengths covers bounds that are no larger; no bound covers
everything. -/
def coversLength : Option Nat → Option Nat → Bool
  | none, _ => true
  | some _, none => false
  | some n, some n' => n' ≤ n

abbrev Pair := Schema × Schema

/-- What pairs are filed under: the keys of both sides. -/
abbrev Key := UInt64 × UInt64

abbrev Assumptions := List (Key × List Pair)

namespace Assumptions

def holds (table : Assumptions) (key : Key) (super sub : Schema) : Bool :=
  ((table.lookup key).getD []).any fun (super', sub') =>
    super'.same super && sub'.same sub

def push (key : Key) (pair : Pair) : Assumptions → Assumptions
  | [] => [(key, [pair])]
  | (key', pairs) :: rest =>
    if key' = key then (key', pairs ++ [pair]) :: rest
    else (key', pairs) :: push key pair rest

/-- Takes out the pair assumed last under a key. -/
def pop (key : Key) : Assumptions → Assumptions
  | [] => []
  | (key', pairs) :: rest =>
    if key' = key then
      if pairs.length ≤ 1 then rest else (key', pairs.dropLast) :: rest
    else (key', pairs) :: pop key rest

end Assumptions

inductive Failure
  | unresolved (cause : DereferenceError)
  /-- The bound on the depth is used up. -/
  | exhausted

/-- Comparisons change the table of assumed pairs, and keep it when they
fail. -/
abbrev CheckT (m : Type → Type) := ExceptT Failure (StateT Assumptions m)

variable {m : Type → Type} [Monad m] [MonadReport m]

/-- Compares what a reference resolves to, with the pair assumed meanwhile. -/
def through
    (key : Schema → UInt64) (root : Option Schema) (super sub : Schema)
    (path : Path) (compareTarget : Schema → CheckT m Bool) : CheckT m Bool := do
  let k : Key := (key super, key sub)
  if Assumptions.holds (← get) k super sub then return true
  match ← Schema.resolveM root path with
  | .error cause => throw (.unresolved cause)
  | .ok target =>
    modify (Assumptions.push k (super, sub))
    ExceptT.mk do
      let answer ← (compareTarget target).run
      modify (Assumptions.pop k)
      return answer

/-- Compares two schemas, given how the pairs that this comes down to are
compared. -/
def checkBy (key : Schema → UInt64) (root : Option Schema)
    (nested : Schema → Schema → CheckT m Bool) (super sub : Schema) :
    CheckT m Bool :=
  let super := super.unwrap
  let sub := sub.unwrap
  if super.kind = .anything || super.same sub || sub.kind = .nothing then
    return true
  else
    match super, sub with
    | .nothing, _ => return false
    | .reference path, _ =>
      through key root super sub path fun target => nested target sub
    | .union ps, .union qs => qs.allM fun q => ps.anyM fun p => nested p q
    | .union ps, _ => ps.anyM fun p => nested p sub
    | _, .reference path =>
      through key root super sub path fun target => nested super target
    | _, .union qs => qs.anyM fun q => nested super q
    | .number w s n, .number w' s' n' => return coversNumber w s n w' s' n'
    | .string c l, .string c' l' => return c == c' && coversLength l l'
    | .tensor items ds, .tensor items' ds' =>
      if ds == ds' then nested items items' else return false
    | .collection items o l, .collection items' o' l' =>
      if !(o && !o') && coversLength l l' then nested items items'
      else return false
    | .mapping k v, .mapping k' v' => do
      if ← nested k k' then nested v v' else return false
    | .record fs, .record fs' => fs.allM fun (name, f) =>
      match Schema.field? name fs' with
      | some f' => nested f f'
      | none => return false
    | _, _ => return false

def check (key : Schema → UInt64) (root : Option Schema) :
    Nat → Schema → Schema → CheckT m Bool
  | 0, _, _ => throw .exhausted
  | depth + 1, super, sub =>
    checkBy key root (check key root depth) super sub

/-- A depth that every comparison of the two schemas in the root stays below. -/
def depthBound (super sub : Schema) (root : Option Schema) : Nat :=
  let total := super.weight + sub.weight + root.elim 0 Schema.weight
  (total * total + 1) * (2 * total + 2)

/-- The answer of a comparison that stays below its depth bound. -/
def answerOf : Except Failure Bool → Except DereferenceError Bool
  | .ok b => .ok b
  | .error (.unresolved cause) => .error cause
  | .error .exhausted => .ok false

end Subtyping

namespace Schema

variable {m : Type → Type} [Monad m] [MonadReport m]

def isSubtypeInM
    (key : Schema → UInt64) (super sub : Schema) (root : Option Schema) :
    m (Except DereferenceError Bool) := do
  let depth := Subtyping.depthBound super sub root
  let (result, _) ← (Subtyping.check key root depth super sub).run.run []
  let answer := Subtyping.answerOf result
  report (.subtype super sub answer)
  return answer

/-- Whether `sub` is a subtype of `super`, with references resolved in
`root`. -/
def isSubtypeIn (super sub : Schema) (root : Option Schema) :
    Except DereferenceError Bool :=
  Id.run (isSubtypeInM hash super sub root)

/-- Whether `sub` is a subtype of `super`, with references resolved in `sub`. -/
def isSubtype (super sub : Schema) : Except DereferenceError Bool :=
  isSubtypeIn super sub (some sub)

end Schema

end Schemata
