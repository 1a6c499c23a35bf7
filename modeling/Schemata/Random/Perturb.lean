import Schemata.Random
import Schemata.Rebuild

/-!
# Random changes

A changed copy of a schema differs from it in one node chosen at random.  A
change that happens to give an equal schema is tried again.
-/

namespace Schemata

namespace Perturb

variable {m : Type → Type} [Monad m] [MonadChoose m] [MonadReport m]

def wrap (n : Int) : Int := Int.bmod n wordCount

/-- Changes one attribute of the outermost node, or replaces it. -/
def modify : Schema → ExceptT ConstructionError m Schema
  | .number whole signed nbytes => do
    match (← choose 2).val with
    | 0 => Random.constructed (Build.number (!whole) signed nbytes)
    | 1 => Random.constructed (Build.number whole (!signed) nbytes)
    | _ => Random.constructed (Build.number whole signed (wrap (nbytes * 2)))
  | .string charset maxLength => do
    if ← chooseFirst then
      let charset ← Random.charset
      Random.constructed (Build.string charset (Layer.lengthBound maxLength))
    else
      let length ← Random.length
      Random.constructed (Build.string charset length)
  | .tensor items dimensions => do
    let extents := dimensions.map Int.ofNat
    if ← chooseFirst then
      let i ← choose (dimensions.length - 1)
      Random.constructed
        (Build.tensor items (extents.modify i.val fun d => wrap (d + 1)))
    else
      let last ← choose 2
      Random.constructed
        (Build.tensor items (extents ++ [Int.ofNat (last.val + 1)]))
  | .collection items ordered maxLength => do
    if ← chooseFirst then
      Random.constructed
        (Build.collection items (!ordered) (Layer.lengthBound maxLength))
    else
      let length ← Random.length
      Random.constructed (Build.collection items ordered length)
  | .record fields => do
    let entries := fields.map fun (name, f) => (name, some f)
    let erase ← if fields.isEmpty then pure false else chooseFirst
    if erase then
      let i ← choose (fields.length - 1)
      Random.constructed (Build.record (entries.eraseIdx i.val))
    else
      let added ← Random.atom
      Random.constructed
        (Build.record (entries ++ [("f" ++ decimal fields.length, some added)]))
  | .union possibilities => do
    let added ← Random.atom
    Build.unionM ((possibilities ++ [added]).map some)
  | .reference path => return .reference (path ++ [.field "x"])
  | _ => Random.atom

/-- Which node below a node with `children` children is changed: `none` for the
node itself. -/
def target (children : Nat) : m (Option Nat) := do
  if children = 0 then return none
  if (← choose children).val = 0 then return none
  let i ← choose (children - 1)
  return some i.val

mutual

/-- A copy in which one node is changed; the copy may be equal. -/
def change : Schema → ExceptT ConstructionError m Schema
  | .tensor items dimensions => do
    match ← target 1 with
    | none => modify (.tensor items dimensions)
    | some _ =>
      let items ← change items
      Random.constructed (Build.tensor items (dimensions.map Int.ofNat))
  | .collection items ordered maxLength => do
    match ← target 1 with
    | none => modify (.collection items ordered maxLength)
    | some _ =>
      let items ← change items
      Random.constructed
        (Build.collection items ordered (Layer.lengthBound maxLength))
  | .mapping keys values => do
    match ← target 2 with
    | none => modify (.mapping keys values)
    | some 0 =>
      let keys ← change keys
      Random.constructed (Build.mapping keys values)
    | some _ =>
      let values ← change values
      Random.constructed (Build.mapping keys values)
  | .record fields => do
    match ← target fields.length with
    | none => modify (.record fields)
    | some i =>
      let fields ← changeField i fields
      Random.constructed
        (Build.record (fields.map fun (name, f) => (name, some f)))
  | .union possibilities => do
    match ← target possibilities.length with
    | none => modify (.union possibilities)
    | some i =>
      let possibilities ← changeAt i possibilities
      Build.unionM (possibilities.map some)
  | s => modify s

def changeAt : Nat → List Schema → ExceptT ConstructionError m (List Schema)
  | _, [] => return []
  | 0, p :: ps => do return (← change p) :: ps
  | i + 1, p :: ps => do return p :: (← changeAt i ps)

def changeField :
    Nat → List (Bytes × Schema) →
    ExceptT ConstructionError m (List (Bytes × Schema))
  | _, [] => return []
  | 0, (name, f) :: rest => do return (name, ← change f) :: rest
  | i + 1, f :: rest => do return f :: (← changeField i rest)

end

/-- A copy that is not equal, or `none` if all of the given number of attempts
gave an equal one. -/
def different (s : Schema) : Nat → ExceptT ConstructionError m (Option Schema)
  | 0 => return none
  | attempts + 1 => do
    let changed ← change s
    if changed.same s then different s attempts else return some changed

/-- How many attempts are made unless another number is asked for.  Trying
needs no bound, since for every schema some choices give one that is not equal;
this one is out of reach, and only makes the attempts end. -/
def patience : Nat := 1048576

end Perturb

/-- A random copy of a schema that is not equal to it, or `none` if it takes
more attempts to find one.  A missing schema becomes a random one without
parts. -/
def Schema.perturb {m : Type → Type} [Monad m] [MonadChoose m] [MonadReport m]
    (s : Option Schema) (attempts : Nat := Perturb.patience) :
    ExceptT ConstructionError m (Option Schema) :=
  match s with
  | none => some <$> Random.atom
  | some s => Perturb.different s attempts

end Schemata
