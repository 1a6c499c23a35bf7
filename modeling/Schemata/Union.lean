import Schemata.Schema.Build
import Schemata.Subtyping

/-!
# Unions

The possibilities given for a union are flattened and inserted one at a time.  A
candidate that a possibility already there covers is dropped, and possibilities
that the candidate covers are removed.  The rest is sorted.  A comparison that
fails to resolve a reference covers nothing.

Candidates that were inserted before and are still there are recognised by a
key, without any comparison.
-/

namespace Schemata

namespace Schema

mutual

/-- The schemas a union chooses from, with unions among them opened up; any
other schema is its own. -/
def flatten : Schema → List Schema
  | .union ps => flattenAll ps
  | s => [s]

def flattenAll : List Schema → List Schema
  | [] => []
  | p :: ps => p.flatten ++ flattenAll ps

end

end Schema

namespace Union

/-- The state of inserting: the possibilities kept, and all ever kept, by
key. -/
structure Normalizer where
  kept : List Schema := []
  seen : List (UInt64 × Schema) := []

variable {m : Type → Type} [Monad m] [MonadReport m]

/-- Whether `super` covers `sub`; an unresolved reference covers nothing. -/
def covers (key : Schema → UInt64) (super sub : Schema) : m Bool := do
  match ← Schema.isSubtypeInM key super sub (some sub) with
  | .ok b => return b
  | .error _ => return false

/-- Compares a candidate with the possibilities kept, from the last to the
first.  Gives those that remain and whether one of them covers the candidate. -/
def scan (key : Schema → UInt64) (candidate : Schema) :
    List Schema → m (List Schema × Bool)
  | [] => return ([], false)
  | p :: ps => do
    let (kept, found) ← scan key candidate ps
    if ← covers key p candidate then
      report (.covered candidate p)
      return (p :: kept, true)
    else if ← covers key candidate p then
      report (.removed p candidate)
      return (kept, found)
    else return (p :: kept, found)

/-- Whether a candidate equals a possibility that is kept, found by its key. -/
def Normalizer.recognises (n : Normalizer) (key : UInt64) (candidate : Schema) :
    Bool :=
  n.seen.any fun (k, q) =>
    k == key && candidate.same q && n.kept.any fun p => p.same q

/-- Inserts a candidate that is no union. -/
def insert (key : Schema → UInt64) (n : Normalizer) (candidate : Schema) :
    m Normalizer := do
  let k := key candidate
  if n.recognises k candidate then return n
  let (kept, found) ← scan key candidate n.kept
  if found then return { n with kept }
  else
    return { kept := kept ++ [candidate], seen := n.seen ++ [(k, candidate)] }

def normalize (key : Schema → UInt64) (given : List Schema) :
    m (List Schema) := do
  let n ← (Schema.flattenAll given).foldlM (insert key) {}
  report (.normalized given.length n.kept.length)
  return sortBy Schema.compare n.kept

end Union

namespace Build

def possibilities :
    List (Option Schema) → Except ConstructionError (List Schema)
  | [] => .ok []
  | none :: _ => .error .missingPossibility
  | some p :: rest =>
    match possibilities rest with
    | .error e => .error e
    | .ok more => .ok (p :: more)

def unionM
    {m : Type → Type} [Monad m] [MonadReport m] (given : List (Option Schema)) :
    ExceptT ConstructionError m Schema := do
  let ps ← ExceptT.mk (pure (possibilities given))
  return .union (← ExceptT.lift (Union.normalize Schema.hash ps))

def union (given : List (Option Schema)) : Except ConstructionError Schema :=
  Id.run (unionM given).run

end Build

end Schemata
