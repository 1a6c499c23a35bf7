import Schemata.Random.Choice
import Schemata.Union

/-!
# Random schemas

Schemas chosen at random, without references and of bounded depth, for testing
code that compares schemas.  The order of the choices is fixed, so that one
generator always gives the same schemas.
-/

namespace Schemata

namespace Random

variable {m : Type → Type} [Monad m] [MonadChoose m]

def constructed (r : Except ConstructionError Schema) :
    ExceptT ConstructionError m Schema :=
  ExceptT.mk (pure r)

def charset : m Bytes := chooseFrom charsetBytes [charsetUtf8, charsetUtf32]

/-- No bound on a length, or one below ten. -/
def length : m Int := do
  if ← chooseFirst then return -1
  let n ← choose 9
  return n.val

def number : ExceptT ConstructionError m Schema := do
  let whole ← chooseFirst
  let signed ← chooseFirst
  let nbytes ← chooseFrom 1 [2, 4, 8]
  constructed (Build.number whole signed nbytes)

def string : ExceptT ConstructionError m Schema := do
  let charset ← charset
  let length ← length
  constructed (Build.string charset length)

def atom : ExceptT ConstructionError m Schema := do
  match (← choose 7).val with
  | 0 => return .null
  | 1 => return .boolean
  | 2 | 3 | 4 => number
  | 5 => if (← choose 3).val = 0 then return .anything else return .nothing
  | _ => string

def fieldName : m Bytes := do
  let i ← choose 5
  return [byte 'a' + i.val.toUInt8]

def several {α : Type} (action : m α) : Nat → m (List α)
  | 0 => return []
  | count + 1 => do
    let x ← action
    let xs ← several action count
    return x :: xs

variable [MonadReport m]

def layered : Nat → ExceptT ConstructionError m Schema
  | 0 => atom
  | depth + 1 => do
    match (← choose 9).val with
    | 0 | 1 => atom
    | 2 =>
      let rank := (← choose 2).val + 1
      let extents ← several (do return Int.ofNat ((← choose 4).val + 1)) rank
      let items ← layered depth
      constructed (Build.tensor items extents)
    | 3 | 4 =>
      let items ← layered depth
      let ordered ← chooseFirst
      let length ← length
      constructed (Build.collection items ordered length)
    | 5 =>
      let keys ← atom
      let values ← layered depth
      constructed (Build.mapping keys values)
    | 6 | 7 =>
      let count := (← choose 3).val + 1
      let fields ←
        several (do return (← fieldName, some (← layered depth))) count
      constructed (Build.record fields)
    | _ =>
      let count := (← choose 2).val + 1
      let possibilities ← several (some <$> layered depth) count
      Build.unionM possibilities

/-- A schema of at most the given depth; depths below zero count as zero. -/
def schema (depth : Int) : ExceptT ConstructionError m Schema :=
  if depth ≤ 0 then atom else layered depth.toNat

end Random

end Schemata
