import Schemata.Number.Decimal
import Schemata.Random.Choice

/-!
# Random numbers

A permuted congruential generator: a linear congruence on 128 bits, whose state
is folded to the 64 bits of a draw.  Choices among `n` scale a draw down to `n`
and refuse the few draws that would favour some choice over others.
-/

namespace Schemata

structure Generator where
  state : BitVec 128

namespace Generator

/-- The generator of two seeds, which are the upper and the lower half of its
state. -/
def ofSeeds (upper lower : Nat) : Generator :=
  ⟨BitVec.ofNat 64 upper ++ BitVec.ofNat 64 lower⟩

def factor : BitVec 128 := 2549297995355413924#64 ++ 4865540595714422341#64

def summand : BitVec 128 := 6364136223846793005#64 ++ 1442695040888963407#64

def next (g : Generator) : Generator := ⟨g.state * factor + summand⟩

def output (g : Generator) : BitVec 64 :=
  let upper := g.state.extractLsb' 64 64
  let lower := g.state.extractLsb' 0 64
  let mixed := (upper ^^^ upper >>> 32) * 0xda942042e4dd58b5#64
  (mixed ^^^ mixed >>> 48) * (lower ||| 1#64)

def draw (g : Generator) : BitVec 64 × Generator := (g.next.output, g.next)

def isPowerOfTwo (n : Nat) : Bool := n &&& (n - 1) == 0

/-- A number from 0 to `last`.  A draw whose scaled remainder is below 2^64
modulo the number of choices is drawn again, at most `fuel` times. -/
def below (last : Nat) : Nat → Generator → Fin (last + 1) × Generator
  | fuel, g =>
    let (x, g) := g.draw
    if isPowerOfTwo (last + 1) then (Fin.ofNat (last + 1) x.toNat, g)
    else
      let product := x.toNat * (last + 1)
      let choice := Fin.ofNat (last + 1) (product / wordCount)
      match fuel with
      | 0 => (choice, g)
      | fuel + 1 =>
        if product % wordCount < wordCount % (last + 1) then below last fuel g
        else (choice, g)

/-- How often a draw is refused before it is taken as it is.  A refusal has a
chance of less than the number of choices in 2^64. -/
def patience : Nat := 64

end Generator

instance {m : Type → Type} [Monad m] : MonadChoose (StateT Generator m) :=
  ⟨fun last g => pure (Generator.below last Generator.patience g)⟩

end Schemata
