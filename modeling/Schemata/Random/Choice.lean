/-!
# Choices

Random schemas and random changes ask for choices, one at a time, each among
finitely many.  Who runs them says how a choice is made: by a generator of
random numbers, or by a list of choices made in advance.
-/

namespace Schemata

class MonadChoose (m : Type → Type) where
  choose (last : Nat) : m (Fin (last + 1))

export MonadChoose (choose)

instance {m : Type → Type} {σ : Type} [Monad m] [MonadChoose m] :
    MonadChoose (StateT σ m) :=
  ⟨fun last => StateT.lift (choose last)⟩

instance {m : Type → Type} {ε : Type} [Monad m] [MonadChoose m] :
    MonadChoose (ExceptT ε m) :=
  ⟨fun last => ExceptT.lift (choose last)⟩

variable {m : Type → Type} [Monad m] [MonadChoose m]

/-- One of two, the first alternative being `true`. -/
def chooseFirst : m Bool := do
  let i ← choose 1
  return i.val == 0

/-- An element of a list that is not empty, given by its head and tail. -/
def chooseFrom {α : Type} (x : α) (xs : List α) : m α := do
  let i ← choose xs.length
  return (x :: xs).get i

end Schemata
