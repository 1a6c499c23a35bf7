import Schemata.Proofs.Random.Perturb

/-!
# Choices made in advance

What can be reached by some choices is shown by giving the choices.  A script
is a list of choices that are handed out one by one, each of which has to be
within the bound that is asked for.  How an action ends with a script is put
together from its steps, so the choices for a change at some depth are those
that lead down to the node, followed by those that change it.
-/

namespace Schemata

/-- Choices made in advance.  The script is spoiled when a choice is asked for
that is not there or not within the bound. -/
inductive Script
  | choices (pending : List Nat)
  | spoiled

def Script.next (last : Nat) : Script → Fin (last + 1) × Script
  | .choices (i :: rest) =>
    if h : i < last + 1 then (⟨i, h⟩, .choices rest)
    else (⟨0, Nat.succ_pos last⟩, .spoiled)
  | _ => (⟨0, Nat.succ_pos last⟩, .spoiled)

instance : MonadChoose (StateM Script) := ⟨Script.next⟩

section Rules

variable {α β : Type}

/-- With these choices, each within its bound, an action ends like this and
leaves over the choices that follow. -/
def EndsIn (x : ExceptT ConstructionError (StateM Script) α)
    (choices : List Nat) (r : Except ConstructionError α) : Prop :=
  ∀ rest, x.run.run (.choices (choices ++ rest)) = (r, .choices rest)

variable {x : ExceptT ConstructionError (StateM Script) α}
  {f : α → ExceptT ConstructionError (StateM Script) β}
  {choices choices' : List Nat} {a : α} {e : ConstructionError}

theorem EndsIn.run_eq
    {r : Except ConstructionError α} (h : EndsIn x choices r) :
    x.run.run (.choices choices) = (r, .choices []) := by
  have hall := h []
  rwa [List.append_nil] at hall

theorem endsIn_pure (a : α) :
    EndsIn (pure a : ExceptT ConstructionError (StateM Script) α) []
      (.ok a) :=
  fun _ => rfl

theorem EndsIn.bind
    {r : Except ConstructionError β} (hx : EndsIn x choices (.ok a))
    (hf : EndsIn (f a) choices' r) :
    EndsIn (x >>= f) (choices ++ choices') r := by
  intro rest
  have hfirst := hx (choices' ++ rest)
  simp only [ExceptT.run_bind, StateT.run_bind, List.append_assoc, hfirst]
  exact hf rest

theorem EndsIn.bind_error (hx : EndsIn x choices (.error e)) :
    EndsIn (x >>= f) choices (.error e) := by
  intro rest
  simp only [ExceptT.run_bind, StateT.run_bind, hx rest]
  rfl

theorem EndsIn.map
    {g : α → β} {r : Except ConstructionError α} (hx : EndsIn x choices r) :
    EndsIn (g <$> x) choices (g <$> r) := by
  rw [map_eq_pure_bind]
  cases r with
  | ok a =>
      have hall := hx.bind (f := fun a => pure (g a)) (endsIn_pure (g a))
      rwa [List.append_nil] at hall
  | error e => exact hx.bind_error

theorem endsIn_constructed (result : Except ConstructionError Schema) :
    EndsIn (Random.constructed result) [] result :=
  fun _ => rfl

theorem endsIn_choose {last i : Nat} (h : i < last + 1) :
    EndsIn (choose last) [i] (.ok ⟨i, h⟩) := by
  intro rest
  have hnext : Script.next last (.choices (i :: rest)) =
      (⟨i, h⟩, .choices rest) := by
    simp [Script.next, h]
  exact congrArg (fun p : Fin (last + 1) × Script => (Except.ok p.1, p.2)) hnext

theorem endsIn_chooseFirst_true :
    EndsIn (chooseFirst : ExceptT ConstructionError (StateM Script) Bool) [0]
      (.ok true) :=
  fun _ => rfl

theorem endsIn_chooseFirst_false :
    EndsIn (chooseFirst : ExceptT ConstructionError (StateM Script) Bool) [1]
      (.ok false) :=
  fun _ => rfl

end Rules

namespace Perturb

open Schema Schemata.Random

section Target

variable {children : Nat} {choices : List Nat}
  {r : Except ConstructionError Schema}
  {f : Option Nat → ExceptT ConstructionError (StateM Script) Schema}

theorem exists_endsIn_target_none (h : EndsIn (f none) choices r) :
    ∃ choices', EndsIn (target children >>= f) choices' r := by
  by_cases hnone : children = 0
  · have htarget : EndsIn (target children) [] (.ok none) := by
      unfold target
      rw [if_pos hnone]
      exact endsIn_pure none
    exact ⟨choices, htarget.bind h⟩
  · have htarget : EndsIn (target children) [0] (.ok none) := by
      unfold target
      rw [if_neg hnone]
      exact (endsIn_choose (Nat.succ_pos children)).bind (endsIn_pure none)
    exact ⟨0 :: choices, htarget.bind h⟩

theorem exists_endsIn_target_some
    {i : Nat} (hi : i < children) (h : EndsIn (f (some i)) choices r) :
    ∃ choices', EndsIn (target children >>= f) choices' r := by
  have hinside : 1 < children + 1 := by omega
  have hplace : i < children - 1 + 1 := by omega
  have htarget : EndsIn (target children) [1, i] (.ok (some i)) := by
    unfold target
    rw [if_neg (by omega)]
    apply (endsIn_choose hinside).bind
    exact (endsIn_choose hplace).bind (endsIn_pure (some i))
  exact ⟨1 :: i :: choices, htarget.bind h⟩

end Target

variable {choices : List Nat} {r : Except ConstructionError Schema}

/-- Choices that change the outermost node of a schema change the schema. -/
theorem exists_endsIn_change_of_modify
    {s : Schema} (h : EndsIn (modify s) choices r) :
    ∃ choices', EndsIn (change s) choices' r := by
  cases s with
  | tensor | collection | mapping | record | union =>
      rw [change]
      exact exists_endsIn_target_none h
  | _ =>
      refine ⟨choices, ?_⟩
      rw [change]
      · exact h
      all_goals simp

theorem endsIn_changeAt
    {ps : List Schema} {i : Nat} (hi : i < ps.length)
    (h : EndsIn (change (ps.get ⟨i, hi⟩)) choices r) :
    EndsIn (changeAt i ps) choices (ps.set i <$> r) := by
  induction ps generalizing i with
  | nil => cases hi
  | cons p ps ih =>
      cases i with
      | zero =>
          have hfirst : EndsIn ((· :: ps) <$> change p) choices
              ((· :: ps) <$> r) := h.map
          rw [changeAt, bind_pure_comp]
          exact hfirst
      | succ i =>
          have hrest := ih (Nat.lt_of_succ_lt_succ hi) h
          have hall : EndsIn ((p :: ·) <$> changeAt i ps) choices
              ((p :: ·) <$> ps.set i <$> r) := hrest.map
          rw [changeAt, bind_pure_comp]
          cases r with
          | ok q => exact hall
          | error e => exact hall

/-- Choices with which a change inside fails make the whole change fail. -/
theorem exists_endsIn_change_of_child
    {s c : Schema} {e : ConstructionError} (hc : c ∈ s.children)
    (h : EndsIn (change c) choices (.error e)) :
    ∃ choices', EndsIn (change s) choices' (.error e) := by
  cases s with
  | tensor items dimensions =>
      obtain rfl : c = items := by simpa [children] using hc
      rw [change]
      exact exists_endsIn_target_some Nat.one_pos h.bind_error
  | collection items ordered maxLength =>
      obtain rfl : c = items := by simpa [children] using hc
      rw [change]
      exact exists_endsIn_target_some Nat.one_pos h.bind_error
  | mapping keys values =>
      have hcases : c = keys ∨ c = values := by simpa [children] using hc
      rw [change]
      rcases hcases with rfl | rfl
      · exact exists_endsIn_target_some Nat.two_pos h.bind_error
      · exact exists_endsIn_target_some Nat.one_lt_two h.bind_error
  | record fields =>
      obtain ⟨i, hi, rfl⟩ := List.getElem_of_mem hc
      have hplace : i < fields.length := by simpa [children] using hi
      have hfails : EndsIn (changeField i fields) choices (.error e) := by
        rw [changeField_eq]
        exact (endsIn_changeAt hi h).map
      rw [change]
      exact exists_endsIn_target_some hplace hfails.bind_error
  | union possibilities =>
      obtain ⟨i, hi, rfl⟩ := List.getElem_of_mem hc
      have hfails : EndsIn (changeAt i possibilities) choices (.error e) :=
        endsIn_changeAt hi h
      rw [change]
      exact exists_endsIn_target_some hi hfails.bind_error
  | _ => cases hc

end Perturb

end Schemata
