import Schemata.Proofs.Schema.Parts
import Mathlib.Tactic

/-!
# Schemas that compare equal

Two schemas compare equal only if they are the same schema.  The attributes
inherit this from the orders of numbers, truth values and lists; the schemas
inside are compared one by one.
-/

namespace Schemata

instance : Std.LawfulEqOrd Segment where
  compare_self {a} := by
    cases a with
    | index i => exact Std.ReflOrd.compare_self (a := i)
    | field name => exact Std.ReflOrd.compare_self (a := name)
  eq_of_compare {a b} h := by
    cases a <;> cases b
    case index.index i j =>
      exact congrArg Segment.index (Std.LawfulEqOrd.eq_of_compare h)
    case field.field name name' =>
      exact congrArg Segment.field (Std.LawfulEqOrd.eq_of_compare h)
    all_goals cases h

namespace Schema

theorem compareAll_eq_eq_iff
    {as bs : List Schema}
    (h : ∀ a ∈ as, ∀ b, a.compare b = .eq ↔ a = b) :
    compareAll as bs = .eq ↔ as = bs := by
  induction as generalizing bs with
  | nil => cases bs <;> simp [compareAll]
  | cons a as ih =>
      cases bs with
      | nil => simp [compareAll]
      | cons b bs =>
          have htail : compareAll as bs = .eq ↔ as = bs :=
            ih fun a' ha' => h a' (List.mem_cons_of_mem a ha')
          simp [compareAll, Ordering.then_eq_eq, h a List.mem_cons_self b,
            htail]

theorem compareFields_eq_eq_iff
    {fs gs : List (Bytes × Schema)}
    (h : ∀ f ∈ fs, ∀ b, f.2.compare b = .eq ↔ f.2 = b) :
    compareFields fs gs = .eq ↔ fs = gs := by
  induction fs generalizing gs with
  | nil => cases gs <;> simp [compareFields]
  | cons f fs ih =>
      cases gs with
      | nil => simp [compareFields]
      | cons g gs =>
          have htail : compareFields fs gs = .eq ↔ fs = gs :=
            ih fun f' hf' => h f' (List.mem_cons_of_mem f hf')
          simp [compareFields, Ordering.then_eq_eq,
            h f List.mem_cons_self g.2, htail, Prod.ext_iff, and_assoc]

theorem compareKind_eq_eq_iff (a b : Kind) :
    Ord.compare a b = .eq ↔ a = b := by
  constructor
  · intro h
    have hrank : a.rank = b.rank := Std.LawfulEqOrd.eq_of_compare h
    revert hrank
    cases a <;> cases b <;> simp [Kind.rank]
  · rintro rfl
    exact Std.ReflOrd.compare_self (a := a.rank)

theorem compare_of_kind_ne
    {a b : Schema} (h : a.kind ≠ b.kind) :
    a.compare b = Ord.compare a.kind b.kind := by
  rw [Schema.compare.eq_def]
  split <;> first | rfl | exact absurd rfl h

/-- The order tells all schemas apart. -/
theorem compare_eq_eq_iff (a b : Schema) :
    a.compare b = .eq ↔ a = b := by
  induction a using childrenInduction generalizing b with
  | step a ih =>
      by_cases hkind : a.kind = b.kind
      · cases a <;> cases b <;> simp only [kind, reduceCtorEq] at hkind
        all_goals
          simp only [children, List.mem_cons, List.not_mem_nil, or_false,
            forall_eq_or_imp, forall_eq] at ih
        case record.record fs gs =>
          rw [Schema.compare, compareFields_eq_eq_iff]
          · simp
          · intro f hf
            exact ih f.2 (List.mem_map_of_mem hf)
        case union.union ps qs =>
          rw [Schema.compare, compareAll_eq_eq_iff ih]
          simp
        all_goals
          simp [Schema.compare, Ordering.then_eq_eq, kind, ih,
            compareKind_eq_eq_iff]
      · rw [compare_of_kind_ne hkind, compareKind_eq_eq_iff]
        constructor
        · intro h
          exact absurd h hkind
        · rintro rfl
          rfl

theorem same_iff (a b : Schema) : a.same b = true ↔ a = b := by
  rw [same, beq_iff_eq, compare_eq_eq_iff]

end Schema

end Schemata
