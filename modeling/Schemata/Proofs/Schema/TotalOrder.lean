import Schemata.Proofs.Schema.Order

/-!
# The order of schemas is total

Comparing two schemas the other way round gives the opposite answer, and the
comparisons of three schemas in a row fit together.  Both go through
lexicographic combination, of two comparisons and along lists, so they pass
from the attributes and the schemas inside to the schema around them.
-/

namespace Schemata

/-- How the comparisons of three things in a row fit together. -/
structure InRow (ab bc ac : Ordering) : Prop where
  lt_of_lt : ab = .lt → bc = .lt → ac = .lt
  of_eq_left : ab = .eq → ac = bc
  of_eq_right : bc = .eq → ac = ab

theorem InRow.then_of_eq
    {ab bc ac ab' bc' ac' : Ordering} (h : InRow ab bc ac)
    (h' : ab = .eq → bc = .eq → InRow ab' bc' ac') :
    InRow (ab.then ab') (bc.then bc') (ac.then ac') := by
  obtain ⟨hlt, hleft, hright⟩ := h
  by_cases heq : ab = .eq ∧ bc = .eq
  · obtain ⟨rfl, rfl⟩ := heq
    rw [hleft rfl]
    exact h' rfl rfl
  · clear h'
    cases ab <;> cases bc <;> simp_all <;> constructor <;> simp_all

theorem InRow.then
    {ab bc ac ab' bc' ac' : Ordering}
    (h : InRow ab bc ac) (h' : InRow ab' bc' ac') :
    InRow (ab.then ab') (bc.then bc') (ac.then ac') :=
  h.then_of_eq fun _ _ => h'

theorem InRow.isLE
    {ab bc ac : Ordering} (h : InRow ab bc ac)
    (hab : ab.isLE = true) (hbc : bc.isLE = true) : ac.isLE = true := by
  obtain ⟨hlt, hleft, hright⟩ := h
  cases ab <;> cases bc <;> simp_all

theorem inRow_compare
    {α : Type} [Ord α] [Std.TransOrd α] (a b c : α) :
    InRow (compare a b) (compare b c) (compare a c) where
  lt_of_lt := Std.TransCmp.lt_trans
  of_eq_left := Std.TransCmp.congr_left
  of_eq_right := fun h => (Std.TransCmp.congr_right h).symm

section Lists

variable {α : Type} {cmp : α → α → Ordering}

theorem compareLex_swap
    {as bs : List α} (h : ∀ a ∈ as, ∀ b, cmp a b = (cmp b a).swap) :
    as.compareLex cmp bs = (bs.compareLex cmp as).swap := by
  induction as generalizing bs with
  | nil => cases bs <;> rfl
  | cons a as ih =>
      cases bs with
      | nil => rfl
      | cons b bs =>
          have htail : as.compareLex cmp bs = (bs.compareLex cmp as).swap :=
            ih fun a' ha' => h a' (List.mem_cons_of_mem a ha')
          simp only [List.compareLex_cons_cons, Ordering.swap_then,
            ← h a List.mem_cons_self b, ← htail]

theorem inRow_compareLex
    {as bs cs : List α}
    (h : ∀ a ∈ as, ∀ b c, InRow (cmp a b) (cmp b c) (cmp a c)) :
    InRow (as.compareLex cmp bs) (bs.compareLex cmp cs)
      (as.compareLex cmp cs) := by
  induction as generalizing bs cs with
  | nil => cases bs <;> cases cs <;> constructor <;> simp [List.compareLex]
  | cons a as ih =>
      cases bs with
      | nil => cases cs <;> constructor <;> simp [List.compareLex]
      | cons b bs =>
          cases cs with
          | nil => constructor <;> simp [List.compareLex]
          | cons c cs =>
              simp only [List.compareLex_cons_cons]
              exact (h a List.mem_cons_self b c).then
                (ih fun a' ha' => h a' (List.mem_cons_of_mem a ha'))

end Lists

instance : Std.OrientedOrd Kind where
  eq_swap {a b} := Std.OrientedOrd.eq_swap (a := a.rank) (b := b.rank)

instance : Std.TransOrd Kind where
  isLE_trans {a b c} hab hbc :=
    Std.TransOrd.isLE_trans (a := a.rank) (b := b.rank) (c := c.rank) hab hbc

instance : Std.OrientedOrd Segment where
  eq_swap {a b} := by
    cases a <;> cases b
    case index.index i j =>
      exact Std.OrientedOrd.eq_swap (a := i) (b := j)
    case field.field name name' =>
      exact Std.OrientedOrd.eq_swap (a := name) (b := name')
    all_goals rfl

instance : Std.TransOrd Segment where
  isLE_trans {a b c} hab hbc := by
    cases a <;> cases b <;> cases c
    case index.index.index i j k =>
      exact Std.TransOrd.isLE_trans (a := i) (b := j) (c := k) hab hbc
    case field.field.field name name' name'' =>
      exact Std.TransOrd.isLE_trans (a := name) (b := name') (c := name'')
        hab hbc
    all_goals first
      | rfl
      | exact absurd hab Bool.false_ne_true
      | exact absurd hbc Bool.false_ne_true

namespace Schema

theorem compareAll_eq_compareLex (as bs : List Schema) :
    compareAll as bs = as.compareLex Schema.compare bs := by
  induction as generalizing bs with
  | nil => cases bs <;> rfl
  | cons a as ih =>
      cases bs with
      | nil => rfl
      | cons b bs => rw [compareAll, List.compareLex_cons_cons, ih]

def compareField (f g : Bytes × Schema) : Ordering :=
  (Ord.compare f.1 g.1).then (f.2.compare g.2)

theorem compareFields_eq_compareLex (fs gs : List (Bytes × Schema)) :
    compareFields fs gs = fs.compareLex compareField gs := by
  induction fs generalizing gs with
  | nil => cases gs <;> rfl
  | cons f fs ih =>
      cases gs with
      | nil => rfl
      | cons g gs =>
          rw [compareFields, List.compareLex_cons_cons, ih, compareField,
            Ordering.then_assoc]

theorem compare_swap (a b : Schema) :
    a.compare b = (b.compare a).swap := by
  induction a using childrenInduction generalizing b with
  | step a ih =>
      by_cases hkind : a.kind = b.kind
      · have hattribute : ∀ {α : Type} [Ord α] [Std.OrientedOrd α] (x y : α),
            (compare y x).swap = compare x y :=
          fun x y => Std.OrientedCmp.eq_swap.symm
        cases a <;> cases b <;> simp only [kind, reduceCtorEq] at hkind
        all_goals
          simp only [children, List.mem_cons, List.not_mem_nil, or_false,
            forall_eq_or_imp, forall_eq] at ih
        case record.record fs gs =>
          simp only [Schema.compare, compareFields_eq_compareLex]
          apply compareLex_swap
          intro f hf g
          simp only [compareField, Ordering.swap_then, hattribute,
            ← ih f.2 (List.mem_map_of_mem hf)]
        case union.union ps qs =>
          simp only [Schema.compare, compareAll_eq_compareLex]
          exact compareLex_swap ih
        case tensor.tensor | collection.collection =>
          simp only [Schema.compare, Ordering.swap_then, hattribute, ← ih]
        case mapping.mapping =>
          simp only [Schema.compare, Ordering.swap_then, ← ih.1, ← ih.2]
        all_goals
          simp only [Schema.compare, Ordering.swap_then, hattribute]
      · rw [compare_of_kind_ne hkind, compare_of_kind_ne (Ne.symm hkind)]
        exact Std.OrientedOrd.eq_swap

theorem compare_eq_then (a b : Schema) :
    a.compare b = (Ord.compare a.kind b.kind).then (a.compare b) := by
  by_cases hkind : a.kind = b.kind
  · rw [(compareKind_eq_eq_iff _ _).mpr hkind, Ordering.then]
  · rw [compare_of_kind_ne hkind]
    cases Ord.compare a.kind b.kind <;> rfl

theorem inRow_compareSchemas (a b c : Schema) :
    InRow (a.compare b) (b.compare c) (a.compare c) := by
  induction a using childrenInduction generalizing b c with
  | step a ih =>
      rw [compare_eq_then a b, compare_eq_then b c, compare_eq_then a c]
      refine (inRow_compare a.kind b.kind c.kind).then_of_eq ?_
      intro hab hbc
      rw [compareKind_eq_eq_iff] at hab hbc
      cases a <;> cases b <;> simp only [kind, reduceCtorEq] at hab <;>
        cases c <;> simp only [kind, reduceCtorEq] at hbc
      all_goals
        simp only [children, List.mem_cons, List.not_mem_nil, or_false,
          forall_eq_or_imp, forall_eq] at ih
        simp only [Schema.compare]
      case number.number.number =>
        exact (inRow_compare _ _ _).then
          ((inRow_compare _ _ _).then (inRow_compare _ _ _))
      case string.string.string =>
        exact (inRow_compare _ _ _).then (inRow_compare _ _ _)
      case tensor.tensor.tensor =>
        exact (ih _ _).then (inRow_compare _ _ _)
      case collection.collection.collection =>
        exact (ih _ _).then
          ((inRow_compare _ _ _).then (inRow_compare _ _ _))
      case mapping.mapping.mapping => exact (ih.1 _ _).then (ih.2 _ _)
      case record.record.record =>
        simp only [compareFields_eq_compareLex]
        apply inRow_compareLex
        intro f hf g k
        exact (inRow_compare f.1 g.1 k.1).then
          (ih f.2 (List.mem_map_of_mem hf) g.2 k.2)
      case union.union.union =>
        simp only [compareAll_eq_compareLex]
        exact inRow_compareLex ih
      all_goals exact inRow_compare _ _ _

instance : Std.OrientedCmp Schema.compare where
  eq_swap {a b} := compare_swap a b

instance : Std.TransCmp Schema.compare where
  isLE_trans {a b c} := (inRow_compareSchemas a b c).isLE

instance : Std.LawfulEqCmp Schema.compare where
  compare_self {a} := (compare_eq_eq_iff a a).mpr rfl
  eq_of_compare {a b} := (compare_eq_eq_iff a b).mp

end Schema

end Schemata
