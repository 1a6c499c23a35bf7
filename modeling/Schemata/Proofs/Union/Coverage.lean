import Schemata.Proofs.Subtyping.Soundness
import Schemata.Proofs.Subtyping.Transitivity
import Schemata.Proofs.Union.NormalForm

/-!
# What a union covers

A union covers what it was built from wherever subtyping is transitive: what
was dropped or removed is then below a possibility that remains.  Against
anything but a union one possibility of a union inside suffices, so a schema
with a choice inside can take a possibility down that its own cover does not
reach.  Where no choice is left inside this does not happen, and a union has
exactly the members of the schemas that it was built from.
-/

namespace Schemata

open Subtyping

theorem Schema.isInstance_iff_offers {s : Schema} {v : Value} :
    s.isInstance v = true ↔ ∃ q, s.Offers q ∧ q.isInstance v = true := by
  constructor
  · intro hv
    induction s using childrenInduction with
    | step s ih =>
        by_cases hkind : s.kind = .union
        · cases s <;> simp only [kind, reduceCtorEq] at hkind
          rename_i ps
          rw [isInstance, isInstanceOfAny_iff] at hv
          obtain ⟨p, hp, hvp⟩ := hv
          obtain ⟨q, hq, hvq⟩ := ih p hp hvp
          exact ⟨q, .possibility hp hq, hvq⟩
        · exact ⟨s, .itself hkind, hv⟩
  · rintro ⟨q, hq, hv⟩
    induction hq with
    | itself => exact hv
    | possibility hp _ ih =>
        rw [isInstance, isInstanceOfAny_iff]
        exact ⟨_, hp, ih hv⟩

/-- A union covers what one of its possibilities covers. -/
theorem Subtyping.covers_union_of_mem
    {root : Option Schema} {rs : List Schema} {r q : Schema}
    (hr : r ∈ rs) (hq : q.kind ≠ .union) (hcovers : Covers root r q) :
    Covers root (.union rs) q := by
  by_cases hone : ∃ s, rs = [s]
  · obtain ⟨s, rfl⟩ := hone
    rw [← List.mem_singleton.mp hr, ← covers_unwrap_iff, Schema.unwrap,
      covers_unwrap_iff]
    exact hcovers
  · have hunwrap : (Schema.union rs).unwrap = .union rs := by
      rw [Schema.unwrap]
      rintro s hs
      cases hs
      exact hone ⟨s, rfl⟩
    have halone : q.alternatives = [q] := by
      apply Schema.alternatives_of_ne_union
      rintro qs rfl
      exact hq rfl
    rw [covers_iff, hunwrap, Schema.unwrap_of_kind_ne_union hq]
    refine .superUnion ?_
    intro q' hq'
    rw [halone, List.mem_singleton] at hq'
    rw [hq']
    exact ⟨r, hr, hcovers⟩

theorem Schema.referenceFree_union
    {rs : List Schema} (hrs : ∀ r ∈ rs, r.ReferenceFree) :
    (Schema.union rs).ReferenceFree := by
  intro s hs
  rw [parts_eq] at hs
  rcases List.mem_append.mp hs with hself | hinside
  · rw [List.mem_singleton.mp hself]
    simp [kind]
  · obtain ⟨r, hr, hpart⟩ := List.mem_flatMap.mp hinside
    exact hrs r hr s hpart

theorem Subtyping.isSubtype_union_of_mem
    {rs : List Schema} {r q : Schema} (hrs : ∀ r ∈ rs, r.ReferenceFree)
    (hqfree : q.ReferenceFree) (hr : r ∈ rs) (hq : q.kind ≠ .union)
    (hcovers : r.isSubtype q = .ok true) :
    (Schema.union rs).isSubtype q = .ok true := by
  rw [isSubtype_eq_ok_true_iff (hrs r hr) hqfree] at hcovers
  rw [isSubtype_eq_ok_true_iff (Schema.referenceFree_union hrs) hqfree]
  exact covers_union_of_mem hr hq hcovers

namespace Union

theorem forall_offered_iff {given : List Schema} {P : Schema → Prop} :
    (∀ q, Offered given q → P q) ↔
      ∀ q ∈ Schema.flattenAll given, P q := by
  simp only [mem_flattenAll_iff]

theorem Offered.kind_ne_union
    {given : List Schema} {q : Schema} (hq : Offered given q) :
    q.kind ≠ .union := by
  obtain ⟨p, _, hoffers⟩ := hq
  exact hoffers.kind_ne_union

theorem Offered.referenceFree
    {given : List Schema} {q : Schema} (hq : Offered given q)
    (hfree : ∀ p ∈ given, p.ReferenceFree) : q.ReferenceFree := by
  obtain ⟨p, hp, hoffers⟩ := hq
  exact (hfree p hp).part hoffers.mem_parts

/-- Subtyping is transitive where all that covers the schema at the end leaves
no choice. -/
theorem composesAt_of_choiceFree
    {among : Schema → Prop} {q : Schema} (hq : among q)
    (hfree : ∀ p, among p → p.ReferenceFree)
    (hchoice : ∀ p, among p → p.isSubtype q = .ok true → p.ChoiceFree) :
    ComposesAt among q := by
  intro x p hx hp hxp hpq
  have hxfree := hfree x hx
  have hpfree := hfree p hp
  have hqfree := hfree q hq
  have hpchoice : p.ChoiceFree := hchoice p hp hpq
  have hqchoice : q.ChoiceFree :=
    hchoice q hq (Schema.absorbs_iff.mp q.absorbs_self)
  rw [isSubtype_eq_ok_true_iff hxfree hpfree] at hxp
  rw [isSubtype_eq_ok_true_iff hpfree hqfree] at hpq
  rw [isSubtype_eq_ok_true_iff hxfree hqfree]
  exact hxp.trans hpq hxfree hpfree hqfree hpchoice (.inr hqchoice)

/-- A chain of schemas offered leads from the possibilities of a union to every
schema offered.  The union covers it if subtyping is transitive there, and in
particular if no schema that covers it leaves a choice inside. -/
theorem union_covers_offered
    {given : List Schema} (hfree : ∀ p ∈ given, p.ReferenceFree) :
    ∃ rs, Build.union (given.map some) = .ok (.union rs) ∧
      ∀ q, Offered given q →
        (∃ r ∈ rs, Relation.ReflTransGen (Links (Offered given)) r q) ∧
        (ComposesAt (Offered given) q →
          (Schema.union rs).isSubtype q = .ok true) ∧
        ((∀ p, Offered given p → p.isSubtype q = .ok true → p.ChoiceFree) →
          (Schema.union rs).isSubtype q = .ok true) := by
  refine ⟨possibilities given, build_union given, ?_⟩
  intro q hq
  have hcovered : ComposesAt (Offered given) q →
      (Schema.union (possibilities given)).isSubtype q = .ok true := by
    intro hcomposes
    obtain ⟨r, hr, hcovers⟩ := exists_possibility_of_composes hq hcomposes
    exact isSubtype_union_of_mem
      (fun r hr => (offered_of_mem_possibilities hr).referenceFree hfree)
      (hq.referenceFree hfree) hr hq.kind_ne_union hcovers
  refine ⟨exists_chain_of_offered hq, hcovered, ?_⟩
  intro hchoice
  exact hcovered (composesAt_of_choiceFree hq
    (fun p hp => hp.referenceFree hfree) hchoice)

/-- A choice inside another possibility does no harm. -/
theorem union_covers_offered_integer :
    let given := [Schema.union [.number true true 4,
      .list (.union [.number true true 8, .string charsetUtf8 (some 5)])],
      .number true true 8]
    let q := Schema.number true true 4
    ((∀ p ∈ given, p.ReferenceFree) ∧ Offered given q ∧
      ∀ p, Offered given p → p.isSubtype q = .ok true → p.ChoiceFree) ∧
      ∃ rs, Build.union (given.map some) = .ok (.union rs) ∧
        (Schema.union rs).isSubtype q = .ok true := by
  intro given q
  have hfree : ∀ p ∈ given, p.ReferenceFree := by decide
  have hq : Offered given q :=
    mem_flattenAll_iff.mp List.mem_cons_self
  have hchoice : ∀ p, Offered given p → p.isSubtype q = .ok true →
      p.ChoiceFree := by
    simp only [← Schema.absorbs_iff]
    exact forall_offered_iff.mpr (by decide)
  obtain ⟨rs, hrs, hcovers⟩ := union_covers_offered hfree
  exact ⟨⟨hfree, hq, hchoice⟩, rs, hrs, (hcovers q hq).2.2 hchoice⟩

/-- Lists of short texts are removed for the sake of lists with a choice inside,
and these for the sake of lists of numbers, which do not cover texts. -/
theorem union_loses_texts :
    let given := [Schema.list (.string charsetUtf8 (some 3)),
      .list (.union [.number true true 8, .string charsetUtf8 (some 5)]),
      .list (.number false true 8)]
    let q := Schema.list (.string charsetUtf8 (some 3))
    (∀ p ∈ given, p.ReferenceFree) ∧ Offered given q ∧
      ∃ u, Build.union (given.map some) = .ok u ∧
        u.isSubtype q = .ok false := by
  refine ⟨by decide, ?_, _, build_union _, rfl⟩
  exact ⟨_, List.mem_cons_self, .itself (by decide)⟩

/-- A union of schemas that leave no choice inside has the members of these
schemas. -/
theorem isInstance_union_iff
    {given : List Schema} (hfree : ∀ p ∈ given, p.ReferenceFree)
    (hchoice : ∀ q, Offered given q → q.ChoiceFree) :
    ∃ u, Build.union (given.map some) = .ok u ∧
      ∀ v, u.isInstance v = true ↔ ∃ p ∈ given, p.isInstance v = true := by
  refine ⟨_, build_union given, ?_⟩
  intro v
  rw [Schema.isInstance, Schema.isInstanceOfAny_iff]
  constructor
  · rintro ⟨r, hr, hv⟩
    obtain ⟨p, hp, hoffers⟩ := offered_of_mem_possibilities hr
    exact ⟨p, hp, Schema.isInstance_iff_offers.mpr ⟨r, hoffers, hv⟩⟩
  · rintro ⟨p, hp, hv⟩
    obtain ⟨q, hoffers, hvq⟩ := Schema.isInstance_iff_offers.mp hv
    have hq : Offered given q := ⟨p, hp, hoffers⟩
    have hcomposes : ComposesAt (Offered given) q :=
      composesAt_of_choiceFree hq (fun p hp => hp.referenceFree hfree)
        (fun p hp _ => hchoice p hp)
    obtain ⟨r, hr, hcovers⟩ := exists_possibility_of_composes hq hcomposes
    have hrfree := (offered_of_mem_possibilities hr).referenceFree hfree
    have hqfree := hq.referenceFree hfree
    have hplain := hchoice q hq
    refine ⟨r, hr, isInstance_of_covers
      ((isSubtype_eq_ok_true_iff hrfree hqfree).mp hcovers)
      hrfree hqfree hplain.inside ?_ hvq⟩
    intro h
    rw [hplain.not_isChoice] at h
    cases h

/-- A list of short integers is a member of a union in which lists of long ones
stand for both, though their items are given by a union of one possibility. -/
theorem isInstance_union_iff_lists :
    let given := [Schema.union [.null,
        .list (.union [.number true true 4])],
      .list (.number true true 8), .record [([0x61], .union [])]]
    let v := Value.slice .dynamic [.integer .int32 7]
    ((∀ p ∈ given, p.ReferenceFree) ∧
      ∀ q, Offered given q → q.ChoiceFree) ∧
      ∃ u, Build.union (given.map some) = .ok u ∧ u.isInstance v = true := by
  intro given v
  have hfree : ∀ p ∈ given, p.ReferenceFree := by decide
  have hchoice : ∀ q, Offered given q → q.ChoiceFree :=
    forall_offered_iff.mpr (by decide)
  obtain ⟨u, hu, hmembers⟩ := isInstance_union_iff hfree hchoice
  exact ⟨⟨hfree, hchoice⟩, u, hu,
    (hmembers v).mpr ⟨_, List.mem_cons_self, rfl⟩⟩

end Union

end Schemata
