import Schemata.Proofs.Schema.Built
import Schemata.Proofs.Union.Coverage

/-!
# Unions keep the maximal schemas

On schemas without references and unions subtyping is a partial order.  A union
of such schemas so has the maximal ones among them as its possibilities.  It
depends neither on the order nor on repetitions, and schemas may be united in
several steps: what is left out on the way is below something that stays.
-/

namespace Schemata.Union

open Subtyping

/-- One of some schemas that is covered by those only that it covers too. -/
def MaximalAmong (among : Schema → Prop) (s : Schema) : Prop :=
  among s ∧ ∀ p, among p → p.isSubtype s = .ok true →
    s.isSubtype p = .ok true

/-- Schemas on which subtyping is a partial order. -/
structure Plain (s : Schema) : Prop where
  referenceFree : s.ReferenceFree
  unionFree : s.UnionFree
  fieldsOrdered : s.FieldsOrdered

theorem Plain.antisymm
    {a b : Schema} (ha : Plain a) (hb : Plain b)
    (hab : a.isSubtype b = .ok true) (hba : b.isSubtype a = .ok true) :
    a = b := by
  rw [isSubtype_eq_ok_true_iff ha.referenceFree hb.referenceFree] at hab
  rw [isSubtype_eq_ok_true_iff hb.referenceFree ha.referenceFree] at hba
  exact hab.antisymm hba ha.referenceFree hb.referenceFree
    ha.unionFree.unionsEmpty hb.unionFree.unionsEmpty ha.fieldsOrdered
    hb.fieldsOrdered

theorem composesAt_of_plain
    {among : Schema → Prop} (hplain : ∀ p, among p → Plain p)
    {q : Schema} (hq : among q) : ComposesAt among q :=
  composesAt_of_choiceFree hq (fun p hp => (hplain p hp).referenceFree)
    (fun p hp _ => (hplain p hp).unionFree.choiceFree)

/-- Leaving out schemas that others cover changes nothing about the maximal
ones. -/
theorem maximalAmong_iff_of_cover
    {few many : Schema → Prop} (hplain : ∀ p, many p → Plain p)
    (hle : ∀ p, few p → many p)
    (hcover : ∀ q, many q → ∃ p, few p ∧ p.isSubtype q = .ok true)
    (r : Schema) : MaximalAmong few r ↔ MaximalAmong many r := by
  constructor
  · rintro ⟨hr, hmaximal⟩
    refine ⟨hle r hr, ?_⟩
    intro p hp hpr
    obtain ⟨a, ha, hap⟩ := hcover p hp
    have har : a.isSubtype r = .ok true :=
      composesAt_of_plain hplain (hle r hr) a p (hle a ha) hp hap hpr
    have hra : r.isSubtype a = .ok true := hmaximal a ha har
    exact composesAt_of_plain hplain hp r a (hle r hr) (hle a ha) hra hap
  · rintro ⟨hr, hmaximal⟩
    obtain ⟨a, ha, har⟩ := hcover r hr
    have hra : r.isSubtype a = .ok true := hmaximal a (hle a ha) har
    have hsame : a = r :=
      (hplain a (hle a ha)).antisymm (hplain r hr) har hra
    rw [hsame] at ha
    exact ⟨ha, fun p hp => hmaximal p (hle p hp)⟩

theorem Antichain.maximalAmong_iff
    {kept : List Schema} (h : Antichain kept) (r : Schema) :
    MaximalAmong (· ∈ kept) r ↔ r ∈ kept := by
  constructor
  · exact And.left
  · intro hr
    refine ⟨hr, ?_⟩
    intro p hp hpr
    rw [h.eq_of_absorbs hp hr (Schema.absorbs_iff.mpr hpr)]
    exact Schema.absorbs_iff.mp r.absorbs_self

theorem mem_possibilities_iff_maximal
    {given : List Schema} (hplain : ∀ q, Offered given q → Plain q)
    (r : Schema) :
    r ∈ possibilities given ↔ MaximalAmong (Offered given) r := by
  rw [← (possibilities_antichain given).maximalAmong_iff r]
  refine maximalAmong_iff_of_cover hplain
    (fun p hp => offered_of_mem_possibilities hp) ?_ r
  intro q hq
  exact exists_possibility_of_composes hq (composesAt_of_plain hplain hq)

/-- Unions whose maximal schemas are the same are the same. -/
theorem possibilities_eq_of_maximal
    {given given' : List Schema}
    (hplain : ∀ q, Offered given q → Plain q)
    (hplain' : ∀ q, Offered given' q → Plain q)
    (h : ∀ r, MaximalAmong (Offered given) r ↔
      MaximalAmong (Offered given') r) :
    possibilities given = possibilities given' := by
  refine (possibilities_increasing given).eq_of_mem_iff
    (possibilities_increasing given') ?_
  intro r
  rw [mem_possibilities_iff_maximal hplain,
    mem_possibilities_iff_maximal hplain', h r]

theorem offered_union_cons_iff {xs ys : List Schema} {q : Schema} :
    Offered (.union (possibilities xs) :: ys) q ↔
      q ∈ possibilities xs ∨ Offered ys q := by
  constructor
  · rintro ⟨p, hp, hoffers⟩
    rcases List.mem_cons.mp hp with rfl | hp
    · left
      cases hoffers with
      | itself hkind => exact absurd rfl hkind
      | possibility hr hoffers =>
          have hkind := (offered_of_mem_possibilities hr).kind_ne_union
          cases hoffers with
          | itself => exact hr
          | possibility => exact absurd rfl hkind
    · exact .inr ⟨p, hp, hoffers⟩
  · rintro (hq | ⟨p, hp, hoffers⟩)
    · have hkind := (offered_of_mem_possibilities hq).kind_ne_union
      exact ⟨_, List.mem_cons_self, .possibility hq (.itself hkind)⟩
    · exact ⟨p, List.mem_cons_of_mem _ hp, hoffers⟩

theorem offered_append_iff {xs ys : List Schema} {q : Schema} :
    Offered (xs ++ ys) q ↔ Offered xs q ∨ Offered ys q := by
  simp [Offered, or_and_right, exists_or]

/-- Schemas may be united in two steps. -/
theorem possibilities_union_cons
    {xs ys : List Schema} (hplain : ∀ q, Offered (xs ++ ys) q → Plain q) :
    possibilities (.union (possibilities xs) :: ys) =
      possibilities (xs ++ ys) := by
  have hle : ∀ p, Offered (.union (possibilities xs) :: ys) p →
      Offered (xs ++ ys) p := by
    intro p hp
    rw [offered_append_iff]
    exact (offered_union_cons_iff.mp hp).imp_left offered_of_mem_possibilities
  refine possibilities_eq_of_maximal (fun q hq => hplain q (hle q hq)) hplain
    (maximalAmong_iff_of_cover hplain hle ?_)
  intro q hq
  rcases offered_append_iff.mp hq with hxs | hys
  · have hplain' : ∀ p, Offered xs p → Plain p :=
      fun p hp => hplain p (offered_append_iff.mpr (.inl hp))
    obtain ⟨p, hp, hcovers⟩ := exists_possibility_of_composes hxs
      (composesAt_of_plain hplain' hxs)
    exact ⟨p, offered_union_cons_iff.mpr (.inl hp), hcovers⟩
  · exact ⟨q, offered_union_cons_iff.mpr (.inr hys),
      Schema.absorbs_iff.mp q.absorbs_self⟩

/-- The possibilities of a union of schemas without references, and without
unions inside what they offer, are the maximal schemas offered, each once and
in increasing order.  Order and repetition of what is given do not matter, and
a part of it may be united before. -/
theorem union_maximal
    {given : List Schema} (hbuilt : ∀ p ∈ given, p.Built)
    (hfree : ∀ p ∈ given, p.ReferenceFree)
    (hunion : ∀ q, Offered given q → q.UnionFree) :
    ∃ rs, Build.union (given.map some) = .ok (.union rs) ∧
      (∀ r, r ∈ rs ↔ MaximalAmong (Offered given) r) ∧
      (rs.Pairwise fun p q => p.compare q = .lt) ∧
      (∀ given' : List Schema, (∀ p, p ∈ given' ↔ p ∈ given) →
        Build.union (given'.map some) = .ok (.union rs)) ∧
      ∀ xs ys : List Schema, given = xs ++ ys →
        ∃ u, Build.union (xs.map some) = .ok u ∧
          Build.union ((u :: ys).map some) = .ok (.union rs) := by
  have hplain : ∀ q, Offered given q → Plain q := by
    rintro q ⟨p, hp, hoffers⟩
    exact ⟨(hfree p hp).part hoffers.mem_parts, hunion q ⟨p, hp, hoffers⟩,
      (hbuilt p hp).fieldsOrdered.part hoffers.mem_parts⟩
  refine ⟨possibilities given, build_union given,
    mem_possibilities_iff_maximal hplain, possibilities_increasing given,
    ?_, ?_⟩
  · intro given' hsame
    have hoffered : Offered given' = Offered given := by
      ext q
      simp only [Offered, hsame]
    have heq : possibilities given' = possibilities given := by
      apply possibilities_eq_of_maximal
      · rwa [hoffered]
      · exact hplain
      · intro r
        rw [hoffered]
    rw [build_union, heq]
  · rintro xs ys rfl
    refine ⟨_, build_union xs, ?_⟩
    rw [build_union, possibilities_union_cons hplain]

/-- Narrow numbers and records with a field too many give way to wide numbers
and to records of one field, in any order. -/
theorem union_maximal_records :
    let narrow := Schema.record
      [([0x61], .number true true 4), ([0x62], .boolean)]
    let wide := Schema.record [([0x61], .number true true 8)]
    let given := [Schema.union [.number true true 4, narrow], wide,
      .number false true 8]
    ((∀ p ∈ given, p.Built) ∧ (∀ p ∈ given, p.ReferenceFree) ∧
      ∀ q, Offered given q → q.UnionFree) ∧
      ∃ rs, Build.union (given.map some) = .ok (.union rs) ∧
        Build.union (given.reverse.map some) = .ok (.union rs) ∧
        ∀ r, r ∈ rs ↔ MaximalAmong (Offered given) r := by
  intro narrow wide given
  have hnumber : ∀ {whole signed : Bool} {nbytes : Nat}, 0 < nbytes →
      (Schema.number whole signed nbytes).Built := by
    intro whole signed nbytes hpos
    refine .number (show Build.number whole signed nbytes = _ from ?_)
    rw [Build.number, if_neg (by omega), Int.toNat_natCast]
  have hnarrow : narrow.Built := by
    refine .record ?_ (show Build.record
      [([0x61], some (.number true true 4)), ([0x62], some .boolean)] =
        .ok narrow from rfl)
    simpa using ⟨hnumber (by decide), Schema.Built.boolean⟩
  have hwide : wide.Built := by
    refine .record ?_ (show Build.record
      [([0x61], some (.number true true 8))] = .ok wide from rfl)
    simpa using hnumber (by decide)
  have hbuilt : ∀ p ∈ given, p.Built := by
    have hchoice : (Schema.union [.number true true 4, narrow]).Built :=
      .union (by simpa using ⟨hnumber (by decide), hnarrow⟩)
        (build_union [.number true true 4, narrow])
    simpa [given] using ⟨hchoice, hwide, hnumber (by decide)⟩
  have hfree : ∀ p ∈ given, p.ReferenceFree := by decide
  have hunion : ∀ q, Offered given q → q.UnionFree :=
    forall_offered_iff.mpr (by decide)
  obtain ⟨rs, hrs, hmaximal, _, hsame, _⟩ := union_maximal hbuilt hfree hunion
  exact ⟨⟨hbuilt, hfree, hunion⟩, rs, hrs,
    hsame given.reverse fun p => List.mem_reverse, hmaximal⟩

end Schemata.Union
