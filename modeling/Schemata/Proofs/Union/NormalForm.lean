import Schemata.Proofs.Union.Insertion

/-!
# The normal form of unions

The possibilities of a union are offered by the schemas it is built from, none
of them is a union or covers another one, and they are strictly increasing.
Nothing is assumed about references: a comparison that fails covers nothing.
A list of this form is what a union of its own members keeps.
-/

namespace Schemata.Union

theorem inserted_possibilities (given : List Schema) :
    Inserted (Schema.flattenAll given) (possibilities given) := by
  have hrun := inserted_foldl (Schema.flattenAll given)
  refine ⟨?_, ?_, ?_⟩
  · exact (sortBy_perm _).symm.pairwise hrun.antichain (fun h => h.symm)
  · intro p hp
    exact hrun.mem_candidates p (mem_sortBy.mp hp)
  · intro q hq
    obtain ⟨p, hp, hchain⟩ := hrun.linked q hq
    exact ⟨p, mem_sortBy.mpr hp, hchain⟩

theorem possibilities_antichain (given : List Schema) :
    Antichain (possibilities given) :=
  (inserted_possibilities given).antichain

theorem offered_of_mem_possibilities
    {given : List Schema} {p : Schema} (hp : p ∈ possibilities given) :
    Offered given p :=
  mem_flattenAll_iff.mp ((inserted_possibilities given).mem_candidates p hp)

/-- A chain of offered schemas leads from the possibilities to everything
offered. -/
theorem exists_chain_of_offered
    {given : List Schema} {q : Schema} (hq : Offered given q) :
    ∃ p ∈ possibilities given,
      Relation.ReflTransGen (Links (Offered given)) p q := by
  obtain ⟨p, hp, hchain⟩ :=
    (inserted_possibilities given).linked q (mem_flattenAll_iff.mpr hq)
  refine ⟨p, hp, Relation.ReflTransGen.mono ?_ _ _ hchain⟩
  intro a b hab
  exact ⟨mem_flattenAll_iff.mp hab.1, hab.2⟩

theorem possibilities_increasing (given : List Schema) :
    (possibilities given).Pairwise fun p q => p.compare q = .lt :=
  sortBy_increasing (inserted_foldl _).antichain.nodup

/-- The form of the possibilities of unions. -/
structure NormalForm (ps : List Schema) : Prop where
  kind_ne_union : ∀ p ∈ ps, p.kind ≠ .union
  increasing : ps.Pairwise fun p q => p.compare q = .lt
  antichain : Antichain ps

theorem possibilities_normalForm (given : List Schema) :
    NormalForm (possibilities given) where
  kind_ne_union := by
    intro p hp
    obtain ⟨q, _, hoffers⟩ := offered_of_mem_possibilities hp
    exact hoffers.kind_ne_union
  increasing := possibilities_increasing given
  antichain := possibilities_antichain given

theorem flattenAll_of_kind_ne_union
    {ps : List Schema} (h : ∀ p ∈ ps, p.kind ≠ .union) :
    Schema.flattenAll ps = ps := by
  induction ps with
  | nil => rfl
  | cons p ps ih =>
      have hp : p.flatten = [p] := by
        rw [Schema.flatten]
        rintro qs rfl
        exact h _ List.mem_cons_self rfl
      rw [Schema.flattenAll, hp, ih fun q hq => h q (List.mem_cons_of_mem p hq),
        List.singleton_append]

theorem insertPlain_of_apart
    {kept : List Schema} {candidate : Schema}
    (h : ∀ p ∈ kept, Apart p candidate) :
    insertPlain kept candidate = kept ++ [candidate] := by
  have hnone : kept.any (·.absorbs candidate) = false :=
    List.any_eq_false.mpr fun p hp => Bool.eq_false_iff.mp (h p hp).1
  have hstays : kept.filter (stays candidate) = kept := by
    rw [List.filter_eq_self]
    intro p hp
    simp [stays, (h p hp).2]
  rw [insertPlain, hnone, hstays]
  rfl

theorem foldl_insertPlain_of_antichain
    {kept rest : List Schema} (h : Antichain (kept ++ rest)) :
    rest.foldl insertPlain kept = kept ++ rest := by
  induction rest generalizing kept with
  | nil => simp
  | cons candidate rest ih =>
      obtain ⟨_, _, hapart⟩ := List.pairwise_append.mp h
      have hinsert : insertPlain kept candidate = kept ++ [candidate] :=
        insertPlain_of_apart fun p hp =>
          hapart p hp candidate List.mem_cons_self
      have hassoc : kept ++ candidate :: rest = (kept ++ [candidate]) ++ rest := by
        simp
      rw [hassoc] at h ⊢
      rw [List.foldl_cons, hinsert, ih h]

/-- Schemas none of which covers another one are only sorted. -/
theorem Antichain.possibilities_eq
    {ps : List Schema} (h : Antichain ps) (hkinds : ∀ p ∈ ps, p.kind ≠ .union) :
    possibilities ps = sortBy Schema.compare ps := by
  have hinserted : ps.foldl insertPlain [] = ps :=
    foldl_insertPlain_of_antichain h
  rw [possibilities, flattenAll_of_kind_ne_union hkinds, hinserted]

/-- A list in normal form is what its union keeps. -/
theorem NormalForm.possibilities_eq
    {ps : List Schema} (h : NormalForm ps) : possibilities ps = ps := by
  rw [h.antichain.possibilities_eq h.kind_ne_union,
    sortBy_of_increasing h.increasing]

/-- Subtyping is transitive among some schemas as far as a schema at the end is
concerned. -/
def ComposesAt (among : Schema → Prop) (q : Schema) : Prop :=
  ∀ x p, among x → among p → x.isSubtype p = .ok true →
    p.isSubtype q = .ok true → x.isSubtype q = .ok true

theorem isSubtype_of_chain
    {among : Schema → Prop} {p q : Schema} (hcomposes : ComposesAt among q)
    (hchain : Relation.ReflTransGen (Links among) p q) :
    p.isSubtype q = .ok true := by
  -- The middle of a link is offered unless it is the end of the chain.
  have hends : p = q ∨ among p ∧ p.isSubtype q = .ok true := by
    induction hchain using Relation.ReflTransGen.head_induction_on with
    | refl => exact .inl rfl
    | head hlink _ ih =>
        right
        rcases ih with rfl | ⟨hmiddle, hcovers⟩
        · exact hlink
        · exact ⟨hlink.1, hcomposes _ _ hlink.1 hmiddle hlink.2 hcovers⟩
  rcases hends with rfl | ⟨_, hcovers⟩
  · exact Schema.absorbs_iff.mp p.absorbs_self
  · exact hcovers

theorem exists_possibility_of_composes
    {given : List Schema} {q : Schema} (hq : Offered given q)
    (hcomposes : ComposesAt (Offered given) q) :
    ∃ p ∈ possibilities given, p.isSubtype q = .ok true := by
  obtain ⟨p, hp, hchain⟩ := exists_chain_of_offered hq
  exact ⟨p, hp, isSubtype_of_chain hcomposes hchain⟩

/-- What nothing else offered covers is a possibility. -/
theorem mem_possibilities_of_uncovered
    {given : List Schema} {q : Schema} (hq : Offered given q)
    (huncovered : ∀ p, Offered given p → p.isSubtype q = .ok true → p = q) :
    q ∈ possibilities given := by
  have hcomposes : ComposesAt (Offered given) q := by
    intro x p _ hp hxp hpq
    rwa [huncovered p hp hpq] at hxp
  obtain ⟨p, hp, hcovers⟩ := exists_possibility_of_composes hq hcomposes
  rwa [huncovered p (offered_of_mem_possibilities hp) hcovers] at hp

/-- The possibilities of a union are no unions, are offered by the schemas it
is built from, strictly increase, and do not cover each other.  What no other
schema offered covers is one of them. -/
theorem union_normalForm (given : List Schema) :
    ∃ rs, Build.union (given.map some) = .ok (.union rs) ∧
      (∀ r ∈ rs, r.kind ≠ .union ∧
        ∃ q, Offered given q ∧ r.same q = true) ∧
      (rs.Pairwise fun p q => p.compare q = .lt) ∧
      (∀ i j : Fin rs.length, i ≠ j →
        (rs.get i).same (rs.get j) = false ∧
          (rs.get i).isSubtype (rs.get j) ≠ .ok true) ∧
      ∀ q, Offered given q →
        (∀ p, Offered given p → p.isSubtype q = .ok true → p = q) →
          q ∈ rs := by
  refine ⟨possibilities given, build_union given, ?_,
    possibilities_increasing given, ?_,
    fun q => mem_possibilities_of_uncovered⟩
  · intro r hr
    obtain ⟨p, hp, hoffers⟩ := offered_of_mem_possibilities hr
    exact ⟨hoffers.kind_ne_union, r, ⟨p, hp, hoffers⟩,
      (Schema.same_iff r r).mpr rfl⟩
  · intro i j hij
    have hanti := possibilities_antichain given
    have hne : (possibilities given).get i ≠ (possibilities given).get j :=
      fun h => hij (hanti.nodup.injective_get h)
    constructor
    · rw [← Bool.not_eq_true, Schema.same_iff]
      exact hne
    · intro hcovers
      exact hne (hanti.eq_of_absorbs (List.get_mem _ i) (List.get_mem _ j)
        (Schema.absorbs_iff.mpr hcovers))

end Schemata.Union
