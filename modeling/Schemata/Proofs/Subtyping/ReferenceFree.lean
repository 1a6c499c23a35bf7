import Schemata.Proofs.Subtyping.Exactness

/-!
# Subtyping without references

A comparison fails only at a reference that does not resolve.  Schemas
without references are therefore always comparable, and the root they are
compared in does not matter: they are related by the rules alone.
-/

namespace Schemata.Subtyping

/-- What a comparison fails with is the error of a reference that came up. -/
theorem exists_unresolved_of_verdict
    {root : Option Schema} {scope : Schema → Prop}
    (hclosed : Closed root scope) {c : Comparison}
    (hsuper : scope c.2.1) (hsub : scope c.2.2) {depth : Nat}
    {cause : DereferenceError}
    (h : verdict root depth c.1 c.2.1 c.2.2 = .error (.unresolved cause)) :
    ∃ path, scope (.reference path) ∧
      Schema.resolve root path = .error cause := by
  induction depth generalizing c with
  | zero => cases h
  | succ depth ih =>
      rcases verdict_failure h with
        ⟨c', hstep, hnested⟩ | ⟨path, cause', hplace, hresolve, hcause⟩
      · obtain ⟨hsuper', hsub'⟩ := hclosed.nested hstep hsuper hsub
        exact ih hsuper' hsub' hnested
      · cases hcause
        refine ⟨path, ?_, hresolve⟩
        rcases hplace with href | href <;> rw [← href]
        · exact hclosed.part _ hsuper _ (Schema.unwrap_mem_parts _)
        · exact hclosed.part _ hsub _ (Schema.unwrap_mem_parts _)

theorem exists_unresolved_of_isSubtypeIn
    {root : Option Schema} {scope : Schema → Prop}
    (hclosed : Closed root scope) {super sub : Schema} (hsuper : scope super)
    (hsub : scope sub) {cause : DereferenceError}
    (h : super.isSubtypeIn sub root = .error cause) :
    ∃ path, scope (.reference path) ∧
      Schema.resolve root path = .error cause := by
  have hverdict := verdict_eq_isSubtypeIn (le_refl (depthBound super sub root))
  rw [h] at hverdict
  exact exists_unresolved_of_verdict hclosed (c := ([], super, sub)) hsuper hsub
    hverdict

/-- Two schemas have an answer if all references that can come up resolve. -/
theorem exists_isSubtypeIn_ok
    {root : Option Schema} {scope : Schema → Prop}
    (hclosed : Closed root scope)
    (hresolves : ∀ path, scope (.reference path) →
      ∃ target, Schema.resolve root path = .ok target)
    {super sub : Schema} (hsuper : scope super) (hsub : scope sub) :
    ∃ b, super.isSubtypeIn sub root = .ok b := by
  cases hanswer : super.isSubtypeIn sub root with
  | ok b => exact ⟨b, rfl⟩
  | error cause =>
      obtain ⟨path, hpath, hfails⟩ :=
        exists_unresolved_of_isSubtypeIn hclosed hsuper hsub hanswer
      obtain ⟨target, htarget⟩ := hresolves path hpath
      rw [htarget] at hfails
      cases hfails

theorem not_referenceFree_reference (path : Path) :
    ¬ (Schema.reference path).ReferenceFree :=
  fun h => h _ (Schema.self_mem_parts _) rfl

theorem closed_referenceFree (root : Option Schema) :
    Closed root Schema.ReferenceFree where
  part := fun _ hs _ hp => hs.part hp
  target := fun path _ hpath =>
    absurd hpath (not_referenceFree_reference path)

/-- Without references the root does not matter. -/
theorem Covers.changeRoot
    {root : Option Schema} {super sub : Schema}
    (hcovers : Covers root super sub) (hsuper : super.ReferenceFree)
    (hsub : sub.ReferenceFree) (root' : Option Schema) :
    Covers root' super sub := by
  let R : Schema → Schema → Prop := fun a b =>
    a.ReferenceFree ∧ b.ReferenceFree ∧ Covers root a b
  have hle : R ≤ Covers root' := by
    apply OrderHom.le_gfp
    rintro a b ⟨ha, hb, hab⟩
    have ha' := ha.part a.unwrap_mem_parts
    have hb' := hb.part b.unwrap_mem_parts
    have hmet := ((covers_iff root a b).mp hab).met
    apply justified_of_met
    cases hdemand : demand a.unwrap b.unwrap with
    | each groups =>
        rw [hdemand] at hmet
        intro g hg
        obtain ⟨pair, hpair, hcovers⟩ := hmet g hg
        obtain ⟨hleft, hright⟩ := (descends_of_demand hdemand hg hpair).parts
        exact ⟨pair, hpair, ha'.part hleft, hb'.part hright, hcovers⟩
    | through path next =>
        rcases through_of_demand hdemand with ⟨href, _⟩ | ⟨href, _⟩
        · rw [href] at ha'
          exact absurd ha' (not_referenceFree_reference path)
        · rw [href] at hb'
          exact absurd hb' (not_referenceFree_reference path)
  exact hle super sub ⟨hsuper, hsub, hcovers⟩

/-- Schemas without references have one answer in all roots. -/
theorem exists_isSubtypeIn_of_referenceFree
    {super sub : Schema} (hsuper : super.ReferenceFree)
    (hsub : sub.ReferenceFree) :
    ∃ b, ∀ root, super.isSubtypeIn sub root = .ok b := by
  have hanswer : ∀ root, ∃ b, super.isSubtypeIn sub root = .ok b :=
    fun root => exists_isSubtypeIn_ok (closed_referenceFree root)
      (fun path hpath => absurd hpath (not_referenceFree_reference path))
      hsuper hsub
  obtain ⟨b, hb⟩ := hanswer none
  refine ⟨b, ?_⟩
  intro root
  obtain ⟨b', hb'⟩ := hanswer root
  have hagree : b' = true ↔ b = true := by
    rw [isSubtypeIn_iff_covers hb', isSubtypeIn_iff_covers hb]
    exact ⟨fun h => h.changeRoot hsuper hsub none,
      fun h => h.changeRoot hsuper hsub root⟩
  rw [hb', Bool.eq_iff_iff.mpr hagree]

/-- Schemas without references are subtypes exactly by the rules. -/
theorem isSubtype_eq_ok_true_iff
    {super sub : Schema} (hsuper : super.ReferenceFree)
    (hsub : sub.ReferenceFree) :
    super.isSubtype sub = .ok true ↔ Covers none super sub := by
  obtain ⟨b, hb⟩ := exists_isSubtypeIn_of_referenceFree hsuper hsub
  rw [Schema.isSubtype, hb, ← isSubtypeIn_iff_covers (hb none)]
  simp

end Schemata.Subtyping
