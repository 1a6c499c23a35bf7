import Schemata.Proofs.Subtyping.Nested

/-!
# Comparisons end

A comparison nested in another one either goes inside a schema, under the
same assumptions, or resolves a reference, under one assumption more.  All
schemas that come up are parts of the two schemas and of the root, so there
are finitely many pairs, and no pair is assumed twice.  The rank of a
comparison counts the pairs that are not yet assumed, each with room for a
descent from two targets, and the weight of the pair at hand.  It goes down
with every nested comparison, and it stays below the depth bound.
-/

namespace Schemata.Subtyping

theorem anyM_congr
    {m : Type → Type} [Monad m] {α : Type} {f g : α → m Bool} {xs : List α}
    (h : ∀ x ∈ xs, f x = g x) : xs.anyM f = xs.anyM g := by
  induction xs with
  | nil => rfl
  | cons x xs ih =>
      rw [List.anyM_cons, List.anyM_cons, h x List.mem_cons_self,
        ih fun y hy => h y (List.mem_cons_of_mem x hy)]

theorem allM_congr
    {ε α : Type} {f g : α → Except ε Bool} {xs : List α}
    (h : ∀ x ∈ xs, f x = g x) : xs.allM f = xs.allM g := by
  rw [List.allM_eq_not_anyM_not, List.allM_eq_not_anyM_not]
  congr 1
  apply anyM_congr
  intro x hx
  rw [h x hx]

theorem exists_of_anyM_error
    {ε α : Type} {f : α → Except ε Bool} {xs : List α} {e : ε}
    (h : xs.anyM f = .error e) : ∃ x ∈ xs, f x = .error e := by
  induction xs with
  | nil => cases h
  | cons x xs ih =>
      rw [List.anyM_cons] at h
      cases hx : f x with
      | error e' =>
          rw [hx] at h
          cases h
          exact ⟨x, List.mem_cons_self, hx⟩
      | ok b =>
          rw [hx] at h
          cases b with
          | true => cases h
          | false =>
              obtain ⟨y, hy, hye⟩ := ih h
              exact ⟨y, List.mem_cons_of_mem x hy, hye⟩

theorem exists_of_allM_error
    {ε α : Type} {f : α → Except ε Bool} {xs : List α} {e : ε}
    (h : xs.allM f = .error e) : ∃ x ∈ xs, f x = .error e := by
  rw [List.allM_eq_not_anyM_not] at h
  cases hany : xs.anyM (fun x => (! ·) <$> f x) with
  | ok b =>
      rw [hany] at h
      cases h
  | error e' =>
      rw [hany] at h
      cases h
      obtain ⟨x, hx, hfail⟩ := exists_of_anyM_error hany
      refine ⟨x, hx, ?_⟩
      cases hfx : f x with
      | ok b =>
          rw [hfx] at hfail
          cases hfail
      | error e' =>
          rw [hfx] at hfail
          cases hfail
          rfl

/-- The answer of a comparison is determined by those nested in it. -/
theorem verdict_congr
    {root : Option Schema} {assumed : List Pair} {super sub : Schema}
    {depth depth' : Nat}
    (h : ∀ c, Nested root (assumed, super, sub) c →
      verdict root depth c.1 c.2.1 c.2.2 =
        verdict root depth' c.1 c.2.1 c.2.2) :
    verdict root (depth + 1) assumed super sub =
      verdict root (depth' + 1) assumed super sub := by
  cases hdemand : demand super.unwrap sub.unwrap with
  | each groups =>
      rw [verdict_each hdemand, verdict_each hdemand]
      apply allM_congr
      intro g hg
      apply anyM_congr
      intro pair hpair
      exact h _ (.within hdemand hg hpair)
  | through path next =>
      by_cases hassumed : (super.unwrap, sub.unwrap) ∈ assumed
      · rw [verdict_assumed hdemand hassumed,
          verdict_assumed hdemand hassumed]
      · cases hresolve : Schema.resolve root path with
        | error cause =>
            rw [verdict_unresolved hdemand hassumed hresolve,
              verdict_unresolved hdemand hassumed hresolve]
        | ok target =>
            rw [verdict_resolved hdemand hassumed hresolve,
              verdict_resolved hdemand hassumed hresolve]
            exact h _ (.resolved hdemand hassumed hresolve)

/-- A comparison fails only if a nested one does, or if it meets a reference
that does not resolve. -/
theorem verdict_failure
    {root : Option Schema} {assumed : List Pair} {super sub : Schema}
    {depth : Nat} {failure : Failure}
    (h : verdict root (depth + 1) assumed super sub = .error failure) :
    (∃ c, Nested root (assumed, super, sub) c ∧
      verdict root depth c.1 c.2.1 c.2.2 = .error failure) ∨
    ∃ path cause,
      (super.unwrap = .reference path ∨ sub.unwrap = .reference path) ∧
        Schema.resolve root path = .error cause ∧
        failure = .unresolved cause := by
  cases hdemand : demand super.unwrap sub.unwrap with
  | each groups =>
      rw [verdict_each hdemand] at h
      obtain ⟨g, hg, hgroup⟩ := exists_of_allM_error h
      obtain ⟨pair, hpair, hfail⟩ := exists_of_anyM_error hgroup
      exact .inl ⟨_, .within hdemand hg hpair, hfail⟩
  | through path next =>
      by_cases hassumed : (super.unwrap, sub.unwrap) ∈ assumed
      · rw [verdict_assumed hdemand hassumed] at h
        cases h
      · cases hresolve : Schema.resolve root path with
        | error cause =>
            rw [verdict_unresolved hdemand hassumed hresolve] at h
            cases h
            have hplace := (through_of_demand hdemand).imp
              And.left And.left
            exact .inr ⟨path, cause, hplace, hresolve, rfl⟩
        | ok target =>
            rw [verdict_resolved hdemand hassumed hresolve] at h
            exact .inl ⟨_, .resolved hdemand hassumed hresolve, h⟩

/-- A set of schemas that resolving and going inside do not lead out of. -/
structure Closed (root : Option Schema) (scope : Schema → Prop) : Prop where
  part : ∀ s, scope s → ∀ p ∈ s.parts, scope p
  target : ∀ path target, scope (.reference path) →
    Schema.resolve root path = .ok target → scope target

/-- Nested comparisons stay inside a closed set. -/
theorem Closed.nested
    {root : Option Schema} {scope : Schema → Prop} (hclosed : Closed root scope)
    {c c' : Comparison} (hstep : Nested root c c')
    (hsuper : scope c.2.1) (hsub : scope c.2.2) :
    scope c'.2.1 ∧ scope c'.2.2 := by
  cases hstep with
  | @within assumed super sub groups g pair hdemand hg hpair =>
      obtain ⟨hleft, hright⟩ := (descends_of_demand hdemand hg hpair).parts
      exact ⟨hclosed.part _ (hclosed.part _ hsuper _ super.unwrap_mem_parts)
          _ hleft,
        hclosed.part _ (hclosed.part _ hsub _ sub.unwrap_mem_parts) _ hright⟩
  | @resolved assumed super sub target path next hdemand _ hresolve =>
      have hsuper' := hclosed.part _ hsuper _ super.unwrap_mem_parts
      have hsub' := hclosed.part _ hsub _ sub.unwrap_mem_parts
      rcases through_of_demand hdemand with ⟨href, rfl⟩ | ⟨href, rfl⟩
      · rw [href] at hsuper'
        exact ⟨hclosed.target path target hsuper' hresolve, hsub'⟩
      · rw [href] at hsub'
        exact ⟨hsuper', hclosed.target path target hsub' hresolve⟩

/-- The schemas that can come up when two schemas are compared in a root. -/
def scope (super sub : Schema) (root : Option Schema) : List Schema :=
  super.parts ++ sub.parts ++ root.elim [] Schema.parts

theorem length_scope (super sub : Schema) (root : Option Schema) :
    (scope super sub root).length =
      super.weight + sub.weight + root.elim 0 Schema.weight := by
  cases root <;> simp [scope, Schema.length_parts, Nat.add_assoc]

theorem weight_le_length_scope
    {super sub s : Schema} {root : Option Schema}
    (hs : s ∈ scope super sub root) :
    s.weight ≤ (scope super sub root).length := by
  rw [length_scope]
  simp only [scope, List.mem_append] at hs
  rcases hs with (hs | hs) | hs
  · have hle := Schema.weight_le_of_mem_parts hs
    omega
  · have hle := Schema.weight_le_of_mem_parts hs
    omega
  · cases root with
    | none => cases hs
    | some root =>
        have hle := Schema.weight_le_of_mem_parts hs
        simp only [Option.elim_some]
        omega

theorem closed_scope (super sub : Schema) (root : Option Schema) :
    Closed root (· ∈ scope super sub root) where
  part := by
    intro s hs p hp
    simp only [scope, List.mem_append] at hs ⊢
    rcases hs with (hs | hs) | hs
    · exact .inl (.inl (Schema.parts_subset_of_mem_parts hs hp))
    · exact .inl (.inr (Schema.parts_subset_of_mem_parts hs hp))
    · cases root with
      | none => cases hs
      | some root =>
          exact .inr (Schema.parts_subset_of_mem_parts hs hp)
  target := by
    intro path target _ hresolve
    obtain ⟨r, rfl, htarget⟩ := Schema.resolve_mem_parts hresolve
    exact List.mem_append_right _ htarget

def pairsIn (schemas : List Schema) : List Pair := schemas ×ˢ schemas

/-- A comparison of listed schemas under different assumptions, all of them
on listed schemas. -/
structure Comparison.Fits
    (schemas : List Schema) (c : Comparison) : Prop where
  pair_mem : c.2 ∈ pairsIn schemas
  assumed_mem : ∀ p ∈ c.1, p ∈ pairsIn schemas
  assumed_nodup : c.1.Nodup

theorem mem_pairsIn {schemas : List Schema} {p : Pair} :
    p ∈ pairsIn schemas ↔ p.1 ∈ schemas ∧ p.2 ∈ schemas :=
  List.mem_product

theorem Comparison.Fits.nested
    {root : Option Schema} {schemas : List Schema}
    (hclosed : Closed root (· ∈ schemas)) {c c' : Comparison}
    (hstep : Nested root c c') (hfits : c.Fits schemas) :
    c'.Fits schemas := by
  obtain ⟨hsuper, hsub⟩ := mem_pairsIn.mp hfits.pair_mem
  have hpair : c'.2 ∈ pairsIn schemas :=
    mem_pairsIn.mpr (hclosed.nested hstep hsuper hsub)
  cases hstep with
  | within => exact ⟨hpair, hfits.assumed_mem, hfits.assumed_nodup⟩
  | @resolved assumed super sub target path next _ hfresh =>
      refine ⟨hpair, ?_, List.nodup_cons.mpr ⟨hfresh, hfits.assumed_nodup⟩⟩
      intro p hp
      rcases List.mem_cons.mp hp with rfl | hp
      · exact mem_pairsIn.mpr
          ⟨hclosed.part _ hsuper _ super.unwrap_mem_parts,
            hclosed.part _ hsub _ sub.unwrap_mem_parts⟩
      · exact hfits.assumed_mem p hp

theorem Comparison.Fits.length_assumed_le
    {schemas : List Schema} {c : Comparison} (hfits : c.Fits schemas) :
    c.1.length ≤ schemas.length * schemas.length := by
  have hle : c.1.length ≤ (pairsIn schemas).length :=
    hfits.assumed_nodup.length_le_of_subset hfits.assumed_mem
  rwa [pairsIn, List.length_product] at hle

/-- How much a comparison of `total` schemas can still ask for. -/
def Comparison.rank (total : Nat) (c : Comparison) : Nat :=
  (total * total - c.1.length) * (2 * total + 1) +
    (c.2.1.weight + c.2.2.weight)

/-- Nested comparisons have less to do. -/
theorem Comparison.Fits.rank_lt
    {root : Option Schema} {schemas : List Schema}
    (hclosed : Closed root (· ∈ schemas))
    (hweight : ∀ s ∈ schemas, s.weight ≤ schemas.length)
    {c c' : Comparison} (hfits : c.Fits schemas)
    (hstep : Nested root c c') :
    c'.rank schemas.length < c.rank schemas.length := by
  have hfits' := hfits.nested hclosed hstep
  cases hstep with
  | @within assumed super sub groups g pair hdemand hg hpair =>
      have hdown := (descends_of_demand hdemand hg hpair).weight_lt
      have hsuper := super.weight_unwrap_le
      have hsub := sub.weight_unwrap_le
      simp only [Comparison.rank]
      omega
  | @resolved assumed super sub target path next =>
      obtain ⟨hleft, hright⟩ := mem_pairsIn.mp hfits'.pair_mem
      have hsuper : (next target).1.weight ≤ schemas.length :=
        hweight _ hleft
      have hsub : (next target).2.weight ≤ schemas.length :=
        hweight _ hright
      have hlength := hfits'.length_assumed_le
      simp only [List.length_cons] at hlength
      obtain ⟨rest, hrest⟩ : ∃ rest,
          schemas.length * schemas.length = rest + (assumed.length + 1) :=
        ⟨_, (Nat.sub_add_cancel hlength).symm⟩
      have hbefore : schemas.length * schemas.length - assumed.length =
          rest + 1 := by omega
      have hafter : schemas.length * schemas.length - (assumed.length + 1) =
          rest := by omega
      simp only [Comparison.rank, List.length_cons, hbefore, hafter]
      rw [Nat.succ_mul rest]
      omega

theorem verdict_ne_exhausted
    {root : Option Schema} {schemas : List Schema}
    (hclosed : Closed root (· ∈ schemas))
    (hweight : ∀ s ∈ schemas, s.weight ≤ schemas.length)
    {c : Comparison} (hfits : c.Fits schemas) {depth : Nat}
    (hdepth : c.rank schemas.length < depth) :
    verdict root depth c.1 c.2.1 c.2.2 ≠ .error .exhausted := by
  induction depth generalizing c with
  | zero => omega
  | succ depth ih =>
      intro hexhausted
      rcases verdict_failure hexhausted with
        ⟨c', hstep, hnested⟩ | ⟨_, _, _, _, hcause⟩
      · have hlt := hfits.rank_lt hclosed hweight hstep
        exact ih (hfits.nested hclosed hstep) (by omega) hnested
      · cases hcause

theorem verdict_eq_of_rank_lt
    {root : Option Schema} {schemas : List Schema}
    (hclosed : Closed root (· ∈ schemas))
    (hweight : ∀ s ∈ schemas, s.weight ≤ schemas.length)
    {c : Comparison} (hfits : c.Fits schemas) {depth depth' : Nat}
    (hdepth : c.rank schemas.length < depth)
    (hdepth' : c.rank schemas.length < depth') :
    verdict root depth c.1 c.2.1 c.2.2 =
      verdict root depth' c.1 c.2.1 c.2.2 := by
  induction depth generalizing c depth' with
  | zero => omega
  | succ depth ih =>
      cases depth' with
      | zero => omega
      | succ depth' =>
          apply verdict_congr
          intro c' hstep
          have hlt := hfits.rank_lt hclosed hweight hstep
          exact ih (hfits.nested hclosed hstep) (by omega) (by omega)

theorem fits_initial (super sub : Schema) (root : Option Schema) :
    Comparison.Fits (scope super sub root) ([], super, sub) where
  pair_mem := by
    rw [mem_pairsIn]
    simp [scope]
  assumed_mem := by
    intro p hp
    cases hp
  assumed_nodup := List.nodup_nil

theorem rank_initial_lt (super sub : Schema) (root : Option Schema) :
    Comparison.rank (scope super sub root).length ([], super, sub) <
      depthBound super sub root := by
  have hlength := length_scope super sub root
  simp only [Comparison.rank, depthBound, ← hlength, List.length_nil,
    Nat.sub_zero]
  generalize (scope super sub root).length = total at hlength
  have hsplit : (total * total + 1) * (2 * total + 2) =
      total * total * (2 * total + 1) + (total * total + 2 * total + 2) := by
    ring
  omega

/-- The comparison of two schemas has an answer at its depth bound. -/
theorem exists_verdict
    (super sub : Schema) (root : Option Schema) :
    ∃ answer : Except DereferenceError Bool,
      ∀ depth, depthBound super sub root ≤ depth →
        verdict root depth [] super sub =
          answer.mapError Failure.unresolved := by
  have hclosed := closed_scope super sub root
  have hweight : ∀ s ∈ scope super sub root,
      s.weight ≤ (scope super sub root).length :=
    fun s hs => weight_le_length_scope hs
  have hfits := fits_initial super sub root
  have hrank := rank_initial_lt super sub root
  have hstable : ∀ depth, depthBound super sub root ≤ depth →
      verdict root depth [] super sub =
        verdict root (depthBound super sub root) [] super sub :=
    fun depth hdepth =>
      verdict_eq_of_rank_lt hclosed hweight hfits (by omega) hrank
  have hne := verdict_ne_exhausted hclosed hweight hfits hrank
  cases hverdict : verdict root (depthBound super sub root) [] super sub with
  | ok b => exact ⟨.ok b, fun depth hdepth =>
      (hstable depth hdepth).trans hverdict⟩
  | error failure =>
      cases failure with
      | exhausted => exact absurd hverdict hne
      | unresolved cause => exact ⟨.error cause, fun depth hdepth =>
          (hstable depth hdepth).trans hverdict⟩

/-- From its depth bound on, a comparison gives the answer on its schemas. -/
theorem verdict_eq_isSubtypeIn
    {super sub : Schema} {root : Option Schema} {depth : Nat}
    (hdepth : depthBound super sub root ≤ depth) :
    verdict root depth [] super sub =
      (super.isSubtypeIn sub root).mapError Failure.unresolved := by
  obtain ⟨answer, hanswer⟩ := exists_verdict super sub root
  have hsubtype : super.isSubtypeIn sub root = answer := by
    rw [isSubtypeIn_eq_verdict, hanswer _ le_rfl]
    cases answer <;> rfl
  rw [hanswer depth hdepth, hsubtype]

theorem fits_of_reached
    {super sub : Schema} {root : Option Schema} {c : Comparison}
    (h : Relation.ReflTransGen (Nested root) ([], super, sub) c) :
    c.Fits (scope super sub root) := by
  induction h with
  | refl => exact fits_initial super sub root
  | tail _ hstep ih => exact ih.nested (closed_scope super sub root) hstep

theorem run_check
    (key : Schema → UInt64) (root : Option Schema) (depth : Nat)
    (super sub : Schema) :
    ((check key root depth super sub : CheckT Id Bool).run.run []).run =
      (verdict root depth [] super sub, []) :=
  answers_check key root depth Assumptions.tidy_nil
    (Assumptions.lists_nil key) super sub

/-- Every comparison ends.  The comparisons nested in it never assume a pair
twice, and all pairs come from the schemas that can come up.  These are the
comparisons that are made: putting them down changes nothing else, and each is
reached from the first one.  From the depth bound on the answer is there, does
not change any more, and leaves no assumption behind. -/
theorem check_terminates
    (key : Schema → UInt64) (super sub : Schema) (root : Option Schema) :
    (∀ c, Relation.ReflTransGen (Nested root) ([], super, sub) c →
      c.1.Nodup ∧ ∀ p ∈ c.2 :: c.1, p ∈ pairsIn (scope super sub root)) ∧
    (∀ depth, ∃ made,
      ((recorded key root depth super sub).run.run []).run [] =
        (((check key root depth super sub : CheckT Id Bool).run.run []).run,
          made) ∧
      ∀ c ∈ made, Reached root ([], super, sub) c) ∧
    ∃ answer : Except DereferenceError Bool,
      ∀ depth, depthBound super sub root ≤ depth →
        ((check key root depth super sub : CheckT Id Bool).run.run []).run =
          (answer.mapError Failure.unresolved, []) := by
  refine ⟨?_, ?_, ?_⟩
  · intro c hreached
    have hfits := fits_of_reached hreached
    exact ⟨hfits.assumed_nodup,
      List.forall_mem_cons.mpr ⟨hfits.pair_mem, hfits.assumed_mem⟩⟩
  · intro depth
    rw [run_check]
    exact records_recorded key root depth Assumptions.tidy_nil
      (Assumptions.lists_nil key) (List.Perm.refl _) super sub []
  · obtain ⟨answer, hanswer⟩ := exists_verdict super sub root
    refine ⟨answer, ?_⟩
    intro depth hdepth
    rw [run_check, hanswer depth hdepth]

end Schemata.Subtyping
