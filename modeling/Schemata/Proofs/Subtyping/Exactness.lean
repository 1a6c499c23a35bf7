import Schemata.Proofs.Subtyping.Rules
import Schemata.Proofs.Subtyping.Termination
import Schemata.Schema.Build

/-!
# Answers are exact

A comparison under assumptions decides the greatest relation whose pairs are
assumed or justified by a rule.  A pair that is compared through a reference
belongs to this relation if a rule justifies it once the pair itself is
assumed too: what holds under an assumption that has been discharged so holds
without it.  In the end nothing is assumed, and the relation is subtyping.
-/

namespace Schemata.Subtyping

/-- What the rules justify from a relation, besides some assumed pairs. -/
def rulesAssuming (root : Option Schema) (assumed : List Pair) :
    (Schema → Schema → Prop) →o (Schema → Schema → Prop) where
  toFun R super sub := (super.unwrap, sub.unwrap) ∈ assumed ∨
    Justified root R super.unwrap sub.unwrap
  monotone' _ _ hle _ _ h := h.imp_right (·.mono hle)

def CoversAssuming (root : Option Schema) (assumed : List Pair) :
    Schema → Schema → Prop :=
  (rulesAssuming root assumed).gfp

theorem coversAssuming_nil (root : Option Schema) :
    CoversAssuming root [] = Covers root := by
  have hrules : rulesAssuming root [] = rules root := by
    ext R super sub
    exact ⟨fun h => h.resolve_left List.not_mem_nil, .inr⟩
  rw [CoversAssuming, hrules, Covers]

theorem coversAssuming_iff
    (root : Option Schema) (assumed : List Pair) (super sub : Schema) :
    CoversAssuming root assumed super sub ↔
      (super.unwrap, sub.unwrap) ∈ assumed ∨
        Justified root (CoversAssuming root assumed)
          super.unwrap sub.unwrap := by
  have hfixed :
      rulesAssuming root assumed (CoversAssuming root assumed) =
        CoversAssuming root assumed :=
    (rulesAssuming root assumed).map_gfp
  exact (iff_of_eq (congrFun (congrFun hfixed super) sub)).symm

theorem CoversAssuming.cons
    {root : Option Schema} {assumed : List Pair} {super sub : Schema}
    (h : CoversAssuming root assumed super sub) (pair : Pair) :
    CoversAssuming root (pair :: assumed) super sub := by
  have hle : CoversAssuming root assumed ≤
      CoversAssuming root (pair :: assumed) := by
    apply OrderHom.le_gfp
    intro a b hab
    rcases (coversAssuming_iff root assumed a b).mp hab with hmem | hrule
    · exact .inl (List.mem_cons_of_mem pair hmem)
    · exact .inr hrule
  exact hle super sub h

/-- A pair may be assumed while it is being justified. -/
theorem coversAssuming_iff_cons
    (root : Option Schema) (assumed : List Pair) (super sub : Schema) :
    CoversAssuming root assumed super sub ↔
      (super.unwrap, sub.unwrap) ∈ assumed ∨
        Justified root
          (CoversAssuming root ((super.unwrap, sub.unwrap) :: assumed))
          super.unwrap sub.unwrap := by
  constructor
  · intro h
    rcases (coversAssuming_iff root assumed super sub).mp h with hmem | hrule
    · exact .inl hmem
    · exact .inr (hrule.mono fun a b hab => hab.cons _)
  · rintro (hmem | hrule)
    · exact (coversAssuming_iff root assumed super sub).mpr (.inl hmem)
    · have hle :
          CoversAssuming root ((super.unwrap, sub.unwrap) :: assumed) ≤
            CoversAssuming root assumed := by
        apply OrderHom.le_gfp
        intro a b hab
        rcases (coversAssuming_iff root _ a b).mp hab with hmem | hab
        · rcases List.mem_cons.mp hmem with hpair | hmem
          · obtain ⟨ha, hb⟩ := Prod.mk.inj hpair
            right
            rw [ha, hb]
            exact hrule
          · exact .inl hmem
        · exact .inr hab
      apply hle
      exact (coversAssuming_iff root _ super sub).mpr
        (.inl List.mem_cons_self)

theorem anyM_eq_true_iff
    {ε α : Type} {f : α → Except ε Bool} {P : α → Prop} {xs : List α}
    (h : ∀ x ∈ xs, ∀ b, f x = .ok b → (b = true ↔ P x)) {b : Bool}
    (hb : xs.anyM f = .ok b) : b = true ↔ ∃ x ∈ xs, P x := by
  induction xs with
  | nil =>
      cases hb
      simp
  | cons x xs ih =>
      have htail := ih fun y hy => h y (List.mem_cons_of_mem x hy)
      rw [List.anyM_cons] at hb
      cases hx : f x with
      | error e =>
          rw [hx] at hb
          cases hb
      | ok c =>
          have hhead := h x List.mem_cons_self c hx
          rw [hx] at hb
          cases c with
          | true =>
              cases hb
              simp [hhead.mp rfl]
          | false =>
              have hnot : ¬ P x := fun hP => by simpa using hhead.mpr hP
              simpa [hnot] using htail hb

theorem allM_eq_true_iff
    {ε α : Type} {f : α → Except ε Bool} {P : α → Prop} {xs : List α}
    (h : ∀ x ∈ xs, ∀ b, f x = .ok b → (b = true ↔ P x)) {b : Bool}
    (hb : xs.allM f = .ok b) : b = true ↔ ∀ x ∈ xs, P x := by
  rw [List.allM_eq_not_anyM_not] at hb
  cases hany : xs.anyM (fun x => (! ·) <$> f x) with
  | error e =>
      rw [hany] at hb
      cases hb
  | ok c =>
      rw [hany] at hb
      cases hb
      have hexists : c = true ↔ ∃ x ∈ xs, ¬ P x := by
        refine anyM_eq_true_iff ?_ hany
        intro x hx b hfx
        cases hvalue : f x with
        | error e =>
            rw [hvalue] at hfx
            cases hfx
        | ok d =>
            rw [hvalue] at hfx
            cases hfx
            simp [← h x hx d hvalue]
      have hnot := not_congr hexists
      push Not at hnot
      simpa using hnot

/-- Only pairs that are compared through a reference are assumed. -/
def ThroughReferences (assumed : List Pair) : Prop :=
  ∀ p ∈ assumed, ∃ path next, demand p.1 p.2 = .through path next

/-- An answer under assumptions says whether the pair belongs to subtyping
under these assumptions. -/
theorem verdict_exact
    {root : Option Schema} {depth : Nat} {assumed : List Pair}
    (hassumed : ThroughReferences assumed) {super sub : Schema} {b : Bool}
    (h : verdict root depth assumed super sub = .ok b) :
    b = true ↔ CoversAssuming root assumed super sub := by
  induction depth generalizing assumed super sub b with
  | zero => cases h
  | succ depth ih =>
      cases hdemand : demand super.unwrap sub.unwrap with
      | each groups =>
          have hfresh : (super.unwrap, sub.unwrap) ∉ assumed := by
            intro hmem
            obtain ⟨path, next, hthrough⟩ := hassumed _ hmem
            rw [hdemand] at hthrough
            cases hthrough
          rw [verdict_each hdemand] at h
          rw [coversAssuming_iff, justified_iff_met, hdemand]
          simp only [hfresh, false_or, Demand.Met]
          refine allM_eq_true_iff ?_ h
          intro g _ c hg
          refine anyM_eq_true_iff ?_ hg
          intro pair _ c hpair
          exact ih hassumed hpair
      | through path next =>
          rw [coversAssuming_iff_cons, justified_iff_met, hdemand]
          by_cases hmem : (super.unwrap, sub.unwrap) ∈ assumed
          · rw [verdict_assumed hdemand hmem] at h
            cases h
            simp [hmem]
          · simp only [hmem, false_or, Demand.Met]
            cases hresolve : Schema.resolve root path with
            | error cause =>
                rw [verdict_unresolved hdemand hmem hresolve] at h
                cases h
            | ok target =>
                rw [verdict_resolved hdemand hmem hresolve] at h
                have hassumed' : ThroughReferences
                    ((super.unwrap, sub.unwrap) :: assumed) := by
                  intro p hp
                  rcases List.mem_cons.mp hp with rfl | hp
                  · exact ⟨path, next, hdemand⟩
                  · exact hassumed p hp
                simpa using ih hassumed' h

theorem isSubtypeIn_iff_covers
    {super sub : Schema} {root : Option Schema} {b : Bool}
    (h : super.isSubtypeIn sub root = .ok b) :
    b = true ↔ Covers root super sub := by
  have hverdict := verdict_eq_isSubtypeIn (le_refl (depthBound super sub root))
  rw [h] at hverdict
  rw [← coversAssuming_nil]
  exact verdict_exact (fun _ hp => by cases hp) hverdict

/-- An answer without error says whether the two schemas belong to the
greatest relation whose pairs are all justified by a rule from pairs of the
relation. -/
theorem isSubtypeIn_exact
    {super sub : Schema} {root : Option Schema} {b : Bool}
    (h : super.isSubtypeIn sub root = .ok b) :
    ∃ R : Schema → Schema → Prop,
      IsGreatest
        {S | ∀ a c, S a c → Justified root S a.unwrap c.unwrap} R ∧
        (b = true ↔ R super sub) := by
  refine ⟨Covers root, ?_, isSubtypeIn_iff_covers h⟩
  exact (rules root).isGreatest_gfp_le

/-- One element of a chain: a value and a reference to where the chain goes
on, which may be missing. -/
def link (next : Bytes) (nbytes : Nat) : Schema :=
  .record [([0x6E], .union [.null, .reference [.field next]]),
    ([0x76], .number true true nbytes)]

/-- Two tables of links, each of which refers to itself. -/
def chains : Schema :=
  .record [([0x6E], .list (link [0x6E] 4)), ([0x77], .list (link [0x77] 8))]

set_option maxRecDepth 4000 in
/-- The answers on chains of wide and of narrow links, which refer to
themselves. -/
theorem isSubtypeIn_exact_chains :
    let wide := Schema.reference [.field [0x77]]
    let narrow := Schema.reference [.field [0x6E]]
    let related := {S : Schema → Schema → Prop |
      ∀ a c, S a c → Justified (some chains) S a.unwrap c.unwrap}
    (wide.isSubtypeIn narrow (some chains) = .ok true ∧
      ∃ R, IsGreatest related R ∧ (true = true ↔ R wide narrow)) ∧
    (narrow.isSubtypeIn wide (some chains) = .ok false ∧
      ∃ R, IsGreatest related R ∧ (false = true ↔ R narrow wide)) :=
  ⟨⟨rfl, isSubtypeIn_exact rfl⟩, ⟨rfl, isSubtypeIn_exact rfl⟩⟩

end Schemata.Subtyping
