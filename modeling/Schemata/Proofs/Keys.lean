import Schemata.Proofs.Subtyping.Termination
import Schemata.Proofs.Union.Insertion

/-!
# Keys decide nothing

Assumed pairs and candidates for a union are filed under keys, and schemas that
are not the same may have the same key.  The pairs under one key form a stack:
what a comparison puts there it takes out again, whether it fails or not, so a
table always files the pairs that are being compared further out.  A candidate
recognised by its key is one of the possibilities that are kept, also where
schemas filed before it have been removed since, and comparing it with all of
them would change nothing.
-/

namespace Schemata

open Subtyping

namespace Subtyping.Assumptions

/-- The table that files pairs one after the other, the first of them last. -/
def filed (key : Schema → UInt64) : List Pair → Assumptions
  | [] => []
  | pair :: assumed => push (key pair.1, key pair.2) pair (filed key assumed)

theorem tidy_filed (key : Schema → UInt64) (assumed : List Pair) :
    (filed key assumed).Tidy := by
  induction assumed with
  | nil => exact tidy_nil
  | cons pair assumed ih => exact ih.push _ _

theorem lists_filed (key : Schema → UInt64) (assumed : List Pair) :
    (filed key assumed).Lists key assumed := by
  induction assumed with
  | nil => exact lists_nil key
  | cons pair assumed ih => exact ih.push _ _

end Subtyping.Assumptions

namespace Union

/-! ## Without a table of schemas met before -/

section Scanned

variable {m : Type → Type} [Monad m] [MonadReport m]

/-- Inserts a candidate by comparing it with all possibilities, also if it is
one of them. -/
def insertScanned (key : Schema → UInt64) (kept : List Schema)
    (candidate : Schema) : m (List Schema) := do
  let (kept, found) ← scan key candidate kept
  if found then return kept else return kept ++ [candidate]

/-- The possibilities of the union of the given schemas, each compared with all
that are kept when its turn comes. -/
def normalizeScanned (key : Schema → UInt64) (given : List Schema) :
    m (List Schema) := do
  let kept ← (Schema.flattenAll given).foldlM (insertScanned key) []
  return sortBy Schema.compare kept

variable [LawfulMonad m] [SilentReport m]

theorem insertScanned_eq
    (key : Schema → UInt64) (kept : List Schema) (candidate : Schema) :
    (insertScanned key kept candidate : m _) =
      pure (insertPlain kept candidate) := by
  simp only [insertScanned, scan_eq, pure_bind, insertPlain]
  split <;> rfl

theorem normalizeScanned_eq (key : Schema → UInt64) (given : List Schema) :
    (normalizeScanned key given : m _) = pure (possibilities given) := by
  have hinsert : (insertScanned key : List Schema → Schema → m _) =
      fun kept candidate => pure (insertPlain kept candidate) := by
    funext kept candidate
    exact insertScanned_eq key kept candidate
  rw [normalizeScanned, hinsert, List.foldlM_pure, pure_bind]
  rfl

end Scanned

/-! ## What is recognised -/

/-- Every possibility that is kept is filed under its own key. -/
def Normalizer.Filed (key : Schema → UInt64) (n : Normalizer) : Prop :=
  ∀ p ∈ n.kept, (key p, p) ∈ n.seen

/-- A candidate is recognised exactly if it is one of the possibilities. -/
theorem Normalizer.Filed.recognises_iff
    {key : Schema → UInt64} {n : Normalizer} (h : n.Filed key)
    (candidate : Schema) :
    n.recognises (key candidate) candidate = true ↔ candidate ∈ n.kept := by
  constructor
  · exact mem_kept_of_recognises
  · intro hmem
    simp only [Normalizer.recognises, List.any_eq_true, Bool.and_eq_true,
      Schema.same_iff, beq_iff_eq]
    exact ⟨(key candidate, candidate), h candidate hmem, ⟨rfl, rfl⟩, candidate,
      hmem, rfl⟩

theorem Normalizer.Filed.insert
    {key : Schema → UInt64} {n : Normalizer} (h : n.Filed key)
    (candidate : Schema) :
    (Id.run (Union.insert key n candidate)).Filed key := by
  -- What is removed stays filed, which does no harm: only what is kept counts.
  have hstay : ∀ p ∈ n.kept.filter (stays candidate), (key p, p) ∈ n.seen :=
    fun p hp => h p (List.mem_of_mem_filter hp)
  simp only [Union.insert, scan_eq, pure_bind]
  split
  · exact h
  · split
    · exact hstay
    · intro p hp
      rcases List.mem_append.mp hp with hp | hp
      · exact List.mem_append_left _ (hstay p hp)
      · obtain rfl := List.mem_singleton.mp hp
        simp

theorem Normalizer.Filed.foldlM
    {key : Schema → UInt64} {n : Normalizer} (h : n.Filed key)
    (candidates : List Schema) :
    (Id.run (candidates.foldlM (Union.insert key) n)).Filed key := by
  induction candidates generalizing n with
  | nil => exact h
  | cons candidate rest ih => exact ih (h.insert candidate)

end Union

/-- Whatever the keys are, also if they are all the same: a comparison answers
as the one with a plain list of assumptions does, and every comparison leaves
the table as it was, with an answer or with an error.  A union keeps what it
keeps if every candidate is compared with all possibilities, under any keys, and
on the way a candidate is recognised exactly if it is one of these. -/
theorem keys_immaterial (key : Schema → UInt64) :
    (∀ (super sub : Schema) (root : Option Schema),
      Id.run (super.isSubtypeInM key sub root) = super.isSubtypeIn sub root ∧
        ∀ depth, depthBound super sub root ≤ depth →
          verdict root depth [] super sub =
            (super.isSubtypeIn sub root).mapError Failure.unresolved) ∧
    (∀ (root : Option Schema) (depth : Nat) (assumed : List Pair)
      (super sub : Schema),
      ((check key root depth super sub : CheckT Id Bool).run.run
          (Assumptions.filed key assumed)).run =
        (verdict root depth assumed super sub,
          Assumptions.filed key assumed)) ∧
    (∀ (key' : Schema → UInt64) (given : List Schema),
      Build.union (given.map some) =
          .ok (.union (Id.run (Union.normalize key given))) ∧
        Id.run (Union.normalize key given) =
          Id.run (Union.normalizeScanned key' given)) ∧
    ∀ (candidates : List Schema) (candidate : Schema),
      let n := Id.run (candidates.foldlM (Union.insert key) {})
      n.recognises (key candidate) candidate = true ↔ candidate ∈ n.kept := by
  refine ⟨?_, ?_, ?_, ?_⟩
  · intro super sub root
    refine ⟨?_, fun depth hdepth => verdict_eq_isSubtypeIn hdepth⟩
    rw [isSubtypeInM_eq, isSubtypeIn_eq_verdict]
    rfl
  · intro root depth assumed super sub
    exact answers_check key root depth (Assumptions.tidy_filed key assumed)
      (Assumptions.lists_filed key assumed) super sub
  · intro key' given
    rw [Union.build_union, Union.normalize_eq, Union.normalizeScanned_eq]
    exact ⟨rfl, rfl⟩
  · intro candidates candidate
    have hempty : ({} : Union.Normalizer).Filed key := List.forall_mem_nil _
    exact (hempty.foldlM candidates).recognises_iff candidate

end Schemata
