import Schemata.Union
import Schemata.Proofs.Sorted
import Schemata.Proofs.Schema.TotalOrder
import Schemata.Proofs.Subtyping.Plain
import Mathlib.Logic.Relation

/-!
# Inserting possibilities

A candidate leaves behind the possibilities that it does not cover, and those
that cover it, and it joins them if there are none of the latter.  So no
possibility ever covers another one.  A candidate recognised by its key is one
of the possibilities, for which the comparisons would have changed nothing:
the keys can be left out.

Whatever is dropped or removed leaves something behind that covers it.  What
covers may be removed in its turn, and subtyping need not be transitive, so
only a chain leads from the possibilities that remain to everything that was
inserted.
-/

namespace Schemata

open Subtyping

namespace Schema

/-- The schemas, unions apart, that a schema chooses from through unions. -/
inductive Offers : Schema → Schema → Prop
  | itself {s : Schema} : s.kind ≠ .union → Offers s s
  | possibility {ps : List Schema} {p q : Schema} :
      p ∈ ps → Offers p q → Offers (.union ps) q

theorem Offers.kind_ne_union
    {s q : Schema} (h : s.Offers q) : q.kind ≠ .union := by
  induction h with
  | itself hkind => exact hkind
  | possibility _ _ ih => exact ih

theorem Offers.trans
    {s q r : Schema} (hsq : s.Offers q) (hqr : q.Offers r) : s.Offers r := by
  induction hsq with
  | itself => exact hqr
  | possibility hp _ ih => exact .possibility hp (ih hqr)

theorem Offers.eq_of_kind_ne_union
    {s q : Schema} (h : s.Offers q) (hkind : s.kind ≠ .union) : q = s := by
  cases h with
  | itself => rfl
  | possibility => exact absurd rfl hkind

theorem Offers.mem_parts
    {s q : Schema} (h : s.Offers q) : q ∈ s.parts := by
  induction h with
  | itself => exact self_mem_parts _
  | possibility hp _ ih =>
      exact parts_subset_of_mem_parts (mem_parts_of_mem_children hp) ih

theorem mem_flattenAll_iff_exists
    {ps : List Schema} {q : Schema} :
    q ∈ flattenAll ps ↔ ∃ p ∈ ps, q ∈ p.flatten := by
  induction ps with
  | nil => simp [flattenAll]
  | cons p ps ih => simp [flattenAll, ih]

theorem mem_flatten_iff {s q : Schema} : q ∈ s.flatten ↔ s.Offers q := by
  induction s using childrenInduction with
  | step s ih =>
      by_cases hunion : ∃ ps, s = .union ps
      · obtain ⟨ps, rfl⟩ := hunion
        rw [flatten, mem_flattenAll_iff_exists]
        constructor
        · rintro ⟨p, hp, hq⟩
          exact .possibility hp ((ih p hp).mp hq)
        · intro h
          cases h with
          | itself hkind => exact absurd rfl hkind
          | possibility hp hq => exact ⟨_, hp, (ih _ hp).mpr hq⟩
      · have hne : ∀ ps, s ≠ .union ps := fun ps hs => hunion ⟨ps, hs⟩
        have hkind : s.kind ≠ .union := by
          cases s <;> first | exact absurd rfl (hne _) | simp [kind]
        rw [flatten, List.mem_singleton]
        · constructor
          · rintro rfl
            exact .itself hkind
          · intro h
            cases h with
            | itself => rfl
            | possibility => exact absurd rfl (hne _)
        · exact hne

/-- Whether a schema covers another one for the purposes of a union, where a
comparison that fails covers nothing. -/
def absorbs (super sub : Schema) : Bool :=
  match super.isSubtype sub with
  | .ok b => b
  | .error _ => false

theorem absorbs_iff {super sub : Schema} :
    super.absorbs sub = true ↔ super.isSubtype sub = .ok true := by
  unfold absorbs
  split <;> simp_all

theorem absorbs_self (s : Schema) : s.absorbs s = true :=
  absorbs_iff.mpr (isSubtypeIn_self s (some s))

end Schema

namespace Union

/-- The schemas, unions apart, that a union of the given ones is made of. -/
def Offered (given : List Schema) (q : Schema) : Prop :=
  ∃ p ∈ given, p.Offers q

theorem mem_flattenAll_iff {given : List Schema} {q : Schema} :
    q ∈ Schema.flattenAll given ↔ Offered given q := by
  simp only [Schema.mem_flattenAll_iff_exists, Schema.mem_flatten_iff, Offered]

/-- Whether a possibility stays when a candidate is inserted. -/
def stays (candidate p : Schema) : Bool :=
  p.absorbs candidate || !candidate.absorbs p

/-- Inserts a candidate by comparing it with all possibilities. -/
def insertPlain (kept : List Schema) (candidate : Schema) : List Schema :=
  if kept.any (·.absorbs candidate) then kept.filter (stays candidate)
  else kept.filter (stays candidate) ++ [candidate]

theorem mem_insertPlain_iff {kept : List Schema} {candidate p : Schema} :
    p ∈ insertPlain kept candidate ↔
      p ∈ kept ∧ (p.absorbs candidate = true ∨ candidate.absorbs p = false) ∨
        p = candidate ∧ ∀ k ∈ kept, k.absorbs candidate = false := by
  unfold insertPlain
  split
  · rename_i hfound
    obtain ⟨k, hk, hcovers⟩ := List.any_eq_true.mp hfound
    have hnot : ¬ ∀ k ∈ kept, k.absorbs candidate = false := by
      intro h
      rw [h k hk] at hcovers
      cases hcovers
    simp [stays, hnot]
  · rename_i hfound
    have hnone : ∀ k ∈ kept, k.absorbs candidate = false := by
      simpa using hfound
    simp [stays, List.mem_append, iff_true_intro hnone]

theorem mem_insertPlain_of_mem
    {kept : List Schema} {candidate p : Schema} (hp : p ∈ kept) :
    p ∈ insertPlain kept candidate ∨ candidate.absorbs p = true := by
  rw [mem_insertPlain_iff]
  cases candidate.absorbs p <;> simp [hp]

/-- What is left after an insertion covers the candidate. -/
theorem exists_absorbs_candidate (kept : List Schema) (candidate : Schema) :
    ∃ p ∈ insertPlain kept candidate, p.absorbs candidate = true := by
  by_cases hfound : ∃ k ∈ kept, k.absorbs candidate = true
  · obtain ⟨k, hk, hcovers⟩ := hfound
    exact ⟨k, mem_insertPlain_iff.mpr (.inl ⟨hk, .inl hcovers⟩), hcovers⟩
  · have hnone : ∀ k ∈ kept, k.absorbs candidate = false := by
      simpa using hfound
    exact ⟨candidate, mem_insertPlain_iff.mpr (.inr ⟨rfl, hnone⟩),
      candidate.absorbs_self⟩

/-- Neither of two schemas covers the other one. -/
def Apart (p q : Schema) : Prop :=
  p.absorbs q = false ∧ q.absorbs p = false

instance : Std.Symm Apart where
  symm _ _ h := h.symm

/-- No possibility covers another one. -/
def Antichain (kept : List Schema) : Prop := kept.Pairwise Apart

theorem Antichain.eq_of_absorbs
    {kept : List Schema} (h : Antichain kept) {p q : Schema}
    (hp : p ∈ kept) (hq : q ∈ kept) (hcovers : p.absorbs q = true) :
    p = q := by
  by_contra hne
  have hapart : Apart p q := List.Pairwise.forall h hp hq hne
  rw [hapart.1] at hcovers
  cases hcovers

theorem Antichain.nodup
    {kept : List Schema} (h : Antichain kept) : kept.Nodup := by
  refine List.Pairwise.imp ?_ h
  rintro p _ ⟨hnot, _⟩ rfl
  rw [p.absorbs_self] at hnot
  cases hnot

theorem Antichain.inserted
    {kept : List Schema} (h : Antichain kept) (candidate : Schema) :
    Antichain (insertPlain kept candidate) := by
  have hrest : Antichain (kept.filter (stays candidate)) :=
    List.Pairwise.filter _ h
  unfold insertPlain
  split
  · exact hrest
  · rename_i hfound
    have hnone : ∀ k ∈ kept, k.absorbs candidate = false := by
      simpa using hfound
    refine List.pairwise_append.mpr
      ⟨hrest, List.pairwise_singleton _ _, ?_⟩
    intro p hp q hq
    obtain rfl := List.mem_singleton.mp hq
    obtain ⟨hmem, hstays⟩ := List.mem_filter.mp hp
    rw [stays, hnone p hmem, Bool.false_or, Bool.not_eq_true'] at hstays
    exact ⟨hnone p hmem, hstays⟩

/-- A candidate that is already there changes nothing. -/
theorem Antichain.insertPlain_of_mem
    {kept : List Schema} (h : Antichain kept) {candidate : Schema}
    (hmem : candidate ∈ kept) : insertPlain kept candidate = kept := by
  have hfound : kept.any (·.absorbs candidate) = true :=
    List.any_eq_true.mpr ⟨candidate, hmem, candidate.absorbs_self⟩
  rw [insertPlain, if_pos hfound, List.filter_eq_self]
  intro p hp
  by_cases hcovers : candidate.absorbs p = true
  · rw [h.eq_of_absorbs hmem hp hcovers, stays, p.absorbs_self, Bool.true_or]
  · simp [stays, hcovers]

/-! ## Insertion without keys -/

/-- The possibilities of a union of the given schemas, found without keys. -/
def possibilities (given : List Schema) : List Schema :=
  sortBy Schema.compare ((Schema.flattenAll given).foldl insertPlain [])

theorem possibilities_map_some (given : List Schema) :
    Build.possibilities (given.map some) = .ok given := by
  induction given with
  | nil => rfl
  | cons p ps ih => rw [List.map_cons, Build.possibilities, ih]

theorem mem_kept_of_recognises
    {n : Normalizer} {key : UInt64} {candidate : Schema}
    (h : n.recognises key candidate = true) : candidate ∈ n.kept := by
  simp only [Normalizer.recognises, List.any_eq_true, Bool.and_eq_true,
    Schema.same_iff] at h
  obtain ⟨⟨k, q⟩, _, ⟨_, rfl⟩, p, hp, rfl⟩ := h
  exact hp

section Runs

variable {m : Type → Type} [Monad m] [LawfulMonad m] [MonadReport m]
  [SilentReport m]

theorem covers_eq (key : Schema → UInt64) (super sub : Schema) :
    (covers key super sub : m Bool) = pure (super.absorbs sub) := by
  rw [covers, isSubtypeInM_eq, ← isSubtypeIn_eq_verdict, pure_bind,
    Schema.absorbs, Schema.isSubtype]
  cases super.isSubtypeIn sub (some sub) <;> rfl

theorem scan_eq
    (key : Schema → UInt64) (candidate : Schema) (kept : List Schema) :
    (scan key candidate kept : m _) =
      pure (kept.filter (stays candidate),
        kept.any (·.absorbs candidate)) := by
  induction kept with
  | nil => rfl
  | cons p ps ih =>
      simp only [scan, ih, covers_eq, report_eq, pure_bind]
      cases hcovers : p.absorbs candidate <;>
        cases hcovered : candidate.absorbs p <;>
        simp [hcovers, hcovered, stays]

theorem insert_eq
    (key : Schema → UInt64) {n : Normalizer} (hkept : Antichain n.kept)
    (candidate : Schema) :
    ∃ n' : Normalizer, n'.kept = insertPlain n.kept candidate ∧
      (insert key n candidate : m Normalizer) = pure n' := by
  simp only [insert]
  split
  · rename_i hrecognised
    refine ⟨n, ?_, rfl⟩
    exact (hkept.insertPlain_of_mem
      (mem_kept_of_recognises hrecognised)).symm
  · simp only [scan_eq, pure_bind, insertPlain]
    split
    · exact ⟨_, rfl, rfl⟩
    · exact ⟨_, rfl, rfl⟩

theorem foldlM_insert_eq
    (key : Schema → UInt64) {n : Normalizer} (hkept : Antichain n.kept)
    (candidates : List Schema) :
    ∃ n' : Normalizer, n'.kept = candidates.foldl insertPlain n.kept ∧
      (candidates.foldlM (insert key) n : m Normalizer) = pure n' := by
  induction candidates generalizing n with
  | nil => exact ⟨n, rfl, rfl⟩
  | cons candidate rest ih =>
      obtain ⟨next, hnext, hinsert⟩ := insert_eq (m := m) key hkept candidate
      have hantichain := hkept.inserted candidate
      rw [← hnext] at hantichain
      rw [List.foldlM_cons, hinsert, pure_bind, List.foldl_cons, ← hnext]
      exact ih hantichain

theorem normalize_eq (key : Schema → UInt64) (given : List Schema) :
    (normalize key given : m _) = pure (possibilities given) := by
  obtain ⟨n, hkept, hfold⟩ := foldlM_insert_eq (m := m) key (n := {})
    List.Pairwise.nil (Schema.flattenAll given)
  rw [normalize, hfold, pure_bind, report_eq, pure_bind, hkept]
  rfl

theorem unionM_eq (given : List (Option Schema)) :
    (Build.unionM given : ExceptT ConstructionError m Schema) =
      ExceptT.mk (pure (Build.union given)) := by
  ext
  simp only [Build.union, Build.unionM, normalize_eq, ExceptT.run_bind,
    ExceptT.run_mk, pure_bind]
  cases Build.possibilities given with
  | error e => rfl
  | ok ps => simp

end Runs

/-- A union of schemas none of which is missing can be built. -/
theorem build_union (given : List Schema) :
    Build.union (given.map some) = .ok (.union (possibilities given)) := by
  simp only [Build.union, Build.unionM, possibilities_map_some, normalize_eq]
  rfl

/-! ## What a run of insertions keeps -/

/-- One of some schemas covers a schema. -/
def Links (among : Schema → Prop) (p q : Schema) : Prop :=
  among p ∧ p.isSubtype q = .ok true

/-- The possibilities left when some candidates have been inserted. -/
structure Inserted (candidates kept : List Schema) : Prop where
  antichain : Antichain kept
  mem_candidates : ∀ p ∈ kept, p ∈ candidates
  linked : ∀ q ∈ candidates, ∃ p ∈ kept,
    Relation.ReflTransGen (Links (· ∈ candidates)) p q

theorem inserted_nil : Inserted [] [] where
  antichain := List.Pairwise.nil
  mem_candidates := by
    intro p hp
    cases hp
  linked := by
    intro q hq
    cases hq

theorem Inserted.concat
    {candidates kept : List Schema} (h : Inserted candidates kept)
    (candidate : Schema) :
    Inserted (candidates ++ [candidate]) (insertPlain kept candidate) := by
  have hmem : ∀ p ∈ insertPlain kept candidate,
      p ∈ candidates ++ [candidate] := by
    intro p hp
    rcases mem_insertPlain_iff.mp hp with ⟨hp, _⟩ | ⟨rfl, _⟩
    · exact List.mem_append_left _ (h.mem_candidates p hp)
    · simp
  refine ⟨h.antichain.inserted candidate, hmem, ?_⟩
  intro q hq
  obtain ⟨r, hr, hcovers⟩ := exists_absorbs_candidate kept candidate
  have hlink : Links (· ∈ candidates ++ [candidate]) r candidate :=
    ⟨hmem r hr, Schema.absorbs_iff.mp hcovers⟩
  rcases List.mem_append.mp hq with hq | hq
  · obtain ⟨p, hp, hchain⟩ := h.linked q hq
    have hchain' : Relation.ReflTransGen
        (Links (· ∈ candidates ++ [candidate])) p q := by
      refine Relation.ReflTransGen.mono ?_ _ _ hchain
      intro a b hab
      exact ⟨List.mem_append_left _ hab.1, hab.2⟩
    -- A possibility removed here is replaced by what covers the candidate.
    rcases mem_insertPlain_of_mem hp with hstays | hremoved
    · exact ⟨p, hstays, hchain'⟩
    · have hnext : Links (· ∈ candidates ++ [candidate]) candidate p :=
        ⟨by simp, Schema.absorbs_iff.mp hremoved⟩
      exact ⟨r, hr, (hchain'.head hnext).head hlink⟩
  · obtain rfl := List.mem_singleton.mp hq
    exact ⟨r, hr, .single hlink⟩

theorem inserted_foldl (candidates : List Schema) :
    Inserted candidates (candidates.foldl insertPlain []) := by
  induction candidates using List.reverseRecOn with
  | nil => exact inserted_nil
  | append_singleton candidates candidate ih =>
      rw [List.foldl_concat]
      exact ih.concat candidate

end Union

end Schemata
