import Schemata.Sorted
import Mathlib.Tactic

/-!
# Sorted lists

Sorting by a comparison is the insertion sort of the library.  It so permutes a
list and puts it in order, and a list without repetition becomes strictly
increasing.  Entries set one after another stand in strictly increasing order
of their keys.  What is in order already stays as it is.
-/

namespace Schemata

section SortBy

variable {α : Type} {cmp : α → α → Ordering}

instance asymm_lt [Std.OrientedCmp cmp] : Std.Asymm fun a b => cmp a b = .lt :=
  ⟨fun _ _ => Std.OrientedCmp.not_lt_of_lt⟩

instance total_isLE [Std.OrientedCmp cmp] :
    Std.Total fun a b => (cmp a b).isLE := by
  refine ⟨fun a b => ?_⟩
  have hswap : cmp b a = (cmp a b).swap := Std.OrientedCmp.eq_swap
  rw [hswap]
  cases cmp a b <;> decide

instance isTrans_isLE [Std.TransCmp cmp] :
    IsTrans α fun a b => (cmp a b).isLE :=
  ⟨fun _ _ _ => Std.TransCmp.isLE_trans⟩

theorem insertBy_eq_orderedInsert (x : α) (ys : List α) :
    insertBy cmp x ys = ys.orderedInsert (fun a b => (cmp a b).isLE) x := by
  induction ys with
  | nil => rfl
  | cons y ys ih =>
      rw [insertBy, List.orderedInsert_cons, ih]
      cases cmp x y <;> rfl

/-- Sorting is the insertion sort of the library, by the order of the
comparison. -/
theorem sortBy_eq_insertionSort (xs : List α) :
    sortBy cmp xs = xs.insertionSort fun a b => (cmp a b).isLE := by
  induction xs with
  | nil => rfl
  | cons x xs ih =>
      rw [sortBy, ih, insertBy_eq_orderedInsert, List.insertionSort_cons]

theorem sortBy_perm (xs : List α) : (sortBy cmp xs).Perm xs := by
  rw [sortBy_eq_insertionSort]
  exact List.perm_insertionSort _ xs

@[simp]
theorem mem_sortBy {x : α} {xs : List α} : x ∈ sortBy cmp xs ↔ x ∈ xs :=
  (sortBy_perm xs).mem_iff

/-- Sorting leaves a strictly increasing list alone. -/
theorem sortBy_of_increasing
    {xs : List α} (h : xs.Pairwise fun a b => cmp a b = .lt) :
    sortBy cmp xs = xs := by
  rw [sortBy_eq_insertionSort]
  refine List.Pairwise.insertionSort_eq (h.imp ?_)
  intro a b hlt
  rw [hlt]
  rfl

variable [Std.TransCmp cmp]

/-- Elements that all compare different are strictly increasing when they are
sorted. -/
theorem sortBy_increasing_of_ne
    {xs : List α} (hxs : xs.Pairwise fun a b => cmp a b ≠ .eq) :
    (sortBy cmp xs).Pairwise fun a b => cmp a b = .lt := by
  have hne : (sortBy cmp xs).Pairwise fun a b => cmp a b ≠ .eq := by
    refine (sortBy_perm xs).symm.pairwise hxs ?_
    intro a b hab hba
    exact hab (Std.OrientedCmp.eq_symm hba)
  have hsorted : (sortBy cmp xs).Pairwise fun a b => (cmp a b).isLE := by
    rw [sortBy_eq_insertionSort]
    exact List.pairwise_insertionSort _ xs
  refine (hsorted.and hne).imp ?_
  rintro a b ⟨hle, hne⟩
  cases hcmp : cmp a b with
  | lt => rfl
  | eq => exact absurd hcmp hne
  | gt =>
      rw [hcmp] at hle
      cases hle

/-- A list without repetition is strictly increasing when it is sorted. -/
theorem sortBy_increasing
    [Std.LawfulEqCmp cmp] {xs : List α} (hxs : xs.Nodup) :
    (sortBy cmp xs).Pairwise fun a b => cmp a b = .lt := by
  refine sortBy_increasing_of_ne (List.Pairwise.imp ?_ hxs)
  intro a b hne hcmp
  exact hne (Std.LawfulEqCmp.eq_of_compare hcmp)

end SortBy

section Entries

variable {κ α : Type} [Ord κ]

instance asymm_key_lt [Std.OrientedOrd κ] :
    Std.Asymm fun e e' : κ × α => compare e.1 e'.1 = .lt :=
  ⟨fun _ _ => Std.OrientedCmp.not_lt_of_lt⟩

theorem mem_of_mem_setEntry
    {key : κ} {value : α} {entries : List (κ × α)} {e : κ × α}
    (he : e ∈ setEntry key value entries) :
    e = (key, value) ∨ e ∈ entries := by
  induction entries with
  | nil => exact .inl (List.mem_singleton.mp he)
  | cons first rest ih =>
      rw [setEntry] at he
      split at he
      · exact List.mem_cons.mp he
      · rcases List.mem_cons.mp he with he | he
        · exact .inl he
        · exact .inr (List.mem_cons_of_mem first he)
      · rcases List.mem_cons.mp he with rfl | he
        · exact .inr List.mem_cons_self
        · exact (ih he).imp_right (List.mem_cons_of_mem first)

theorem mem_of_mem_sortEntries
    {entries : List (κ × α)} {e : κ × α} (he : e ∈ sortEntries entries) :
    e ∈ entries := by
  induction entries using List.reverseRecOn with
  | nil => exact he
  | append_singleton entries last ih =>
      rw [sortEntries, List.foldl_concat] at he
      rcases mem_of_mem_setEntry he with rfl | he
      · simp
      · exact List.mem_append_left _ (ih he)

theorem key_mem_setEntry_iff
    [Std.LawfulEqOrd κ] {key key' : κ} {value : α} {entries : List (κ × α)} :
    key' ∈ (setEntry key value entries).map Prod.fst ↔
      key' = key ∨ key' ∈ entries.map Prod.fst := by
  induction entries with
  | nil => simp [setEntry]
  | cons first rest ih =>
      rw [setEntry]
      split
      · simp
      · rename_i heq
        obtain rfl : key = first.1 := Std.LawfulEqOrd.eq_of_compare heq
        simp
      · rw [List.map_cons, List.mem_cons, ih, List.map_cons, List.mem_cons]
        exact or_left_comm

/-- Sorting entries keeps their keys. -/
theorem key_mem_sortEntries_iff
    [Std.LawfulEqOrd κ] {key : κ} {entries : List (κ × α)} :
    key ∈ (sortEntries entries).map Prod.fst ↔
      key ∈ entries.map Prod.fst := by
  induction entries using List.reverseRecOn with
  | nil => exact Iff.rfl
  | append_singleton entries last ih =>
      rw [sortEntries] at ih ⊢
      rw [List.foldl_concat, key_mem_setEntry_iff, ih, List.map_append,
        List.mem_append, List.map_singleton, List.mem_singleton]
      exact or_comm

theorem setEntry_of_forall_gt
    {key : κ} {value : α} {entries : List (κ × α)}
    (h : ∀ e ∈ entries, compare key e.1 = .gt) :
    setEntry key value entries = entries ++ [(key, value)] := by
  induction entries with
  | nil => rfl
  | cons first rest ih =>
      have hfirst := h first List.mem_cons_self
      have hrest := ih fun e he => h e (List.mem_cons_of_mem first he)
      simp [setEntry, hfirst, hrest]

variable [Std.TransOrd κ]

/-- Entries in strictly increasing order of their keys stay as they are. -/
theorem sortEntries_of_increasing
    {entries : List (κ × α)}
    (h : entries.Pairwise fun e e' => compare e.1 e'.1 = .lt) :
    sortEntries entries = entries := by
  induction entries using List.reverseRecOn with
  | nil => rfl
  | append_singleton entries last ih =>
      obtain ⟨hentries, _, hlast⟩ := List.pairwise_append.mp h
      have hgt : ∀ e ∈ entries, compare last.1 e.1 = .gt := by
        intro e he
        exact Std.OrientedCmp.gt_of_lt (hlast e he last (by simp))
      have hinit := ih hentries
      rw [sortEntries] at hinit ⊢
      rw [List.foldl_concat, hinit]
      exact setEntry_of_forall_gt hgt

theorem setEntry_increasing
    {key : κ} {value : α} {entries : List (κ × α)}
    (h : entries.Pairwise fun e e' => compare e.1 e'.1 = .lt) :
    (setEntry key value entries).Pairwise
      fun e e' => compare e.1 e'.1 = .lt := by
  induction entries with
  | nil => exact List.pairwise_singleton _ _
  | cons first rest ih =>
      obtain ⟨hfirst, hrest⟩ := List.pairwise_cons.mp h
      rw [setEntry]
      split
      · rename_i hlt
        refine List.pairwise_cons.mpr ⟨?_, h⟩
        intro e he
        rcases List.mem_cons.mp he with rfl | he
        · exact hlt
        · exact Std.TransCmp.lt_trans hlt (hfirst e he)
      · rename_i heq
        refine List.pairwise_cons.mpr ⟨?_, hrest⟩
        intro e he
        exact (Std.TransCmp.congr_left heq).trans (hfirst e he)
      · rename_i hgt
        refine List.pairwise_cons.mpr ⟨?_, ih hrest⟩
        intro e he
        rcases mem_of_mem_setEntry he with rfl | he
        · exact Std.OrientedCmp.lt_of_gt hgt
        · exact hfirst e he

/-- Entries set one after another stand in strictly increasing order. -/
theorem sortEntries_increasing (entries : List (κ × α)) :
    (sortEntries entries).Pairwise fun e e' => compare e.1 e'.1 = .lt := by
  induction entries using List.reverseRecOn with
  | nil => exact List.Pairwise.nil
  | append_singleton entries last ih =>
      rw [sortEntries, List.foldl_concat]
      exact setEntry_increasing ih

/-- Entries with the same keys are sorted key by key. -/
theorem forall₂_sortEntries
    [Std.LawfulEqOrd κ] {entries entries' : List (κ × α)}
    (h : ∀ key, key ∈ entries.map Prod.fst ↔ key ∈ entries'.map Prod.fst) :
    List.Forall₂ (fun e e' => e.1 = e'.1) (sortEntries entries)
      (sortEntries entries') := by
  have hincreasing : ∀ l : List (κ × α),
      ((sortEntries l).map Prod.fst).Pairwise fun k k' => compare k k' = .lt :=
    fun l => List.pairwise_map.mpr (sortEntries_increasing l)
  have hkeys : (sortEntries entries).map Prod.fst =
      (sortEntries entries').map Prod.fst := by
    refine (hincreasing entries).eq_of_mem_iff (hincreasing entries') ?_
    intro key
    rw [key_mem_sortEntries_iff, key_mem_sortEntries_iff, h]
  have hpaired : List.Forall₂ (fun k k' => k = k')
      ((sortEntries entries).map Prod.fst)
      ((sortEntries entries').map Prod.fst) := by
    rw [hkeys]
    exact List.forall₂_refl _
  exact List.forall₂_map_right_iff.mp (List.forall₂_map_left_iff.mp hpaired)

end Entries

end Schemata
