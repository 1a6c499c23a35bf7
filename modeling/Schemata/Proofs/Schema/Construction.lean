import Schemata.Rebuild
import Schemata.Proofs.Union.Insertion

/-!
# When constructors succeed

For each constructor, the attributes that it accepts and the schema that it
gives for them.  The attributes can be read off the schema, so what was built
once can be built again from its own attributes.
-/

namespace Schemata.Build

theorem number_eq_ok_iff
    {whole signed : Bool} {nbytes : Int} {s : Schema} :
    number whole signed nbytes = .ok s ↔
      ∃ n : Nat, 0 < n ∧ nbytes = n ∧ s = .number whole signed n := by
  unfold number
  split
  · constructor
    · intro h
      cases h
    · rintro ⟨n, hn, rfl, _⟩
      omega
  · constructor
    · intro h
      cases h
      exact ⟨nbytes.toNat, by omega, by omega, rfl⟩
    · rintro ⟨n, _, rfl, rfl⟩
      rw [Int.toNat_natCast]

theorem maxLength_eq_ok_iff
    {kind : Kind} {length : Int} {bound : Option Nat} :
    maxLength kind length = .ok bound ↔ length = Layer.lengthBound bound := by
  unfold maxLength
  by_cases hsmall : length < -1
  · rw [if_pos hsmall]
    cases bound <;> simp [Layer.lengthBound] <;> omega
  · rw [if_neg hsmall]
    by_cases hnone : length = -1
    · cases bound <;> simp [Layer.lengthBound, hnone]
    · rw [if_neg hnone, Except.ok.injEq]
      cases bound with
      | none => simp [Layer.lengthBound, hnone]
      | some n =>
          rw [Layer.lengthBound, Option.some.injEq]
          omega

theorem string_eq_ok_iff
    {charset : Bytes} {length : Int} {s : Schema} :
    string charset length = .ok s ↔
      charset ≠ [] ∧
        ∃ bound, length = Layer.lengthBound bound ∧ s = .string charset bound := by
  simp only [← @maxLength_eq_ok_iff .string]
  cases charset with
  | nil => simp [string, throw, throwThe, MonadExceptOf.throw, bind, Except.bind]
  | cons b charset =>
      cases hlength : maxLength .string length with
      | error e => simp [string, hlength, bind, Except.bind]
      | ok bound =>
          simp [string, hlength, bind, Except.bind, pure, Except.pure, eq_comm]

theorem dimensions_eq_ok_iff
    {position : Nat} {extents : List Int} {ds : List Nat} :
    dimensions position extents = .ok ds ↔
      extents = ds.map Int.ofNat ∧ ∀ d ∈ ds, 1 ≤ d := by
  induction extents generalizing position ds with
  | nil => cases ds <;> simp [dimensions]
  | cons extent rest ih =>
      unfold dimensions
      constructor
      · intro h
        split at h
        · cases h
        · split at h
          · cases h
          · rename_i more hmore
            obtain ⟨rfl, hmin⟩ := ih.mp hmore
            cases h
            have hextent : extent = Int.ofNat extent.toNat := by
              rw [Int.ofNat_eq_natCast]
              omega
            have hfirst : 1 ≤ extent.toNat := by omega
            exact ⟨by rw [List.map_cons, ← hextent],
              List.forall_mem_cons.mpr ⟨hfirst, hmin⟩⟩
      · rintro ⟨hextents, hmin⟩
        cases ds with
        | nil => cases hextents
        | cons d ds =>
            obtain ⟨rfl, hrest⟩ := List.cons.inj hextents
            obtain ⟨hfirst, hothers⟩ := List.forall_mem_cons.mp hmin
            have hlarge : ¬ Int.ofNat d < 1 := by
              rw [Int.ofNat_eq_natCast]
              omega
            rw [if_neg hlarge, ih.mpr ⟨hrest, hothers⟩]
            rfl

theorem tensor_eq_ok_iff
    {items s : Schema} {extents : List Int} :
    tensor (some items) extents = .ok s ↔
      ∃ ds, ds ≠ [] ∧ (∀ d ∈ ds, 1 ≤ d) ∧ extents = ds.map Int.ofNat ∧
        s = .tensor items ds := by
  cases extents with
  | nil =>
      constructor
      · intro h
        cases h
      · rintro ⟨ds, hne, _, hds, _⟩
        exact absurd (List.map_eq_nil_iff.mp hds.symm) hne
  | cons extent rest =>
      unfold tensor
      constructor
      · intro h
        dsimp only at h
        split at h
        · cases h
        · rename_i ds hds
          obtain ⟨hextents, hmin⟩ := dimensions_eq_ok_iff.mp hds
          have hne : ds ≠ [] := by
            rintro rfl
            cases hextents
          cases h
          exact ⟨ds, hne, hmin, hextents, rfl⟩
      · rintro ⟨ds, _, hmin, hextents, rfl⟩
        dsimp only
        rw [dimensions_eq_ok_iff.mpr ⟨hextents, hmin⟩]

theorem collection_eq_ok_iff
    {items s : Schema} {ordered : Bool} {length : Int} :
    collection (some items) ordered length = .ok s ↔
      ∃ bound, length = Layer.lengthBound bound ∧
        s = .collection items ordered bound := by
  simp only [← @maxLength_eq_ok_iff .collection]
  cases hlength : maxLength .collection length with
  | error e => simp [collection, hlength, bind, Except.bind]
  | ok bound =>
      simp [collection, hlength, bind, Except.bind, pure, Except.pure, eq_comm]

theorem fields_eq_ok_iff
    {entries : List (Bytes × Option Schema)} {fs : List (Bytes × Schema)} :
    fields entries = .ok fs ↔
      entries = fs.map (fun f => (f.1, some f.2)) ∧ ∀ f ∈ fs, f.1 ≠ [] := by
  induction entries generalizing fs with
  | nil => cases fs <;> simp [fields]
  | cons e rest ih =>
      obtain ⟨name, f⟩ := e
      constructor
      · intro h
        simp only [fields] at h
        split at h
        · cases h
        · rename_i hname
          cases f with
          | none => cases h
          | some f =>
              dsimp only at h
              split at h
              · cases h
              · rename_i more hmore
                obtain ⟨rfl, hnames⟩ := ih.mp hmore
                cases h
                refine ⟨rfl, List.forall_mem_cons.mpr ⟨?_, hnames⟩⟩
                simpa using hname
      · rintro ⟨hentries, hnames⟩
        cases fs with
        | nil => cases hentries
        | cons f fs =>
            obtain ⟨he, hrest⟩ := List.cons.inj hentries
            obtain ⟨hname, hothers⟩ := List.forall_mem_cons.mp hnames
            cases he
            simp [fields, hname, ih.mpr ⟨hrest, hothers⟩]

theorem record_eq_ok_iff
    {entries : List (Bytes × Option Schema)} {s : Schema} :
    record entries = .ok s ↔
      ∃ fs, sortEntries entries = fs.map (fun f => (f.1, some f.2)) ∧
        (∀ f ∈ fs, f.1 ≠ []) ∧ s = .record fs := by
  simp only [← and_assoc, ← fields_eq_ok_iff]
  cases hfields : fields (sortEntries entries) with
  | error e => simp [record, hfields]
  | ok fs => simp [record, hfields, eq_comm]

/-- The fields of a record are among the entries that it is built from. -/
theorem mem_entries_of_mem_fields
    {entries : List (Bytes × Option Schema)} {fs : List (Bytes × Schema)}
    (h : sortEntries entries = fs.map fun f => (f.1, some f.2))
    {f : Bytes × Schema} (hf : f ∈ fs) : (f.1, some f.2) ∈ entries := by
  apply mem_of_mem_sortEntries
  rw [h]
  exact List.mem_map_of_mem hf

theorem possibilities_eq_ok_iff
    {given : List (Option Schema)} {ps : List Schema} :
    possibilities given = .ok ps ↔ given = ps.map some := by
  constructor
  · intro h
    induction given generalizing ps with
    | nil =>
        cases h
        rfl
    | cons p rest ih =>
        cases p with
        | none => cases h
        | some p =>
            simp only [possibilities] at h
            split at h
            · cases h
            · rename_i more hmore
              cases h
              rw [ih hmore, List.map_cons]
  · rintro rfl
    exact Union.possibilities_map_some ps

theorem union_eq_ok_iff
    {given : List (Option Schema)} {s : Schema} :
    union given = .ok s ↔
      ∃ ps, given = ps.map some ∧ s = .union (Union.possibilities ps) := by
  constructor
  · intro h
    cases hgiven : possibilities given with
    | error e =>
        simp only [union, unionM, hgiven] at h
        cases h
    | ok ps =>
        obtain rfl := possibilities_eq_ok_iff.mp hgiven
        rw [Union.build_union] at h
        cases h
        exact ⟨ps, rfl, rfl⟩
  · rintro ⟨ps, rfl, rfl⟩
    exact Union.build_union ps

theorem reference_eq_ok_iff {text : Bytes} {s : Schema} :
    reference text = .ok s ↔
      ∃ path, Path.parse text = .ok path ∧ s = .reference path := by
  cases hparse : Path.parse text with
  | error e => simp [reference, hparse]
  | ok path => simp [reference, hparse, eq_comm]

/-! ## Attributes that are accepted -/

theorem exists_lengthBound {length : Int} (h : -1 ≤ length) :
    ∃ bound, length = Layer.lengthBound bound := by
  by_cases hnone : length = -1
  · exact ⟨none, hnone⟩
  · refine ⟨some length.toNat, ?_⟩
    simp only [Layer.lengthBound]
    omega

theorem exists_number
    {whole signed : Bool} {nbytes : Int} (h : 0 < nbytes) :
    ∃ s, number whole signed nbytes = .ok s :=
  ⟨_, number_eq_ok_iff.mpr ⟨nbytes.toNat, by omega, by omega, rfl⟩⟩

theorem exists_string
    {charset : Bytes} {length : Int} (hcharset : charset ≠ [])
    (hlength : -1 ≤ length) : ∃ s, string charset length = .ok s := by
  obtain ⟨bound, rfl⟩ := exists_lengthBound hlength
  exact ⟨_, string_eq_ok_iff.mpr ⟨hcharset, bound, rfl, rfl⟩⟩

theorem exists_collection
    {items : Schema} {ordered : Bool} {length : Int} (h : -1 ≤ length) :
    ∃ s, collection (some items) ordered length = .ok s := by
  obtain ⟨bound, rfl⟩ := exists_lengthBound h
  exact ⟨_, collection_eq_ok_iff.mpr ⟨bound, rfl, rfl⟩⟩

theorem exists_tensor
    {items : Schema} {extents : List Int} (hne : extents ≠ [])
    (hmin : ∀ d ∈ extents, 1 ≤ d) :
    ∃ s, tensor (some items) extents = .ok s := by
  refine ⟨_, tensor_eq_ok_iff.mpr
    ⟨extents.map Int.toNat, by simpa using hne, ?_, ?_, rfl⟩⟩
  · intro d hd
    obtain ⟨e, he, rfl⟩ := List.mem_map.mp hd
    have hlow := hmin e he
    omega
  · rw [List.map_map]
    refine (List.map_id _).symm.trans (List.map_congr_left ?_)
    intro e he
    have hlow := hmin e he
    simp only [id_eq, Function.comp_apply, Int.ofNat_eq_natCast]
    omega

theorem exists_record
    {entries : List (Bytes × Option Schema)}
    (h : ∀ e ∈ entries, e.1 ≠ [] ∧ e.2.isSome) :
    ∃ s, record entries = .ok s := by
  have hsorted : ∀ e ∈ sortEntries entries, e.1 ≠ [] ∧ e.2.isSome :=
    fun e he => h e (mem_of_mem_sortEntries he)
  obtain ⟨fs, hfs⟩ : ∃ fs, fields (sortEntries entries) = .ok fs := by
    generalize sortEntries entries = sorted at hsorted
    induction sorted with
    | nil => exact ⟨[], rfl⟩
    | cons e rest ih =>
        obtain ⟨name, f⟩ := e
        obtain ⟨⟨hname, hsome⟩, hrest⟩ := List.forall_mem_cons.mp hsorted
        obtain ⟨f, rfl⟩ := Option.isSome_iff_exists.mp hsome
        obtain ⟨more, hmore⟩ := ih hrest
        exact ⟨(name, f) :: more, by simp [fields, hname, hmore]⟩
  exact ⟨_, by rw [record, hfs]⟩

end Schemata.Build
