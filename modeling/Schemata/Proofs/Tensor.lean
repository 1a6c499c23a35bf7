import Schemata.Backend.Columnar
import Schemata.Proofs.Dereference.Split
import Schemata.Proofs.Schema.Construction

/-!
# Extents of a tensor in two parts

A tensor whose items are tensors again has the extents of both.  Nobody can
tell the two forms apart: not by the values they have, whether all elements
are looked at or only the first ones, and not by what lies behind a path that
uses up the extents of the outer tensor.  Only a shorter path ends in between.
-/

namespace Schemata

theorem hasShape_append
    (test : Value → Bool) (outer inner : List Nat) (v : Value) :
    hasShape test (outer ++ inner) v =
      hasShape (hasShape test inner) outer v := by
  induction outer generalizing v with
  | nil => rfl
  | cons extent rest ih =>
      have hrest : hasShape test (rest ++ inner) =
          hasShape (hasShape test inner) rest := funext ih
      simp only [List.cons_append, hasShape, hrest]

namespace Columnar

theorem firstWithin?_append
    (outer inner : List Nat) (v : Value) :
    firstWithin? (outer ++ inner) v =
      (firstWithin? outer v).bind (firstWithin? inner) := by
  induction outer generalizing v with
  | nil => rfl
  | cons extent rest ih =>
      simp only [List.cons_append, firstWithin?]
      cases helements : v.core.elements? with
      | none => rfl
      | some elements =>
          cases elements with
          | nil => rfl
          | cons first others =>
              by_cases hlength : others.length + 1 = extent
              · simp [hlength, ih]
              · simp [hlength]

theorem isInstance_tensor_append
    (items : Schema) (outer inner : List Nat) (v : Value) :
    isInstance (.tensor items (outer ++ inner)) v =
      isInstance (.tensor (.tensor items inner) outer) v := by
  rw [isInstance, isInstance, firstWithin?_append]
  cases firstWithin? outer v with
  | none => rfl
  | some w =>
      simp only [Option.bind_some]
      rw [isInstance]

end Columnar

namespace Schema

theorem isInstance_tensor_append
    (items : Schema) (outer inner : List Nat) (v : Value) :
    (tensor items (outer ++ inner)).isInstance v =
      (tensor (tensor items inner) outer).isInstance v := by
  have hinner : (fun w => (tensor items inner).isInstance w) =
      hasShape (fun w => items.isInstance w) inner := by
    funext w
    rw [isInstance]
  rw [isInstance, isInstance, hinner]
  exact hasShape_append _ outer inner v

/-- A path that is long enough uses up all extents. -/
theorem extents_used_up
    {extents remaining : List Nat} {path rest : Path} {position : Nat}
    (hlength : extents.length ≤ path.length)
    (h : useExtents position extents path = .ok (remaining, rest)) :
    remaining = [] := by
  induction extents generalizing position path with
  | nil =>
      simp only [useExtents] at h
      cases h
      rfl
  | cons extent extents ih =>
      cases path with
      | nil => simp at hlength
      | cons segment path =>
          have hshorter : extents.length ≤ path.length := by
            simpa using hlength
          cases segment with
          | field name => cases h
          | index i =>
              by_cases hrange : 0 ≤ i ∧ i < extent
              · rw [useExtents_index hrange.1 hrange.2] at h
                exact ih hshorter h
              · rw [useExtents_index_out hrange] at h
                cases h

theorem useExtents_append
    {outer : List Nat} {path : Path} (hlength : outer.length ≤ path.length)
    (inner : List Nat) (position : Nat) :
    useExtents position (outer ++ inner) path =
      useExtents position outer path >>= fun used =>
        useExtents (position + outer.length) inner used.2 := by
  induction outer generalizing position path with
  | nil => rfl
  | cons extent rest ih =>
      cases path with
      | nil => simp at hlength
      | cons segment path =>
          have hshorter : rest.length ≤ path.length := by
            simpa using hlength
          have hposition : position + (extent :: rest).length =
              position + 1 + rest.length := by
            rw [List.length_cons]
            omega
          cases segment with
          | field name => rfl
          | index i =>
              rw [List.cons_append, hposition]
              by_cases hrange : 0 ≤ i ∧ i < extent
              · rw [useExtents_index hrange.1 hrange.2,
                  useExtents_index hrange.1 hrange.2, ih hshorter]
              · rw [useExtents_index_out hrange, useExtents_index_out hrange]
                rfl

/-- A path that uses up the outer extents leads to the same schema in both
forms of a tensor, or fails alike. -/
theorem dereference_tensor_append
    (items : Schema) {outer inner : List Nat} (houter : outer ≠ [])
    (hinner : inner ≠ []) {path : Path}
    (hlength : outer.length ≤ path.length) :
    (tensor items (outer ++ inner)).dereference path =
      (tensor (tensor items inner) outer).dereference path := by
  have hboth : outer ++ inner ≠ [] := by simp [houter]
  rw [dereference, dereference, dereferenceFrom_tensor _ _ _ _ hboth,
    dereferenceFrom_tensor _ _ _ _ houter, dereferenceTensor,
    dereferenceTensor, useExtents_append hlength]
  cases hused : useExtents 0 outer path with
  | error failure => rfl
  | ok used =>
      obtain ⟨remaining, rest⟩ := used
      obtain rfl := extents_used_up hlength hused
      simp only
      rw [dereferenceFrom_tensor _ _ _ _ hinner, dereferenceTensor]
      have hjoined : 0 + (outer ++ inner).length =
          0 + outer.length + inner.length := by
        rw [List.length_append]
        omega
      rw [hjoined]
      rfl

/-- A tensor of tensors has the same members as the tensor with all extents,
also in columns.  A path that uses up the outer extents leads to the same
schema in both, or fails in the same place for the same reason. -/
theorem tensor_split
    (items : Schema) {outer inner : List Int} (houter : outer ≠ [])
    (hinner : inner ≠ []) (hextents : ∀ d ∈ outer ++ inner, 1 ≤ d) :
    ∃ flat block nested,
      Build.tensor (some items) (outer ++ inner) = .ok flat ∧
      Build.tensor (some items) inner = .ok block ∧
      Build.tensor (some block) outer = .ok nested ∧
      (∀ v, flat.isInstance v = nested.isInstance v) ∧
      (∀ v, Columnar.backend.isInstance flat v =
        Columnar.backend.isInstance nested v) ∧
      ∀ path : Path, outer.length ≤ path.length →
        flat.dereference path = nested.dereference path := by
  have hleast : ∀ d ∈ outer, 1 ≤ d :=
    fun d hd => hextents d (List.mem_append_left _ hd)
  have hleast' : ∀ d ∈ inner, 1 ≤ d :=
    fun d hd => hextents d (List.mem_append_right _ hd)
  obtain ⟨block, hblock⟩ : ∃ s, Build.tensor (some items) inner = .ok s :=
    Build.exists_tensor hinner hleast'
  obtain ⟨nested, hnested⟩ : ∃ s, Build.tensor (some block) outer = .ok s :=
    Build.exists_tensor houter hleast
  obtain ⟨ds, hds, hmin, rfl, rfl⟩ := Build.tensor_eq_ok_iff.mp hblock
  obtain ⟨es, hes, hmin', rfl, rfl⟩ := Build.tensor_eq_ok_iff.mp hnested
  have hflat : Build.tensor (some items)
      (es.map Int.ofNat ++ ds.map Int.ofNat) =
        .ok (tensor items (es ++ ds)) := by
    refine Build.tensor_eq_ok_iff.mpr ⟨es ++ ds, by simp [hes], ?_, ?_, rfl⟩
    · intro d hd
      rcases List.mem_append.mp hd with hd | hd
      · exact hmin' d hd
      · exact hmin d hd
    · rw [List.map_append]
  refine ⟨_, _, _, hflat, hblock, hnested,
    isInstance_tensor_append items es ds,
    Columnar.isInstance_tensor_append items es ds, ?_⟩
  intro path hlength
  rw [List.length_map] at hlength
  exact dereference_tensor_append items hes hds hlength

/-- Two rows of three byte strings, the last of which is missing.  One path
leads into an item that has nothing to select, and another one is beyond the
inner extent. -/
theorem tensor_split_rows :
    let items := Schema.union [.null, .string charsetBytes none]
    let flat := Schema.tensor items [2, 3]
    let nested := Schema.tensor (.tensor items [3]) [2]
    let row := Value.slice .dynamic [.byteString [0x61], .byteString [], .absent]
    let rows := Value.pointer .dynamic (.array .dynamic [row, row])
    let behind : Path := [.index 1, .index 2, .field [0x61]]
    let beyond : Path := [.index 1, .index 3, .field [0x61]]
    (([2] : List Int) ≠ [] ∧ ([3] : List Int) ≠ [] ∧
      (∀ d ∈ ([2] ++ [3] : List Int), 1 ≤ d) ∧
      1 ≤ behind.length ∧ 1 ≤ beyond.length) ∧
    Build.tensor (some items) ([2] ++ [3]) = .ok flat ∧
    Build.tensor (some (.tensor items [3])) [2] = .ok nested ∧
    (nested.isInstance rows = true ∧ flat.isInstance rows = true) ∧
    (Columnar.backend.isInstance nested rows = true ∧
      Columnar.backend.isInstance flat rows = true) ∧
    flat.dereference behind =
      .error ⟨behind, some 2, .union, .intoUnion⟩ ∧
    flat.dereference beyond =
      .error ⟨beyond, some 1, .tensor, .tensorIndex 3 3⟩ := by
  intro items flat nested row rows behind beyond
  have houter : ([2] : List Int) ≠ [] := by decide
  have hinner : ([3] : List Int) ≠ [] := by decide
  have hextents : ∀ d ∈ ([2] ++ [3] : List Int), 1 ≤ d := by decide
  have hbehind : 1 ≤ behind.length := by decide
  have hbeyond : 1 ≤ beyond.length := by decide
  obtain ⟨_, _, _, hflat, hblock, hnested, hmembers, hcolumns, hpaths⟩ :=
    tensor_split items houter hinner hextents
  cases hflat
  cases hblock
  cases hnested
  have hrows : nested.isInstance rows = true := rfl
  have hrows' : Columnar.backend.isInstance nested rows = true := rfl
  have hbehind' : nested.dereference behind =
      .error ⟨behind, some 2, .union, .intoUnion⟩ := rfl
  have hbeyond' : nested.dereference beyond =
      .error ⟨beyond, some 1, .tensor, .tensorIndex 3 3⟩ := rfl
  exact ⟨⟨houter, hinner, hextents, hbehind, hbeyond⟩, rfl, rfl,
    ⟨hrows, (hmembers rows).trans hrows⟩,
    ⟨hrows', (hcolumns rows).trans hrows'⟩,
    (hpaths behind hbehind).trans hbehind',
    (hpaths beyond hbeyond).trans hbeyond'⟩

end Schema

end Schemata
