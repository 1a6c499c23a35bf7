import Schemata.Proofs.Dereference.Step

/-!
# Paths in two parts

A path may be followed in two parts, split anywhere, also between the extents
of one tensor.  The second part starts where the first one ends, and an error
of it is the error of the whole path, with its position counted from the start
of the whole.  So a path fails at its first segment that cannot be applied:
everything before that leads to a schema, everything beyond it fails alike.
-/

namespace Schemata

/-- The error, for a path that goes on from a position as the path of the error
does from its start. -/
def DereferenceError.relocate (whole : Path) (offset : Nat)
    (e : DereferenceError) : DereferenceError :=
  { e with path := whole, position := e.position.map (offset + ·) }

namespace Schema

open DereferenceError (Reason)

theorem dereferenceFrom_append
    (whole p q : Path) (position : Nat) (s : Schema) :
    dereferenceFrom whole position s (p ++ q) =
      dereferenceFrom whole position s p >>= fun t =>
        dereferenceFrom whole (position + p.length) t q := by
  induction p generalizing position s with
  | nil => rfl
  | cons segment rest ih =>
      simp only [List.cons_append, dereferenceFrom, List.length_cons]
      cases s.step segment with
      | error reason => rfl
      | ok next =>
          simp only
          rw [ih, Nat.add_right_comm, Nat.add_assoc]

/-- The path that is followed as a whole, and where in it, show in errors
only. -/
theorem dereferenceFrom_relocate
    (whole whole' path : Path) (offset position : Nat) (s : Schema) :
    dereferenceFrom whole (offset + position) s path =
      (dereferenceFrom whole' position s path).mapError
        (·.relocate whole offset) := by
  induction path generalizing position s with
  | nil => rfl
  | cons segment rest ih =>
      simp only [dereferenceFrom]
      cases s.step segment with
      | error reason => rfl
      | ok next => exact ih (position + 1) next

theorem dereferenceFrom_eq_mapError
    (whole path : Path) (position : Nat) (s : Schema) :
    dereferenceFrom whole position s path =
      (s.dereference path).mapError (·.relocate whole position) :=
  dereferenceFrom_relocate whole path path position 0 s

theorem dereference_append_of_ok
    {s t : Schema} {p : Path} (h : s.dereference p = .ok t) (q : Path) :
    s.dereference (p ++ q) =
      (t.dereference q).mapError (·.relocate (p ++ q) p.length) := by
  have hfirst : dereferenceFrom (p ++ q) 0 s p = .ok t := by
    rw [dereferenceFrom_eq_mapError, h]
    rfl
  have hsplit := dereferenceFrom_append (p ++ q) p q 0 s
  rw [hfirst, Nat.zero_add] at hsplit
  rw [dereference, hsplit]
  exact dereferenceFrom_eq_mapError (p ++ q) q p.length t

theorem dereference_append_of_error
    {s : Schema} {p : Path} {e : DereferenceError}
    (h : s.dereference p = .error e) (q : Path) :
    s.dereference (p ++ q) = .error (e.relocate (p ++ q) 0) := by
  have hfirst : dereferenceFrom (p ++ q) 0 s p =
      .error (e.relocate (p ++ q) 0) := by
    rw [dereferenceFrom_eq_mapError, h]
    rfl
  have hsplit := dereferenceFrom_append (p ++ q) p q 0 s
  rw [hfirst] at hsplit
  exact hsplit

/-! ## The first segment that cannot be applied -/

/-- A path leads to a schema, and the segment after it cannot be applied. -/
structure Stops (s : Schema) (before : Path) (segment : Segment) (t : Schema)
    (reason : Reason) : Prop where
  reached : s.dereference before = .ok t
  rejected : t.step segment = .error reason

theorem Stops.dereference_eq
    {s t : Schema} {before : Path} {segment : Segment} {reason : Reason}
    (h : s.Stops before segment t reason) (after : Path) :
    s.dereference (before ++ segment :: after) =
      .error ⟨before ++ segment :: after, some before.length, t.kind,
        reason⟩ := by
  have hrest : t.dereference (segment :: after) =
      .error ⟨segment :: after, some 0, t.kind, reason⟩ := by
    simp only [dereference, dereferenceFrom, h.rejected]
  rw [dereference_append_of_ok h.reached, hrest]
  rfl

theorem exists_stops_of_error
    {s : Schema} {path : Path} {e : DereferenceError}
    (h : s.dereference path = .error e) :
    ∃ before segment after t reason,
      path = before ++ segment :: after ∧ s.Stops before segment t reason := by
  -- From the end: the last segment only counts if all before it lead somewhere.
  induction path using List.reverseRecOn generalizing e with
  | nil => cases h
  | append_singleton path last ih =>
      cases hpath : s.dereference path with
      | error e' =>
          obtain ⟨before, segment, after, t, reason, rfl, hstops⟩ := ih hpath
          exact ⟨before, segment, after ++ [last], t, reason, by simp, hstops⟩
      | ok t =>
          cases hlast : t.step last with
          | ok u =>
              have hok : t.dereference [last] = .ok u := by
                simp only [dereference, dereferenceFrom, hlast]
              rw [dereference_append_of_ok hpath, hok] at h
              cases h
          | error reason =>
              exact ⟨path, last, [], t, reason, rfl, hpath, hlast⟩

/-- A path fails exactly at its first segment that cannot be applied. -/
theorem dereference_eq_error_iff
    {s : Schema} {path : Path} {e : DereferenceError} :
    s.dereference path = .error e ↔
      ∃ before segment after t reason, path = before ++ segment :: after ∧
        s.Stops before segment t reason ∧
        e = ⟨path, some before.length, t.kind, reason⟩ := by
  constructor
  · intro h
    obtain ⟨before, segment, after, t, reason, rfl, hstops⟩ :=
      exists_stops_of_error h
    rw [hstops.dereference_eq after] at h
    cases h
    exact ⟨before, segment, after, t, reason, rfl, hstops, rfl⟩
  · rintro ⟨before, segment, after, t, reason, rfl, hstops, rfl⟩
    exact hstops.dereference_eq after

theorem exists_position_of_error
    {s : Schema} {path : Path} {e : DereferenceError}
    (h : s.dereference path = .error e) : ∃ n, e.position = some n := by
  obtain ⟨before, _, _, _, _, _, _, rfl⟩ := dereference_eq_error_iff.mp h
  exact ⟨before.length, rfl⟩

/-- An error names the path and the first segment of it that cannot be applied.
The segments before lead to a schema of the kind that the error names, which
rejects the segment for the reason that the error gives, and every longer part
of the path fails in the same place. -/
theorem dereference_error_position
    {s : Schema} {path : Path} {e : DereferenceError}
    (h : s.dereference path = .error e) :
    ∃ (n : Fin path.length) (t : Schema),
      e.position = some n.val ∧ e.path = path ∧
      s.dereference (path.take n) = .ok t ∧ t.kind = e.kind ∧
      t.step (path.get n) = .error e.reason ∧
      ∀ k, n.val < k → s.dereference (path.take k) =
        .error ⟨path.take k, some n.val, e.kind, e.reason⟩ := by
  obtain ⟨before, segment, after, t, reason, rfl, hstops, rfl⟩ :=
    dereference_eq_error_iff.mp h
  have hbound : before.length < (before ++ segment :: after).length := by
    simp
  have hbefore : (before ++ segment :: after).take before.length = before :=
    List.take_left
  have hsegment : (before ++ segment :: after).get ⟨before.length, hbound⟩ =
      segment := by
    simp
  refine ⟨⟨before.length, hbound⟩, t, rfl, rfl, ?_, rfl, ?_, ?_⟩
  · rw [hbefore]
    exact hstops.reached
  · rw [hsegment]
    exact hstops.rejected
  · intro k hk
    obtain ⟨more, rfl⟩ : ∃ more, k = before.length + (more + 1) :=
      ⟨k - before.length - 1, by simp only at hk; omega⟩
    have htake : (before ++ segment :: after).take
        (before.length + (more + 1)) = before ++ segment :: after.take more := by
      rw [List.take_length_add_append, List.take_succ_cons]
    rw [htake]
    exact hstops.dereference_eq (after.take more)

/-- The third segment is beyond the second extent of a tensor in a record. -/
theorem dereference_error_position_tensor :
    let s := Schema.record [([0x74], .tensor .boolean [2, 3])]
    let path : Path := [.field [0x74], .index 1, .index 7, .index 0]
    let e : DereferenceError := ⟨path, some 2, .tensor, .tensorIndex 7 3⟩
    s.dereference path = .error e ∧
      ∃ (n : Fin path.length) (t : Schema),
        e.position = some n.val ∧ e.path = path ∧
        s.dereference (path.take n) = .ok t ∧ t.kind = e.kind ∧
        t.step (path.get n) = .error e.reason ∧
        ∀ k, n.val < k → s.dereference (path.take k) =
          .error ⟨path.take k, some n.val, e.kind, e.reason⟩ := by
  intro s path e
  have h : s.dereference path = .error e := rfl
  exact ⟨h, dereference_error_position h⟩

/-! ## All extents of a tensor at once -/

/-- Applies segments to extents one by one, as long as there are both.  Gives
the extents and the segments that are left, or the position that fails. -/
def useExtents (position : Nat) :
    List Nat → Path → Except (Nat × Reason) (List Nat × Path)
  | [], path => .ok ([], path)
  | extents, [] => .ok (extents, [])
  | _ :: _, .field _ :: _ => .error (position, .fieldIntoTensor)
  | extent :: extents, .index i :: path =>
    if i < 0 || (extent : Int) ≤ i then .error (position, .tensorIndex i extent)
    else useExtents (position + 1) extents path

/-- Follows a path into a tensor, first through its extents and then, if they
are used up, through its items. -/
def dereferenceTensor (whole : Path) (position : Nat) (items : Schema)
    (extents : List Nat) (path : Path) : Except DereferenceError Schema :=
  match useExtents position extents path with
  | .error (failing, reason) => .error ⟨whole, some failing, .tensor, reason⟩
  | .ok ([], rest) =>
    dereferenceFrom whole (position + extents.length) items rest
  | .ok (extent :: remaining, _) => .ok (.tensor items (extent :: remaining))

theorem useExtents_index
    {extent : Nat} {i : Int} (hlow : 0 ≤ i) (hhigh : i < extent)
    (position : Nat) (rest : List Nat) (path : Path) :
    useExtents position (extent :: rest) (.index i :: path) =
      useExtents (position + 1) rest path := by
  simp [useExtents, hlow, hhigh]

theorem useExtents_index_out
    {extent : Nat} {i : Int} (hrange : ¬ (0 ≤ i ∧ i < extent))
    (position : Nat) (rest : List Nat) (path : Path) :
    useExtents position (extent :: rest) (.index i :: path) =
      .error (position, .tensorIndex i extent) := by
  have hout : (decide (i < 0) || decide ((extent : Int) ≤ i)) = true := by
    simp only [Bool.or_eq_true, decide_eq_true_eq]
    omega
  rw [useExtents, if_pos hout]

theorem dereferenceTensor_index
    {items : Schema} {extent : Nat} {i : Int} (hlow : 0 ≤ i)
    (hhigh : i < extent) (whole path : Path) (position : Nat)
    (rest : List Nat) :
    dereferenceTensor whole position items (extent :: rest)
        (.index i :: path) =
      dereferenceTensor whole (position + 1) items rest path := by
  have hlength : position + (extent :: rest).length =
      position + 1 + rest.length := by
    rw [List.length_cons]
    omega
  simp only [dereferenceTensor, useExtents_index hlow hhigh, hlength]

/-- One extent at a time or all at once is the same. -/
theorem dereferenceFrom_tensor
    (whole path : Path) (position : Nat) (items : Schema) {extents : List Nat}
    (hextents : extents ≠ []) :
    dereferenceFrom whole position (.tensor items extents) path =
      dereferenceTensor whole position items extents path := by
  induction extents generalizing position path with
  | nil => exact absurd rfl hextents
  | cons extent rest ih =>
      cases path with
      | nil => rfl
      | cons segment path =>
          cases segment with
          | field name => rfl
          | index i =>
              by_cases hrange : 0 ≤ i ∧ i < extent
              · obtain ⟨hlow, hhigh⟩ := hrange
                rw [dereferenceTensor_index hlow hhigh]
                simp only [dereferenceFrom, step_tensor_index hlow hhigh]
                -- The last extent leads to the items, the others to a tensor.
                cases rest with
                | nil => rfl
                | cons next more => exact ih path (position + 1) (by simp)
              · have hout : (decide (i < 0) || decide ((extent : Int) ≤ i)) =
                    true := by
                  simp only [Bool.or_eq_true, decide_eq_true_eq]
                  omega
                simp only [dereferenceFrom, step, dereferenceTensor,
                  useExtents_index_out hrange, hout, if_true, kind]

/-- Following a path in two parts is following it at once.  Where the first
part leads to a schema, the second part decides, with the same result or with
the same error further on; where it fails, the whole path fails there.  A tensor
takes its segments one by one with the same outcome as all at once. -/
theorem dereference_append (s : Schema) (p q : Path) :
    (∀ t, s.dereference p = .ok t →
      (∀ u, s.dereference (p ++ q) = .ok u ↔ t.dereference q = .ok u) ∧
      ∀ e, t.dereference q = .error e →
        ∃ n, e.position = some n ∧ s.dereference (p ++ q) =
          .error ⟨p ++ q, some (n + p.length), e.kind, e.reason⟩) ∧
    (∀ e, s.dereference p = .error e →
      ∃ n, e.position = some n ∧
        s.dereference (p ++ q) = .error ⟨p ++ q, some n, e.kind, e.reason⟩) ∧
    ∀ items extents, s = .tensor items extents → extents ≠ [] →
      s.dereference p = dereferenceTensor p 0 items extents p := by
  refine ⟨?_, ?_, ?_⟩
  · intro t ht
    have hwhole := dereference_append_of_ok ht q
    constructor
    · intro u
      rw [hwhole]
      cases t.dereference q <;> simp [Except.mapError]
    · intro e he
      obtain ⟨n, hn⟩ := exists_position_of_error he
      refine ⟨n, hn, ?_⟩
      rw [hwhole, he, Except.mapError, DereferenceError.relocate, hn,
        Nat.add_comm n]
      rfl
  · intro e he
    obtain ⟨n, hn⟩ := exists_position_of_error he
    refine ⟨n, hn, ?_⟩
    rw [dereference_append_of_error he, DereferenceError.relocate, hn]
    simp
  · rintro items extents rfl hextents
    exact dereferenceFrom_tensor p p 0 items hextents

/-- A path split after the first of three extents, with a second part that
leads to an item, one that is beyond the last extent, and a first part that
fails. -/
theorem dereference_append_tensor :
    let items := Schema.record [([0x78], .boolean)]
    let s := Schema.record [([0x74], .tensor items [2, 3, 4])]
    let t := Schema.tensor items [3, 4]
    let p : Path := [.field [0x74], .index 1]
    let q : Path := [.index 2, .index 3, .field [0x78]]
    let beyond : Path := [.index 2, .index 4, .field [0x78]]
    let outside : Path := [.field [0x74], .index (-1)]
    (s.dereference p = .ok t ∧ t.dereference q = .ok .boolean ∧
      s.dereference (p ++ q) = .ok .boolean) ∧
    (t.dereference beyond =
        .error ⟨beyond, some 1, .tensor, .tensorIndex 4 4⟩ ∧
      s.dereference (p ++ beyond) =
        .error ⟨p ++ beyond, some (1 + 2), .tensor, .tensorIndex 4 4⟩) ∧
    (s.dereference outside =
        .error ⟨outside, some 1, .tensor, .tensorIndex (-1) 2⟩ ∧
      s.dereference (outside ++ q) =
        .error ⟨outside ++ q, some 1, .tensor, .tensorIndex (-1) 2⟩) ∧
    t.dereference q = dereferenceTensor q 0 items [3, 4] q := by
  intro items s t p q beyond outside
  have hfirst : s.dereference p = .ok t := rfl
  have hsecond : t.dereference q = .ok .boolean := rfl
  have hbeyond : t.dereference beyond =
      .error ⟨beyond, some 1, .tensor, .tensorIndex 4 4⟩ := rfl
  have houtside : s.dereference outside =
      .error ⟨outside, some 1, .tensor, .tensorIndex (-1) 2⟩ := rfl
  have hjoined : s.dereference (p ++ q) = .ok .boolean :=
    (((dereference_append s p q).1 t hfirst).1 .boolean).mpr hsecond
  obtain ⟨n, hn, hfails⟩ :=
    ((dereference_append s p beyond).1 t hfirst).2 _ hbeyond
  obtain ⟨n', hn', hfails'⟩ :=
    (dereference_append s outside q).2.1 _ houtside
  cases hn
  cases hn'
  exact ⟨⟨hfirst, hsecond, hjoined⟩, ⟨hbeyond, hfails⟩, ⟨houtside, hfails'⟩,
    (dereference_append t q []).2.2 items [3, 4] rfl (by simp)⟩

end Schema

end Schemata
