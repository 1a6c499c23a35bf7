import Schemata.Dereference
import Mathlib.Tactic

/-!
# What a segment selects

A position selects an element of a tensor, which is a tensor again as long as
extents remain, an item of an ordered collection, or the value of a whole
number.  A name selects a field or the value of a string.  Every other schema
has nothing to select.
-/

namespace Schemata.Schema

/-- The schema that a segment selects from a schema. -/
inductive Selects : Schema → Segment → Schema → Prop
  | behind {items t : Schema} {segment : Segment} :
      Selects items segment t → Selects (.tensor items []) segment t
  | element {items : Schema} {extent : Nat} {i : Int} :
      0 ≤ i → i < extent → Selects (.tensor items [extent]) (.index i) items
  | slice {items : Schema} {extent next : Nat} {rest : List Nat} {i : Int} :
      0 ≤ i → i < extent →
      Selects (.tensor items (extent :: next :: rest)) (.index i)
        (.tensor items (next :: rest))
  | item {items : Schema} {maxLength : Option Nat} {i : Int} :
      0 ≤ i → (∀ n ∈ maxLength, i < n) →
      Selects (.collection items true maxLength) (.index i) items
  | value {keys values : Schema} {segment : Segment} :
      keys.acceptsKey segment = true →
      Selects (.mapping keys values) segment values
  | field {fields : List (Bytes × Schema)} {name : Bytes} {f : Schema} :
      field? name fields = some f → Selects (.record fields) (.field name) f

theorem step_tensor_index
    {items : Schema} {extent : Nat} {rest : List Nat} {i : Int}
    (hlow : 0 ≤ i) (hhigh : i < extent) :
    (tensor items (extent :: rest)).step (.index i) =
      if rest.isEmpty then .ok items else .ok (.tensor items rest) := by
  have hrange : (decide (i < 0) || decide ((extent : Int) ≤ i)) = false := by
    simp [hlow, hhigh]
  simp [step, hrange]

theorem Selects.step_eq
    {s t : Schema} {segment : Segment} (h : s.Selects segment t) :
    s.step segment = .ok t := by
  induction h with
  | behind _ ih => rw [step, ih]
  | element hlow hhigh => rw [step_tensor_index hlow hhigh]; rfl
  | slice hlow hhigh => rw [step_tensor_index hlow hhigh]; rfl
  | @item items maxLength i hlow hbound =>
      cases maxLength with
      | none => simp [step, hlow]
      | some n =>
          have hhigh : i < n := hbound n rfl
          simp [step, hlow, hhigh]
  | value haccepts => rw [step, if_pos haccepts]
  | field hfield => simp [step, hfield]

theorem selects_of_step
    {s t : Schema} {segment : Segment} (h : s.step segment = .ok t) :
    s.Selects segment t := by
  fun_induction step s segment with
  | case1 items segment ih => exact .behind (ih h)
  | case4 items extent rest i hrange hrest =>
      obtain rfl : rest = [] := List.isEmpty_iff.mp hrest
      obtain ⟨hlow, hhigh⟩ : 0 ≤ i ∧ i < extent := by simpa using hrange
      cases h
      exact .element hlow hhigh
  | case5 items extent rest i hrange hrest =>
      obtain ⟨next, more, rfl⟩ : ∃ next more, rest = next :: more :=
        List.exists_cons_of_ne_nil fun hnil => hrest (by simp [hnil])
      obtain ⟨hlow, hhigh⟩ : 0 ≤ i ∧ i < extent := by simpa using hrange
      cases h
      exact .slice hlow hhigh
  | case9 items ordered maxLength i hrange hordered =>
      obtain rfl : ordered = true := by simpa using hordered
      cases h
      cases maxLength with
      | none => exact .item (by simpa using hrange) (by simp)
      | some n =>
          obtain ⟨hlow, hhigh⟩ : 0 ≤ i ∧ i < n := by simpa using hrange
          exact .item hlow (by simpa using hhigh)
  | case10 keys values segment haccepts =>
      cases h
      exact .value haccepts
  | case13 fields name f hfield =>
      cases h
      exact .field hfield
  | _ => cases h

/-- Following a segment succeeds exactly with what it selects. -/
theorem step_eq_ok_iff {s t : Schema} {segment : Segment} :
    s.step segment = .ok t ↔ s.Selects segment t :=
  ⟨selects_of_step, Selects.step_eq⟩

theorem Selects.unique
    {s a b : Schema} {segment : Segment} (ha : s.Selects segment a)
    (hb : s.Selects segment b) : a = b := by
  have hsame := ha.step_eq.symm.trans hb.step_eq
  cases hsame
  rfl

theorem Selects.kind_ne
    {s t : Schema} {segment : Segment} (h : s.Selects segment t) :
    s.kind ≠ .union ∧ s.kind ≠ .reference := by
  cases h <;> simp [kind]

theorem dereferenceFrom_cons_eq_ok_iff
    {whole rest : Path} {position : Nat} {segment : Segment} {s t : Schema} :
    dereferenceFrom whole position s (segment :: rest) = .ok t ↔
      ∃ next, s.Selects segment next ∧
        dereferenceFrom whole (position + 1) next rest = .ok t := by
  simp only [← step_eq_ok_iff, dereferenceFrom]
  cases s.step segment <;> simp

/-- Two schemas are followed side by side along one path.  What every segment
keeps between them holds at the end. -/
theorem dereferenceFrom_related
    {R : Schema → Schema → Prop}
    (hstep : ∀ a b segment a' b', R a b → a.Selects segment a' →
      b.Selects segment b' → R a' b')
    {whole whole' path : Path} {position position' : Nat}
    {a b a' b' : Schema} (hab : R a b)
    (ha : dereferenceFrom whole position a path = .ok a')
    (hb : dereferenceFrom whole' position' b path = .ok b') : R a' b' := by
  induction path generalizing position position' a b with
  | nil =>
      cases ha
      cases hb
      exact hab
  | cons segment rest ih =>
      obtain ⟨a₁, hselectsA, ha⟩ := dereferenceFrom_cons_eq_ok_iff.mp ha
      obtain ⟨b₁, hselectsB, hb⟩ := dereferenceFrom_cons_eq_ok_iff.mp hb
      exact ih (hstep _ _ _ _ _ hab hselectsA hselectsB) ha hb

/-- What every segment keeps holds at the end of a path. -/
theorem dereferenceFrom_preserves
    {P : Schema → Prop}
    (hstep : ∀ s segment t, P s → s.Selects segment t → P t)
    {whole path : Path} {position : Nat} {s t : Schema} (hs : P s)
    (h : dereferenceFrom whole position s path = .ok t) : P t := by
  let R : Schema → Schema → Prop := fun a _ => P a
  have hstepR : ∀ a b segment a' b', R a b → a.Selects segment a' →
      b.Selects segment b' → R a' b' :=
    fun a _ segment a' _ ha hselects _ => hstep a segment a' ha hselects
  exact dereferenceFrom_related hstepR (b := s) hs h h

theorem concrete_eq_ok_iff
    {path : Path} {target t : Schema} :
    concrete path target = .ok t ↔
      target = t ∧ t.unwrap.kind ≠ .reference ∧ t.unwrap.kind ≠ .union := by
  unfold concrete
  constructor
  · intro h
    split at h <;> cases h
    rename_i hreference hunion
    refine ⟨rfl, ?_, ?_⟩ <;> cases hunwrap : target.unwrap <;> simp_all [kind]
  · rintro ⟨rfl, hreference, hunion⟩
    split <;> simp_all [kind]

/-- A reference is resolved by following its path to a schema that is neither a
reference nor a choice. -/
theorem resolve_eq_ok_iff
    {root t : Schema} {path : Path} :
    resolve (some root) path = .ok t ↔
      root.dereference (elementPath path) = .ok t ∧
        t.unwrap.kind ≠ .reference ∧ t.unwrap.kind ≠ .union := by
  simp only [resolve]
  cases root.dereference (elementPath path) with
  | error e => simp
  | ok target => simp [concrete_eq_ok_iff]

theorem dereference_of_resolve
    {root t : Schema} {path : Path} (h : resolve (some root) path = .ok t) :
    root.dereference (elementPath path) = .ok t :=
  (resolve_eq_ok_iff.mp h).1

end Schemata.Schema
