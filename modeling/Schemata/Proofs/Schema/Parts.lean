import Schemata.Subtyping
import Schemata.Proofs.Dereference.Step
import Mathlib.Tactic

/-!
# The parts of a schema

Everything that can be reached from a schema without resolving a reference is
one of its parts: the schema itself, the schemas inside it at any depth, and
the tensors that remain when leading extents of a tensor are used up.  There
are as many parts as the schema weighs, and a path leads from a schema to one
of its parts only.  So all that the references into a root resolve to comes
from a finite list that the root determines.
-/

namespace Schemata.Schema

theorem weight_le_allWeight
    {p : Schema} {ps : List Schema} (hp : p ∈ ps) :
    p.weight ≤ allWeight ps := by
  induction ps with
  | nil => simp at hp
  | cons q qs ih =>
      simp only [allWeight]
      rcases List.mem_cons.mp hp with rfl | hq
      · omega
      · have hle := ih hq
        omega

theorem fieldsWeight_eq (fields : List (Bytes × Schema)) :
    fieldsWeight fields = allWeight (fields.map Prod.snd) := by
  induction fields with
  | nil => rfl
  | cons f rest ih => simp [fieldsWeight, allWeight, ih]

theorem weight_lt_of_mem_children
    {s c : Schema} (hc : c ∈ s.children) : c.weight < s.weight := by
  cases s with
  | tensor items dimensions =>
      obtain rfl : c = items := by simpa [children] using hc
      simp only [weight]
      omega
  | collection items ordered maxLength =>
      obtain rfl : c = items := by simpa [children] using hc
      simp [weight]
  | mapping keys values =>
      have hcases : c = keys ∨ c = values := by
        simpa [children] using hc
      rcases hcases with rfl | rfl <;> simp only [weight] <;> omega
  | record fields =>
      have hle : c.weight ≤ allWeight (fields.map Prod.snd) :=
        weight_le_allWeight hc
      simp only [weight, fieldsWeight_eq]
      omega
  | union possibilities =>
      have hle : c.weight ≤ allWeight possibilities :=
        weight_le_allWeight hc
      simp only [weight]
      omega
  | _ => simp [children] at hc

/-- What holds of a schema whenever it holds of the schemas directly inside
holds of all schemas. -/
theorem childrenInduction
    {motive : Schema → Prop}
    (step : ∀ s, (∀ c ∈ s.children, motive c) → motive s) (s : Schema) :
    motive s := by
  induction hn : s.weight using Nat.strong_induction_on generalizing s with
  | _ n ih =>
      apply step
      intro c hc
      have hlt : c.weight < n := by
        rw [← hn]
        exact weight_lt_of_mem_children hc
      exact ih c.weight hlt c rfl

/-- A schema and, of a tensor, what is left of it behind leading extents. -/
def cuts : Schema → List Schema
  | .tensor items dimensions => dimensions.tails.map (.tensor items)
  | s => [s]

mutual

/-- All schemas that can be found in a schema. -/
def parts : Schema → List Schema
  | .tensor items dimensions =>
    cuts (.tensor items dimensions) ++ items.parts
  | .collection items ordered maxLength =>
    .collection items ordered maxLength :: items.parts
  | .mapping keys values => .mapping keys values :: (keys.parts ++ values.parts)
  | .record fields => .record fields :: fieldsParts fields
  | .union possibilities => .union possibilities :: allParts possibilities
  | s => [s]

def allParts : List Schema → List Schema
  | [] => []
  | p :: ps => p.parts ++ allParts ps

def fieldsParts : List (Bytes × Schema) → List Schema
  | [] => []
  | (_, f) :: rest => f.parts ++ fieldsParts rest

end

theorem allParts_eq (ps : List Schema) :
    allParts ps = ps.flatMap parts := by
  induction ps with
  | nil => rfl
  | cons p ps ih => rw [allParts, ih, List.flatMap_cons]

theorem fieldsParts_eq (fields : List (Bytes × Schema)) :
    fieldsParts fields = (fields.map Prod.snd).flatMap parts := by
  induction fields with
  | nil => rfl
  | cons f rest ih =>
      rw [fieldsParts, ih, List.map_cons, List.flatMap_cons]

/-- The parts are the cuts of the schema and the parts of its children. -/
theorem parts_eq (s : Schema) :
    s.parts = s.cuts ++ s.children.flatMap parts := by
  cases s <;>
    simp [parts, cuts, children, allParts_eq, fieldsParts_eq]

theorem self_mem_cuts (s : Schema) : s ∈ s.cuts := by
  cases s <;> simp [cuts]

@[simp]
theorem self_mem_parts (s : Schema) : s ∈ s.parts := by
  rw [parts_eq]
  exact List.mem_append_left _ s.self_mem_cuts

theorem mem_parts_of_mem_children
    {s c : Schema} (hc : c ∈ s.children) : c ∈ s.parts := by
  rw [parts_eq]
  apply List.mem_append_right
  exact List.mem_flatMap.mpr ⟨c, hc, c.self_mem_parts⟩

theorem eq_of_mem_cuts
    {s p : Schema} (hp : p ∈ s.cuts) (hkind : p.kind ≠ .tensor) : p = s := by
  cases s with
  | tensor items dimensions =>
      obtain ⟨rest, _, rfl⟩ := List.mem_map.mp hp
      exact absurd rfl hkind
  | _ => exact List.mem_singleton.mp hp

/-- A cut of a schema has no cuts or children that the schema lacks. -/
theorem cuts_and_children_of_mem_cuts
    {s p : Schema} (hp : p ∈ s.cuts) :
    p.cuts ⊆ s.cuts ∧ p.children = s.children := by
  cases s with
  | tensor items dimensions =>
      simp only [cuts, List.mem_map, List.mem_tails] at hp
      obtain ⟨rest, hrest, rfl⟩ := hp
      refine ⟨?_, rfl⟩
      intro q hq
      simp only [cuts, List.mem_map, List.mem_tails] at hq ⊢
      obtain ⟨more, hmore, rfl⟩ := hq
      exact ⟨more, hmore.trans hrest, rfl⟩
  | _ =>
      obtain rfl := List.mem_singleton.mp hp
      exact ⟨fun _ hq => hq, rfl⟩

/-- Parts of parts are parts. -/
theorem parts_subset_of_mem_parts
    {s p : Schema} (hp : p ∈ s.parts) : p.parts ⊆ s.parts := by
  induction s using childrenInduction with
  | step s ih =>
      rw [parts_eq s] at hp ⊢
      rcases List.mem_append.mp hp with hcut | hinside
      · obtain ⟨hcuts, hchildren⟩ := cuts_and_children_of_mem_cuts hcut
        rw [parts_eq p, hchildren]
        exact List.append_subset.mpr
          ⟨List.subset_append_of_subset_left _ hcuts,
            List.subset_append_right _ _⟩
      · obtain ⟨c, hc, hpc⟩ := List.mem_flatMap.mp hinside
        intro q hq
        apply List.mem_append_right
        exact List.mem_flatMap.mpr ⟨c, hc, ih c hc hpc hq⟩

theorem allWeight_eq_length
    {ps : List Schema} (h : ∀ p ∈ ps, p.parts.length = p.weight) :
    (ps.flatMap parts).length = allWeight ps := by
  induction ps with
  | nil => rfl
  | cons p ps ih =>
      have htail := ih fun q hq => h q (List.mem_cons_of_mem p hq)
      rw [List.flatMap_cons, List.length_append, htail,
        h p List.mem_cons_self, allWeight]

/-- A schema weighs as much as it has parts. -/
theorem length_parts (s : Schema) : s.parts.length = s.weight := by
  induction s using childrenInduction with
  | step s ih =>
      rw [parts_eq, List.length_append, allWeight_eq_length ih]
      cases s <;>
        simp [cuts, children, weight, allWeight, fieldsWeight_eq] <;>
        omega

theorem weight_le_of_mem_parts
    {s p : Schema} (hp : p ∈ s.parts) : p.weight ≤ s.weight := by
  induction s using childrenInduction with
  | step s ih =>
      rw [parts_eq] at hp
      rcases List.mem_append.mp hp with hcut | hinside
      · cases s with
        | tensor items dimensions =>
            simp only [cuts, List.mem_map, List.mem_tails] at hcut
            obtain ⟨rest, hrest, rfl⟩ := hcut
            have hlength := hrest.length_le
            simp only [weight]
            omega
        | _ => rw [List.mem_singleton.mp hcut]
      · obtain ⟨c, hc, hpc⟩ := List.mem_flatMap.mp hinside
        have hlt := weight_lt_of_mem_children hc
        have hle := ih c hc hpc
        omega

theorem unwrap_mem_parts (s : Schema) : s.unwrap ∈ s.parts := by
  induction s using unwrap.induct with
  | case1 p ih =>
      rw [unwrap]
      exact parts_subset_of_mem_parts
        (mem_parts_of_mem_children (by simp [children])) ih
  | case2 s hs =>
      rw [unwrap]
      · exact s.self_mem_parts
      · exact hs

theorem weight_unwrap_le (s : Schema) : s.unwrap.weight ≤ s.weight :=
  weight_le_of_mem_parts s.unwrap_mem_parts

/-- Unwrapping leaves no union of one possibility. -/
theorem unwrap_ne_union_singleton (s p : Schema) :
    s.unwrap ≠ .union [p] := by
  induction s using unwrap.induct with
  | case1 q ih =>
      rw [unwrap]
      exact ih
  | case2 s hs =>
      rw [unwrap]
      · intro h
        exact hs p h
      · exact hs

@[simp]
theorem unwrap_unwrap (s : Schema) : s.unwrap.unwrap = s.unwrap := by
  have hne := s.unwrap_ne_union_singleton
  generalize s.unwrap = t at hne
  rw [unwrap]
  exact hne

theorem unwrap_of_kind_ne_union
    {s : Schema} (hs : s.kind ≠ .union) : s.unwrap = s := by
  rw [unwrap]
  rintro p rfl
  exact hs rfl

theorem mem_values_of_field?
    {name : Bytes} {fields : List (Bytes × Schema)} {f : Schema}
    (hf : field? name fields = some f) : (name, f) ∈ fields := by
  simp only [field?, Option.map_eq_some_iff] at hf
  obtain ⟨⟨name', f'⟩, hfind, rfl⟩ := hf
  have hname : name' = name := by
    simpa using List.find?_some hfind
  subst hname
  exact List.mem_of_find?_eq_some hfind

/-- A segment selects a part. -/
theorem Selects.mem_parts
    {s t : Schema} {segment : Segment} (h : s.Selects segment t) :
    t ∈ s.parts := by
  induction h with
  | behind _ ih =>
      exact parts_subset_of_mem_parts
        (mem_parts_of_mem_children (by simp [children])) ih
  | slice =>
      rw [parts_eq]
      apply List.mem_append_left
      simp [cuts]
  | field hfield =>
      exact mem_parts_of_mem_children
        (List.mem_map_of_mem (mem_values_of_field? hfield))
  | _ => exact mem_parts_of_mem_children (by simp [children])

theorem dereference_mem_parts
    {s t : Schema} {path : Path} (h : s.dereference path = .ok t) :
    t ∈ s.parts := by
  refine dereferenceFrom_preserves (P := (· ∈ s.parts)) ?_ s.self_mem_parts h
  intro p segment q hp hselects
  exact parts_subset_of_mem_parts hp hselects.mem_parts

/-- What a reference resolves to is a part of the root. -/
theorem resolve_mem_parts
    {root : Option Schema} {path : Path} {t : Schema}
    (h : resolve root path = .ok t) :
    ∃ r, root = some r ∧ t ∈ r.parts := by
  cases root with
  | none => cases h
  | some r => exact ⟨r, rfl, dereference_mem_parts (dereference_of_resolve h)⟩

/-- Whether a schema is a union that leaves a choice. -/
def isChoice : Schema → Bool
  | .union (_ :: _ :: _) => true
  | _ => false

/-- No part of the schema is a reference. -/
def ReferenceFree (s : Schema) : Prop :=
  ∀ p ∈ s.parts, p.kind ≠ .reference

/-- No part of the schema is a union of two or more possibilities. -/
def ChoiceFree (s : Schema) : Prop :=
  ∀ p ∈ s.parts, p.isChoice = false

/-- No part of the schema is a union. -/
def UnionFree (s : Schema) : Prop :=
  ∀ p ∈ s.parts, p.kind ≠ .union

instance (s : Schema) : Decidable s.ReferenceFree :=
  inferInstanceAs (Decidable (∀ p ∈ s.parts, p.kind ≠ .reference))

instance (s : Schema) : Decidable s.ChoiceFree :=
  inferInstanceAs (Decidable (∀ p ∈ s.parts, p.isChoice = false))

instance (s : Schema) : Decidable s.UnionFree :=
  inferInstanceAs (Decidable (∀ p ∈ s.parts, p.kind ≠ .union))

theorem ReferenceFree.part
    {s p : Schema} (hs : s.ReferenceFree) (hp : p ∈ s.parts) :
    p.ReferenceFree :=
  fun q hq => hs q (parts_subset_of_mem_parts hp hq)

theorem ChoiceFree.part
    {s p : Schema} (hs : s.ChoiceFree) (hp : p ∈ s.parts) :
    p.ChoiceFree :=
  fun q hq => hs q (parts_subset_of_mem_parts hp hq)

theorem UnionFree.part
    {s p : Schema} (hs : s.UnionFree) (hp : p ∈ s.parts) :
    p.UnionFree :=
  fun q hq => hs q (parts_subset_of_mem_parts hp hq)

theorem UnionFree.choiceFree
    {s : Schema} (hs : s.UnionFree) : s.ChoiceFree := by
  intro p hp
  have hkind := hs p hp
  cases p <;> first | rfl | exact absurd rfl hkind

end Schemata.Schema
