import Schemata.Proofs.Schema.Construction
import Schemata.Proofs.Subtyping.Antisymmetry
import Schemata.Proofs.Union.NormalForm

/-!
# Schemas that can be built

A schema is built from the bottom up by the constructors, each of which checks
its attributes.  Records list the fields they are given in increasing order of
their names, and unions keep schemas that they are given.  So every node inside
a schema that was built has attributes that its constructor would accept, and
would keep as they are.
-/

namespace Schemata.Schema

/-- The schemas that the constructors give. -/
inductive Built : Schema → Prop
  | anything : Built .anything
  | nothing : Built .nothing
  | null : Built .null
  | boolean : Built .boolean
  | number {whole signed : Bool} {nbytes : Int} {s : Schema} :
      Build.number whole signed nbytes = .ok s → Built s
  | string {charset : Bytes} {length : Int} {s : Schema} :
      Build.string charset length = .ok s → Built s
  | tensor {items s : Schema} {extents : List Int} :
      Built items → Build.tensor (some items) extents = .ok s → Built s
  | collection {items s : Schema} {ordered : Bool} {length : Int} :
      Built items → Build.collection (some items) ordered length = .ok s →
      Built s
  | mapping {keys values s : Schema} :
      Built keys → Built values →
      Build.mapping (some keys) (some values) = .ok s → Built s
  | record {entries : List (Bytes × Option Schema)} {s : Schema} :
      (∀ e ∈ entries, ∀ f ∈ e.2, Built f) →
      Build.record entries = .ok s → Built s
  | union {given : List Schema} {s : Schema} :
      (∀ p ∈ given, Built p) → Build.union (given.map some) = .ok s → Built s
  | reference (path : Path) : Built (.reference path)

/-- A union of schemas that were built, none of which is dropped. -/
theorem Built.union_of_kept
    {ps : List Schema} (hps : ∀ p ∈ ps, p.Built)
    (hkept : Union.possibilities ps = ps) : (Schema.union ps).Built := by
  refine .union hps ?_
  rw [Union.build_union, hkept]

/-- The attributes of a node are such as its constructor gives. -/
def NodeWellFormed : Schema → Prop
  | .number _ _ nbytes => 0 < nbytes
  | .string charset _ => charset ≠ []
  | .tensor _ dimensions => dimensions ≠ [] ∧ ∀ d ∈ dimensions, 1 ≤ d
  | .record fields =>
    (∀ f ∈ fields, f.1 ≠ []) ∧
      fields.Pairwise fun f g => compare f.1 g.1 = .lt
  | .union possibilities => Union.NormalForm possibilities
  | _ => True

/-- All nodes have attributes such as their constructors give. -/
inductive WellFormed : Schema → Prop
  | node {s : Schema} :
      s.NodeWellFormed → (∀ c ∈ s.children, WellFormed c) → WellFormed s

theorem WellFormed.of_childless
    {s : Schema} (hs : s.NodeWellFormed) (hchildren : s.children = []) :
    s.WellFormed := by
  refine .node hs ?_
  rw [hchildren]
  intro c hc
  cases hc

theorem WellFormed.offers
    {s q : Schema} (hs : s.WellFormed) (h : s.Offers q) : q.WellFormed := by
  induction h with
  | itself => exact hs
  | possibility hp _ ih =>
      obtain ⟨_, hchildren⟩ := hs
      exact ih (hchildren _ hp)

theorem Built.wellFormed {s : Schema} (hs : s.Built) : s.WellFormed := by
  induction hs with
  | number hbuild =>
      obtain ⟨n, hn, _, rfl⟩ := Build.number_eq_ok_iff.mp hbuild
      exact .of_childless hn rfl
  | string hbuild =>
      obtain ⟨hcharset, _, _, rfl⟩ := Build.string_eq_ok_iff.mp hbuild
      exact .of_childless hcharset rfl
  | tensor _ hbuild ih =>
      obtain ⟨ds, hne, hmin, _, rfl⟩ := Build.tensor_eq_ok_iff.mp hbuild
      exact .node ⟨hne, hmin⟩ (by simpa [children])
  | collection _ hbuild ih =>
      obtain ⟨_, _, rfl⟩ := Build.collection_eq_ok_iff.mp hbuild
      exact .node trivial (by simpa [children])
  | mapping _ _ hbuild ihkeys ihvalues =>
      cases hbuild
      exact .node trivial (by simp [children, ihkeys, ihvalues])
  | @record entries s _ hbuild ih =>
      obtain ⟨fs, hentries, hnames, rfl⟩ := Build.record_eq_ok_iff.mp hbuild
      have hincreasing := sortEntries_increasing entries
      rw [hentries, List.pairwise_map] at hincreasing
      refine .node ⟨hnames, hincreasing⟩ ?_
      intro c hc
      obtain ⟨f, hf, rfl⟩ := List.mem_map.mp hc
      exact ih _ (Build.mem_entries_of_mem_fields hentries hf) f.2 rfl
  | @union given s _ hbuild ih =>
      rw [Union.build_union] at hbuild
      cases hbuild
      refine .node (Union.possibilities_normalForm given) ?_
      intro r hr
      obtain ⟨p, hp, hoffers⟩ := Union.offered_of_mem_possibilities hr
      exact (ih p hp).offers hoffers
  | _ => exact .of_childless trivial rfl

theorem fieldsOrdered_of_children
    {s : Schema} (hs : s.NamesIncrease)
    (hchildren : ∀ c ∈ s.children, c.FieldsOrdered) : s.FieldsOrdered := by
  intro p hp
  rw [parts_eq] at hp
  rcases List.mem_append.mp hp with hcut | hinside
  · cases s with
    | tensor items dimensions =>
        obtain ⟨rest, _, rfl⟩ := List.mem_map.mp hcut
        trivial
    | _ => rwa [List.mem_singleton.mp hcut]
  · obtain ⟨c, hc, hpc⟩ := List.mem_flatMap.mp hinside
    exact hchildren c hc p hpc

theorem WellFormed.fieldsOrdered
    {s : Schema} (hs : s.WellFormed) : s.FieldsOrdered := by
  induction hs with
  | @node s hnode _ ih =>
      refine fieldsOrdered_of_children ?_ ih
      cases s with
      | record fields => exact hnode.2
      | _ => trivial

theorem Built.fieldsOrdered {s : Schema} (hs : s.Built) : s.FieldsOrdered :=
  hs.wellFormed.fieldsOrdered

end Schemata.Schema
