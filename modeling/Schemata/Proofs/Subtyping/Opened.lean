import Schemata.Proofs.Schema.Built
import Schemata.Proofs.Subtyping.Simulation

/-!
# Schemas with unions of one possibility opened

A union of one possibility compares as its possibility does, at every depth.
Opening all of them changes no answer.  What is left of a schema that leaves no
choice has no possibilities at all, so that two such schemas cover each other
exactly if they are the same once they are opened.
-/

namespace Schemata

open Subtyping

namespace Schema

mutual

/-- The schema with every union of one possibility replaced by it. -/
def opened : Schema → Schema
  | .tensor items dimensions => .tensor items.opened dimensions
  | .collection items ordered maxLength =>
    .collection items.opened ordered maxLength
  | .mapping keys values => .mapping keys.opened values.opened
  | .record fields => .record (openedFields fields)
  | .union [p] => p.opened
  | .union possibilities => .union (openedAll possibilities)
  | s => s

def openedAll : List Schema → List Schema
  | [] => []
  | p :: ps => p.opened :: openedAll ps

def openedFields : List (Bytes × Schema) → List (Bytes × Schema)
  | [] => []
  | (name, f) :: rest => (name, f.opened) :: openedFields rest

end

theorem openedAll_eq (ps : List Schema) : openedAll ps = ps.map opened := by
  induction ps with
  | nil => rfl
  | cons p ps ih => rw [openedAll, ih, List.map_cons]

theorem openedFields_eq (fields : List (Bytes × Schema)) :
    openedFields fields = fields.map fun f => (f.1, f.2.opened) := by
  induction fields with
  | nil => rfl
  | cons f rest ih => rw [openedFields, ih, List.map_cons]

theorem opened_eq_mapNode
    {s : Schema} (hs : ∀ p, s ≠ .union [p]) :
    s.opened = s.mapNode id opened := by
  cases s with
  | record fields => rw [opened, openedFields_eq, mapNode]
  | union ps =>
      rw [opened, openedAll_eq, mapNode]
      rintro p rfl
      exact hs p rfl
  | _ => simp only [opened, mapNode, id]

@[simp]
theorem opened_unwrap (s : Schema) : s.unwrap.opened = s.opened := by
  induction s using unwrap.induct with
  | case1 p ih => rw [unwrap, ih, opened]
  | case2 s hs =>
      rw [unwrap]
      exact hs

/-- A schema is opened by opening the schemas inside its first node that is no
union of one possibility. -/
theorem opened_eq_unwrap (s : Schema) :
    s.opened = s.unwrap.mapNode id opened := by
  rw [← opened_unwrap, opened_eq_mapNode s.unwrap_ne_union_singleton]

theorem mapNode_ne_union_singleton
    {s : Schema} (hs : ∀ p, s ≠ .union [p]) (g : Schema → Schema)
    (q : Schema) : s.mapNode id g ≠ .union [q] := by
  intro h
  cases s with
  | union ps =>
      simp only [mapNode, union.injEq, List.map_eq_singleton_iff] at h
      obtain ⟨p, rfl, _⟩ := h
      exact hs p rfl
  | _ => simp [mapNode] at h

/-- Nothing is left to be opened. -/
@[simp]
theorem unwrap_opened (s : Schema) : s.opened.unwrap = s.opened := by
  have hne : ∀ q, s.opened ≠ .union [q] := by
    rw [opened_eq_unwrap]
    exact mapNode_ne_union_singleton s.unwrap_ne_union_singleton opened
  rw [unwrap]
  exact hne

/-! ## What an opened schema is made of -/

theorem exists_cut_of_mapNode
    {g : Schema → Schema} {s p : Schema} (hs : ∀ c, s ≠ .union [c])
    (hp : p ∈ (s.mapNode id g).cuts) :
    ∃ q ∈ s.cuts, (∀ c, q ≠ .union [c]) ∧ p = q.mapNode id g := by
  cases s with
  | tensor items dimensions =>
      simp only [mapNode, cuts, List.mem_map] at hp
      obtain ⟨rest, hrest, rfl⟩ := hp
      exact ⟨.tensor items rest, List.mem_map_of_mem hrest, by simp, rfl⟩
  | _ =>
      refine ⟨_, self_mem_cuts _, hs, ?_⟩
      simpa [mapNode, cuts] using hp

/-- What is found in an opened schema is a node of the schema, itself no union
of one possibility, with the schemas inside opened. -/
theorem exists_part_of_opened
    {s p : Schema} (hp : p ∈ s.opened.parts) :
    ∃ q ∈ s.parts, (∀ c, q ≠ .union [c]) ∧ p = q.mapNode id opened := by
  induction s using childrenInduction with
  | step s ih =>
      have hinside : ∀ c ∈ s.children, p ∈ c.opened.parts →
          ∃ q ∈ s.parts, (∀ c, q ≠ .union [c]) ∧ p = q.mapNode id opened := by
        intro c hc hpc
        obtain ⟨q, hq, hne, heq⟩ := ih c hc hpc
        exact ⟨q, parts_subset_of_mem_parts (mem_parts_of_mem_children hc) hq,
          hne, heq⟩
      by_cases hone : ∃ c, s = .union [c]
      · obtain ⟨c, rfl⟩ := hone
        rw [opened] at hp
        exact hinside c (by simp [children]) hp
      · have hne : ∀ c, s ≠ .union [c] := fun c hc => hone ⟨c, hc⟩
        rw [opened_eq_mapNode hne, parts_eq, children_mapNode] at hp
        rcases List.mem_append.mp hp with hcut | hp
        · obtain ⟨q, hq, hqne, heq⟩ := exists_cut_of_mapNode hne hcut
          exact ⟨q, by rw [parts_eq]; exact List.mem_append_left _ hq, hqne,
            heq⟩
        · obtain ⟨t, ht, hpt⟩ := List.mem_flatMap.mp hp
          obtain ⟨c, hc, rfl⟩ := List.mem_map.mp ht
          exact hinside c hc hpt

theorem ReferenceFree.opened {s : Schema} (hs : s.ReferenceFree) :
    s.opened.ReferenceFree := by
  intro p hp
  obtain ⟨q, hq, _, rfl⟩ := exists_part_of_opened hp
  rw [kind_mapNode]
  exact hs q hq

theorem FieldsOrdered.opened {s : Schema} (hs : s.FieldsOrdered) :
    s.opened.FieldsOrdered := by
  intro p hp
  obtain ⟨q, hq, _, rfl⟩ := exists_part_of_opened hp
  exact (hs q hq).mapNode id Schema.opened

/-- A schema that leaves no choice has no possibilities once it is opened. -/
theorem ChoiceFree.unionsEmpty_opened {s : Schema} (hs : s.ChoiceFree) :
    s.opened.UnionsEmpty := by
  intro ps hps
  obtain ⟨q, hq, hne, heq⟩ := exists_part_of_opened hps
  have hkind : q.kind = .union := by
    have hkinds := congrArg kind heq
    rw [kind_mapNode] at hkinds
    exact hkinds.symm
  cases q with
  | union qs =>
      have hunwrap : (Schema.union qs).unwrap = .union qs := by
        rw [unwrap]
        exact hne
      have hempty : qs = [] := (hs.part hq).eq_nil_of_unwrap hunwrap
      rw [hempty] at heq
      cases heq
      rfl
  | _ => cases hkind

end Schema

namespace Subtyping

structure OpenedTo (s s' : Schema) : Prop where
  referenceFree : s.ReferenceFree
  fieldsOrdered : s.FieldsOrdered
  eq_opened : s' = s.opened

theorem OpenedTo.part
    {s s' p : Schema} (h : OpenedTo s s') (hp : p ∈ s.parts) :
    OpenedTo p p.opened :=
  ⟨h.referenceFree.part hp, h.fieldsOrdered.part hp, rfl⟩

theorem simulation_openedTo : Simulation Eq OpenedTo where
  oneToOne := by
    rintro c _ d _ rfl rfl
    rfl
  unwrap := by
    rintro s _ ⟨hfree, hfields, rfl⟩
    rw [Schema.unwrap_opened, ← Schema.opened_unwrap]
    exact ⟨hfree.part s.unwrap_mem_parts, hfields.part s.unwrap_mem_parts, rfl⟩
  node := by
    intro s s' h
    have hopen := h.part s.unwrap_mem_parts
    rw [h.eq_opened, Schema.unwrap_opened, Schema.opened_eq_unwrap]
    refine corresponds_mapNode
      (hopen.referenceFree _ (Schema.self_mem_parts _))
      (hopen.fieldsOrdered _ (Schema.self_mem_parts _)) (fun _ _ _ => rfl) ?_
    intro c hc
    exact hopen.part (Schema.mem_parts_of_mem_children hc)

/-- Two schemas without references that leave no choice are subtypes of each
other exactly if they are the same once all unions of one possibility are
replaced by it. -/
theorem isSubtype_mutual_iff
    {a b : Schema} (ha : a.Built) (hb : b.Built)
    (hafree : a.ReferenceFree) (hbfree : b.ReferenceFree)
    (hachoice : a.ChoiceFree) (hbchoice : b.ChoiceFree) :
    a.isSubtype b = .ok true ∧ b.isSubtype a = .ok true ↔
      a.opened.same b.opened = true := by
  have hopena : OpenedTo a a.opened := ⟨hafree, ha.fieldsOrdered, rfl⟩
  have hopenb : OpenedTo b b.opened := ⟨hbfree, hb.fieldsOrdered, rfl⟩
  rw [isSubtype_eq_ok_true_iff hafree hbfree,
    isSubtype_eq_ok_true_iff hbfree hafree, Schema.same_iff,
    ← simulation_openedTo.covers_iff none none hopena hopenb,
    ← simulation_openedTo.covers_iff none none hopenb hopena]
  constructor
  · rintro ⟨hab, hba⟩
    exact hab.antisymm hba hafree.opened hbfree.opened
      hachoice.unionsEmpty_opened hbchoice.unionsEmpty_opened
      ha.fieldsOrdered.opened hb.fieldsOrdered.opened
  · intro hsame
    rw [hsame]
    exact ⟨covers_self none _, covers_self none _⟩

/-- Different schemas that cover each other: one of them holds its record and a
field of it in unions of their own, and both have an empty union inside. -/
theorem isSubtype_mutual_iff_record :
    let empty := Schema.collection (.union []) true none
    let plain := Schema.record [([0x61], .number true true 4), ([0x62], empty)]
    let wrapped := Schema.union
      [.record [([0x61], .union [.number true true 4]), ([0x62], empty)]]
    (wrapped.Built ∧ plain.Built ∧ wrapped.ReferenceFree ∧
      plain.ReferenceFree ∧ wrapped.ChoiceFree ∧ plain.ChoiceFree) ∧
      (wrapped.isSubtype plain = .ok true ∧
        plain.isSubtype wrapped = .ok true) ∧
      wrapped.same plain = false := by
  intro empty plain wrapped
  have hnumber : (Schema.number true true 4).Built :=
    .number (show Build.number true true 4 = _ from rfl)
  have hchoice : (Schema.union [.number true true 4]).Built :=
    .union (by simpa using hnumber)
      (Union.build_union [.number true true 4])
  have hlist : empty.Built := by
    have hempty : (Schema.union []).Built :=
      .union (by simp) (Union.build_union [])
    exact .collection hempty
      (show Build.collection (some (.union [])) true (-1) = .ok empty from rfl)
  have hplain : plain.Built := by
    refine .record ?_ (show Build.record
      [([0x61], some (.number true true 4)), ([0x62], some empty)] =
        .ok plain from rfl)
    simpa using ⟨hnumber, hlist⟩
  have hinside : (Schema.record
      [([0x61], .union [.number true true 4]), ([0x62], empty)]).Built := by
    refine .record ?_ (show Build.record
      [([0x61], some (.union [.number true true 4])), ([0x62], some empty)] =
        .ok _ from rfl)
    simpa using ⟨hchoice, hlist⟩
  have hwrapped : wrapped.Built :=
    .union (by simpa using hinside) (Union.build_union
      [.record [([0x61], .union [.number true true 4]), ([0x62], empty)]])
  have hafree : wrapped.ReferenceFree := by decide
  have hbfree : plain.ReferenceFree := by decide
  have hachoice : wrapped.ChoiceFree := by decide
  have hbchoice : plain.ChoiceFree := by decide
  exact ⟨⟨hwrapped, hplain, hafree, hbfree, hachoice, hbchoice⟩,
    (isSubtype_mutual_iff hwrapped hplain hafree hbfree hachoice hbchoice).mpr
      (by decide), by decide⟩

end Subtyping

end Schemata
