import Schemata.Proofs.Schema.Built

/-!
# Rebuilding

A builder is called for the schemas inside a node, from left to right, and then
for the node.  If it answers every node whose children are rebuilt with what is
wanted of the node, it rebuilds the whole schema to what is wanted of it.  The
constructors accept the attributes of well-formed nodes, and give back the node
with its new children; only unions are normalised again.  So a well-formed
schema is its own copy, and the well-formed schemas are those that can be
built.
-/

namespace Schemata

namespace Schema

/-- The outermost node, with new schemas for those directly inside. -/
def layer (g : Schema → Schema) : Schema → Layer
  | .anything => .anything
  | .nothing => .nothing
  | .null => .null
  | .boolean => .boolean
  | .number whole signed nbytes => .number whole signed nbytes
  | .string charset maxLength => .string charset maxLength
  | .tensor items dimensions => .tensor (some (g items)) dimensions
  | .collection items ordered maxLength =>
    .collection (some (g items)) ordered maxLength
  | .mapping keys values => .mapping (some (g keys)) (some (g values))
  | .record fields => .record (fields.map fun f => (f.1, some (g f.2)))
  | .union possibilities => .union (possibilities.map fun p => some (g p))
  | .reference path => .reference path

/-- A schema with new schemas for those directly inside, where unions are
normalised. -/
def renew (g : Schema → Schema) : Schema → Schema
  | .tensor items dimensions => .tensor (g items) dimensions
  | .collection items ordered maxLength =>
    .collection (g items) ordered maxLength
  | .mapping keys values => .mapping (g keys) (g values)
  | .record fields => .record (fields.map fun f => (f.1, g f.2))
  | .union possibilities => .union (Union.possibilities (possibilities.map g))
  | s => s

section Builders

variable {m : Type → Type} [Monad m] [LawfulMonad m]
  {builder : Layer → m (Option Schema)} {visit : Schema → m Unit}
  {g : Schema → Schema}

theorem rebuildAll_eq
    {ps : List Schema}
    (h : ∀ p ∈ ps, p.rebuild builder = do visit p; pure (some (g p))) :
    rebuildAll builder ps = (do
      forM ps visit
      pure (ps.map fun p => some (g p))) := by
  induction ps with
  | nil => simp [rebuildAll]
  | cons p ps ih =>
      obtain ⟨hp, hps⟩ := List.forall_mem_cons.mp h
      simp [rebuildAll, hp, ih hps]

theorem rebuildFields_eq
    {fields : List (Bytes × Schema)}
    (h : ∀ f ∈ fields,
      f.2.rebuild builder = do visit f.2; pure (some (g f.2))) :
    rebuildFields builder fields = (do
      forM (fields.map Prod.snd) visit
      pure (fields.map fun f => (f.1, some (g f.2)))) := by
  induction fields with
  | nil => simp [rebuildFields]
  | cons f rest ih =>
      obtain ⟨hf, hrest⟩ := List.forall_mem_cons.mp h
      simp [rebuildFields, hf, ih hrest]

/-- If rebuilding a schema inside is visiting it, rebuilding the whole schema is
visiting those inside in their order, and then building the outermost node. -/
theorem rebuild_of_children
    {s : Schema}
    (h : ∀ c ∈ s.children,
      c.rebuild builder = do visit c; pure (some (g c))) :
    s.rebuild builder = (do
      forM s.children visit
      builder (s.layer g)) := by
  cases s with
  | tensor items dimensions =>
      simp [rebuild, layer, children, h items (by simp [children])]
  | collection items ordered maxLength =>
      simp [rebuild, layer, children, h items (by simp [children])]
  | mapping keys values =>
      have hkeys := h keys (by simp [children])
      have hvalues := h values (by simp [children])
      simp [rebuild, layer, children, hkeys, hvalues]
  | record fields =>
      have hfields : ∀ f ∈ fields,
          f.2.rebuild builder = (do visit f.2; pure (some (g f.2))) :=
        fun f hf => h f.2 (List.mem_map_of_mem hf)
      simp [rebuild, layer, children, rebuildFields_eq hfields]
  | union possibilities =>
      have hall : rebuildAll builder possibilities = (do
          forM possibilities visit
          pure (possibilities.map fun p => some (g p))) := rebuildAll_eq h
      simp [rebuild, layer, children, hall]
  | _ => simp [rebuild, layer, children]

theorem forM_pure_unit (ps : List Schema) :
    (forM ps fun _ => pure ()) = (pure () : m Unit) := by
  induction ps with
  | nil => rfl
  | cons p ps ih => rw [List.forM_cons, pure_bind, ih]

/-- What a builder does with well-formed nodes it does with whole schemas. -/
theorem rebuild_eq
    (hbuilder : ∀ s : Schema, s.NodeWellFormed →
      builder (s.layer g) = pure (some (g s)))
    {s : Schema} (hs : s.WellFormed) :
    s.rebuild builder = pure (some (g s)) := by
  induction hs with
  | @node s hnode _ ih =>
      have hchildren : ∀ c ∈ s.children,
          c.rebuild builder = pure () >>= fun _ => pure (some (g c)) := by
        intro c hc
        rw [pure_bind, ih c hc]
      rw [rebuild_of_children hchildren, forM_pure_unit, pure_bind,
        hbuilder _ hnode]

end Builders

theorem WellFormed.renew
    {g : Schema → Schema} {s : Schema} (hs : s.NodeWellFormed)
    (hchildren : ∀ c ∈ s.children, (g c).WellFormed) :
    (s.renew g).WellFormed := by
  cases s with
  | tensor items dimensions =>
      exact .node hs (by simpa [Schema.renew, children] using hchildren)
  | collection items ordered maxLength =>
      exact .node hs (by simpa [Schema.renew, children] using hchildren)
  | mapping keys values =>
      exact .node hs (by simpa [Schema.renew, children] using hchildren)
  | record fields =>
      obtain ⟨hnames, hincreasing⟩ := hs
      refine .node ⟨List.forall_mem_map.mpr hnames,
        List.pairwise_map.mpr hincreasing⟩ ?_
      have hfields : ∀ f ∈ fields, (g f.2).WellFormed :=
        fun f hf => hchildren f.2 (List.mem_map_of_mem hf)
      rw [Schema.renew, children, List.map_map]
      exact List.forall_mem_map.mpr hfields
  | union possibilities =>
      refine .node (Union.possibilities_normalForm _) ?_
      intro r hr
      obtain ⟨p, hp, hoffers⟩ := Union.offered_of_mem_possibilities hr
      obtain ⟨c, hc, rfl⟩ := List.mem_map.mp hp
      exact (hchildren c hc).offers hoffers
  | _ => exact .of_childless hs rfl

/-- The constructors give back a well-formed node with its new children. -/
theorem buildM_layer
    {m : Type → Type} [Monad m] [LawfulMonad m] [MonadReport m] [SilentReport m]
    (g : Schema → Schema) {s : Schema} (hs : s.NodeWellFormed) :
    ((s.layer g).buildM : ExceptT ConstructionError m Schema) =
      pure (s.renew g) := by
  cases s with
  | number whole signed nbytes =>
      have hbuild : Build.number whole signed nbytes =
          .ok (.number whole signed nbytes) :=
        Build.number_eq_ok_iff.mpr ⟨nbytes, hs, rfl, rfl⟩
      rw [layer, Layer.buildM, hbuild]
      rfl
  | string charset maxLength =>
      have hbuild : Build.string charset (Layer.lengthBound maxLength) =
          .ok (.string charset maxLength) :=
        Build.string_eq_ok_iff.mpr ⟨hs, maxLength, rfl, rfl⟩
      rw [layer, Layer.buildM, hbuild]
      rfl
  | tensor items dimensions =>
      have hbuild : Build.tensor (some (g items)) (dimensions.map Int.ofNat) =
          .ok (.tensor (g items) dimensions) :=
        Build.tensor_eq_ok_iff.mpr ⟨dimensions, hs.1, hs.2, rfl, rfl⟩
      rw [layer, Layer.buildM, hbuild]
      rfl
  | collection items ordered maxLength =>
      have hbuild : Build.collection (some (g items)) ordered
          (Layer.lengthBound maxLength) =
          .ok (.collection (g items) ordered maxLength) :=
        Build.collection_eq_ok_iff.mpr ⟨maxLength, rfl, rfl⟩
      rw [layer, Layer.buildM, hbuild]
      rfl
  | record fields =>
      obtain ⟨hnames, hincreasing⟩ := hs
      let renewed := fields.map fun f => (f.1, g f.2)
      have hentries : (fields.map fun f => (f.1, some (g f.2))) =
          renewed.map fun f => (f.1, some f.2) := by
        rw [List.map_map]
        rfl
      have hsorted : sortEntries (renewed.map fun f => (f.1, some f.2)) =
          renewed.map fun f => (f.1, some f.2) :=
        sortEntries_of_increasing
          (List.pairwise_map.mpr (List.pairwise_map.mpr hincreasing))
      have hbuild : Build.record (renewed.map fun f => (f.1, some f.2)) =
          .ok (.record renewed) :=
        Build.record_eq_ok_iff.mpr
          ⟨renewed, hsorted, List.forall_mem_map.mpr hnames, rfl⟩
      rw [layer, Layer.buildM, hentries, hbuild]
      rfl
  | union possibilities =>
      have hgiven : (possibilities.map fun p => some (g p)) =
          (possibilities.map g).map some := by
        rw [List.map_map]
        rfl
      rw [layer, Layer.buildM, hgiven, Union.unionM_eq, Union.build_union]
      rfl
  | _ => rfl

theorem NodeWellFormed.renew_id
    {s : Schema} (hs : s.NodeWellFormed) : s.renew id = s := by
  cases s with
  | record fields => simp [renew]
  | union possibilities =>
      rw [renew, List.map_id, Union.NormalForm.possibilities_eq hs]
  | _ => rfl

theorem NodeWellFormed.build_layer
    {s : Schema} (hs : s.NodeWellFormed) : (s.layer id).build = .ok s := by
  rw [Layer.build, buildM_layer id hs, hs.renew_id]
  rfl

/-- A well-formed schema is its own copy. -/
theorem WellFormed.copy_eq
    {s : Schema} (hs : s.WellFormed) : s.copy = .ok s := by
  have hrebuild : s.rebuild (fun l => some <$> l.build) =
      (.ok (some s) : Except ConstructionError _) := by
    refine rebuild_eq (g := id) ?_ hs
    intro s hs
    rw [hs.build_layer]
    rfl
  rw [copy, hrebuild]
  rfl

theorem WellFormed.built {s : Schema} (hs : s.WellFormed) : s.Built := by
  induction hs with
  | @node s hnode _ ih =>
      have hbuild := hnode.build_layer
      cases s with
      | anything => exact .anything
      | nothing => exact .nothing
      | null => exact .null
      | boolean => exact .boolean
      | number whole signed nbytes => exact .number hbuild
      | string charset maxLength => exact .string hbuild
      | tensor items dimensions =>
          exact .tensor (ih items (by simp [children])) hbuild
      | collection items ordered maxLength =>
          exact .collection (ih items (by simp [children])) hbuild
      | mapping keys values =>
          exact .mapping (ih keys (by simp [children]))
            (ih values (by simp [children])) hbuild
      | record fields =>
          refine .record (List.forall_mem_map.mpr ?_) hbuild
          intro f hf t ht
          cases ht
          exact ih f.2 (List.mem_map_of_mem hf)
      | union possibilities => exact .union ih hbuild
      | reference path => exact .reference path

theorem built_iff_wellFormed {s : Schema} : s.Built ↔ s.WellFormed :=
  ⟨Built.wellFormed, WellFormed.built⟩

/-- What is found in a well-formed schema is well-formed, but for what is left
of a tensor when all its extents are used up. -/
theorem WellFormed.part
    {s p : Schema} (hs : s.WellFormed) (hp : p ∈ s.parts)
    (hkind : p.kind ≠ .tensor) : p.WellFormed := by
  induction hs with
  | @node s hnode hchildren ih =>
      rw [parts_eq] at hp
      rcases List.mem_append.mp hp with hcut | hinside
      · rw [eq_of_mem_cuts hcut hkind]
        exact .node hnode hchildren
      · obtain ⟨c, hc, hpc⟩ := List.mem_flatMap.mp hinside
        exact ih c hc hpc

theorem mapM_copy_eq
    {ps : List Schema} (h : ∀ p ∈ ps, p.WellFormed) :
    ps.mapM copy = .ok ps := by
  induction ps with
  | nil => rfl
  | cons p ps ih =>
      obtain ⟨hp, hps⟩ := List.forall_mem_cons.mp h
      rw [List.mapM_cons, hp.copy_eq, ih hps]
      rfl

/-- Copying a schema that was built succeeds and gives an equal schema, whether
or not its references lead anywhere.  Copying the possibilities of a union
inside and building a union of them gives the union again. -/
theorem copy_same {s : Schema} (hs : s.Built) :
    (∃ t, s.copy = .ok t ∧ t.same s = true) ∧
      ∀ ps, .union ps ∈ s.parts → ∃ qs, ps.mapM copy = .ok qs ∧
        Build.union (qs.map some) = .ok (.union ps) := by
  refine ⟨⟨s, hs.wellFormed.copy_eq, (same_iff s s).mpr rfl⟩, ?_⟩
  intro ps hps
  obtain ⟨hnormal, hpossibilities⟩ := hs.wellFormed.part hps (by simp [kind])
  refine ⟨ps, mapM_copy_eq hpossibilities, ?_⟩
  rw [Union.build_union, Union.NormalForm.possibilities_eq hnormal]

set_option maxRecDepth 4000 in
/-- Among the possibilities are a reference that leads nowhere and lists that
leave a choice inside. -/
theorem copy_same_choices :
    let choice := Schema.union [.null, .number true true 8]
    let s := Schema.union
      [.collection choice true (some 3), .reference [.field [0x78]]]
    s.Built ∧ (∃ t, s.copy = .ok t ∧ t.same s = true) ∧
      ∃ qs, [Schema.null, .number true true 8].mapM copy = .ok qs ∧
        Build.union (qs.map some) = .ok choice := by
  intro choice s
  have hnumber : Build.number true true 8 = .ok (.number true true 8) := rfl
  have hlist : Build.collection (some choice) true 3 =
      .ok (.collection choice true (some 3)) := rfl
  have hinner : Build.union ([.number true true 8, .null].map some) =
      .ok choice := rfl
  have houter : Build.union
      ([.reference [.field [0x78]], .collection choice true (some 3)].map
        some) = .ok s := rfl
  have hchoice : choice.Built := by
    refine .union ?_ hinner
    simp [Built.number hnumber, Built.null]
  have hs : s.Built := by
    refine .union ?_ houter
    simp [Built.reference, Built.collection hchoice hlist]
  obtain ⟨hcopy, hunions⟩ := copy_same hs
  exact ⟨hs, hcopy, hunions _ (by simp [s, parts, choice, allParts])⟩

end Schema

end Schemata
