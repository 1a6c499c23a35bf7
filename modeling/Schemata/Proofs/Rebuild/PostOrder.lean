import Schemata.Proofs.Rebuild

/-!
# The order of rebuilding

Constructors of some kinds may be replaced by others that keep a record of
their calls, and then build the same node or fail.  Rebuilding a well-formed
schema makes one call for each of its nodes of these kinds, the nodes inside
before those around them, until one of the calls fails.

Whether a call fails may depend on all the calls before it.  So the calls are
made in this order and not just recorded in it.
-/

namespace Schemata

namespace Schema

mutual

/-- All nodes of a schema, those inside before those around them. -/
def postorder : Schema → List Schema
  | .tensor items dimensions => items.postorder ++ [.tensor items dimensions]
  | .collection items ordered maxLength =>
    items.postorder ++ [.collection items ordered maxLength]
  | .mapping keys values =>
    keys.postorder ++ values.postorder ++ [.mapping keys values]
  | .record fields => fieldsPostorder fields ++ [.record fields]
  | .union possibilities => allPostorder possibilities ++ [.union possibilities]
  | s => [s]

def allPostorder : List Schema → List Schema
  | [] => []
  | p :: ps => p.postorder ++ allPostorder ps

def fieldsPostorder : List (Bytes × Schema) → List Schema
  | [] => []
  | (_, f) :: rest => f.postorder ++ fieldsPostorder rest

end

theorem allPostorder_eq (ps : List Schema) :
    allPostorder ps = ps.flatMap postorder := by
  induction ps with
  | nil => rfl
  | cons p ps ih => rw [allPostorder, ih, List.flatMap_cons]

theorem fieldsPostorder_eq (fields : List (Bytes × Schema)) :
    fieldsPostorder fields = (fields.map Prod.snd).flatMap postorder := by
  induction fields with
  | nil => rfl
  | cons f rest ih =>
      rw [fieldsPostorder, ih, List.map_cons, List.flatMap_cons]

theorem postorder_eq (s : Schema) :
    s.postorder = s.children.flatMap postorder ++ [s] := by
  cases s <;>
    simp [postorder, children, allPostorder_eq, fieldsPostorder_eq]

theorem mem_parts_of_mem_postorder
    {s p : Schema} (hp : p ∈ s.postorder) : p ∈ s.parts := by
  induction s using childrenInduction with
  | step s ih =>
      rw [postorder_eq] at hp
      rcases List.mem_append.mp hp with hinside | hself
      · obtain ⟨c, hc, hpc⟩ := List.mem_flatMap.mp hinside
        exact parts_subset_of_mem_parts (mem_parts_of_mem_children hc)
          (ih c hc hpc)
      · rw [List.mem_singleton.mp hself]
        exact s.self_mem_parts

@[simp]
theorem kind_layer (g : Schema → Schema) (s : Schema) :
    (s.layer g).kind = s.kind := by
  cases s <;> rfl

end Schema

/-- Constructors in place of those of some kinds. -/
structure Overrides (ε : Type) where
  replaces : Kind → Bool
  /-- The error of a call that is made after others, if it fails. -/
  verdict : List Layer → Layer → Option ε

namespace Overrides

variable {ε : Type} (o : Overrides ε)

def call (l : Layer) :
    ExceptT (ConstructionError ⊕ ε) (StateM (List Layer)) Unit :=
  ExceptT.mk do
    let before ← get
    set (before ++ [l])
    match o.verdict before l with
    | some e => return .error (.inr e)
    | none => return .ok ()

/-- The builder that calls the constructors where they are replaced and, if the
call does not fail, builds the node. -/
def builder (l : Layer) :
    ExceptT (ConstructionError ⊕ ε) (StateM (List Layer)) (Option Schema) := do
  if o.replaces l.kind then o.call l
  match l.build with
  | .ok s => return some s
  | .error e => throw (.inl e)

def calls (s : Schema) : List Layer :=
  (s.postorder.filter fun node => o.replaces node.kind).map (Schema.layer id)

/-- None of the calls fails if they are made in a row after others. -/
def Passes : List Layer → List Layer → Prop
  | _, [] => True
  | before, l :: rest =>
    o.verdict before l = none ∧ Passes (before ++ [l]) rest

theorem calls_eq (s : Schema) :
    o.calls s = s.children.flatMap o.calls ++
      if o.replaces s.kind then [s.layer id] else [] := by
  have hself : ([s].filter fun node => o.replaces node.kind).map
      (Schema.layer id) =
        if o.replaces s.kind then [s.layer id] else [] := by
    cases hkind : o.replaces s.kind <;> simp [hkind]
  rw [calls, Schema.postorder_eq, List.filter_append, List.map_append, hself,
    List.filter_flatMap, List.map_flatMap]
  rfl

theorem builder_layer
    {s : Schema} (hs : s.NodeWellFormed) :
    o.builder (s.layer id) = (do
      forM (if o.replaces s.kind then [s.layer id] else []) o.call
      pure (some s)) := by
  rw [builder, hs.build_layer, Schema.kind_layer]
  cases o.replaces s.kind <;> simp

theorem forM_flatMap
    {m : Type → Type} [Monad m] [LawfulMonad m] {α β : Type}
    (visit : β → m Unit) (expand : α → List β) (xs : List α) :
    (forM xs fun x => forM (expand x) visit) =
      forM (xs.flatMap expand) visit := by
  induction xs with
  | nil => rfl
  | cons x xs ih =>
      rw [List.forM_cons, ih, List.flatMap_cons, List.forM_append]

/-- Rebuilding a well-formed schema is making the calls for its nodes. -/
theorem rebuild_builder
    {s : Schema} (hs : s.WellFormed) :
    s.rebuild o.builder = (do
      forM (o.calls s) o.call
      pure (some s)) := by
  induction hs with
  | @node s hnode _ ih =>
      rw [Schema.rebuild_of_children (g := id) ih, forM_flatMap,
        o.builder_layer hnode, calls_eq, List.forM_append, bind_assoc]

/-! ## Runs -/

theorem run_call_of_some
    {α : Type} {before : List Layer} {l : Layer} {e : ε}
    (h : o.verdict before l = some e)
    (next : ExceptT (ConstructionError ⊕ ε) (StateM (List Layer)) α) :
    (do o.call l; next).run.run before = (.error (.inr e), before ++ [l]) := by
  simp only [call, ExceptT.run_bind, ExceptT.run_mk, bind_assoc,
    StateT.run_bind, StateT.run_get, StateT.run_set, pure_bind, h,
    StateT.run_pure]
  rfl

theorem run_call_of_none
    {α : Type} {before : List Layer} {l : Layer}
    (h : o.verdict before l = none)
    (next : ExceptT (ConstructionError ⊕ ε) (StateM (List Layer)) α) :
    (do o.call l; next).run.run before = next.run.run (before ++ [l]) := by
  simp [call, h, ExceptT.run_bind]

/-- Calls in a row are made until one fails. -/
theorem run_calls (before todo : List Layer) :
    (o.Passes before todo ∧
      (forM todo o.call).run.run before = (.ok (), before ++ todo)) ∨
    ∃ passed l rest e, todo = passed ++ l :: rest ∧ o.Passes before passed ∧
      o.verdict (before ++ passed) l = some e ∧
      (forM todo o.call).run.run before =
        (.error (.inr e), before ++ passed ++ [l]) := by
  induction todo generalizing before with
  | nil =>
      left
      exact ⟨trivial, by simp; rfl⟩
  | cons l rest ih =>
      cases hverdict : o.verdict before l with
      | some e =>
          right
          refine ⟨[], l, rest, e, rfl, trivial, by simpa using hverdict, ?_⟩
          rw [List.forM_cons, o.run_call_of_some hverdict, List.append_nil]
      | none =>
          have hrun : (forM (l :: rest) o.call).run.run before =
              (forM rest o.call).run.run (before ++ [l]) := by
            rw [List.forM_cons, o.run_call_of_none hverdict]
          rcases ih (before ++ [l]) with
            ⟨hpasses, hrest⟩ | ⟨passed, l', rest', e, rfl, hpasses, hfails, hrest⟩
          · left
            exact ⟨⟨hverdict, hpasses⟩, by rw [hrun, hrest]; simp⟩
          · right
            refine ⟨l :: passed, l', rest', e, rfl, ⟨hverdict, hpasses⟩,
              by simpa using hfails, ?_⟩
            rw [hrun, hrest]
            simp

/-- A schema that was built is rebuilt by calls for its nodes of the kinds
replaced, inside before around, with the fields of records in the order of their
names.  All of the calls are made and the schema comes out again, or those up to
the first call that fails are, and its error comes out. -/
theorem rebuild_postorder {s : Schema} (hs : s.Built) :
    let run := (s.rebuild o.builder).run.run []
    ((o.Passes [] (o.calls s) ∧
        ∃ t, run = (.ok (some t), o.calls s) ∧ t.same s = true) ∨
      ∃ before l after e, o.calls s = before ++ l :: after ∧
        o.Passes [] before ∧ o.verdict before l = some e ∧
        run = (.error (.inr e), before ++ [l])) ∧
    ∀ fields, .record fields ∈ s.postorder →
      fields.Pairwise fun f g => compare f.1 g.1 = .lt := by
  intro run
  have hrun : run = (do
      forM (o.calls s) o.call
      pure (some s)).run.run [] := by
    rw [← o.rebuild_builder hs.wellFormed]
  refine ⟨?_, ?_⟩
  · rcases o.run_calls [] (o.calls s) with
      ⟨hpasses, hcalls⟩ | ⟨before, l, after, e, hsplit, hpasses, hfails, hcalls⟩
    · left
      refine ⟨hpasses, s, ?_, (Schema.same_iff s s).mpr rfl⟩
      rw [hrun, ExceptT.run_bind, StateT.run_bind, hcalls]
      rfl
    · right
      refine ⟨before, l, after, e, hsplit, hpasses, hfails, ?_⟩
      rw [hrun, ExceptT.run_bind, StateT.run_bind, hcalls]
      rfl
  · intro fields hfields
    exact hs.fieldsOrdered _ (Schema.mem_parts_of_mem_postorder hfields)

/-- Lists of truth values under texts, where strings and lists are recorded and
truth values are recorded and refused: the list is never reached. -/
theorem rebuild_postorder_refused :
    let o : Overrides Unit :=
      ⟨fun kind => kind != .mapping,
        fun _ l => if l.kind = .boolean then some () else none⟩
    let s := Schema.mapping .anyText (.list .boolean)
    let text := Layer.string charsetUtf8 none
    let list := Layer.collection (some .boolean) true none
    s.Built ∧ o.calls s = [text, .boolean, list] ∧
      (s.rebuild o.builder).run.run [] =
        (.error (.inr ()), [text, .boolean]) := by
  intro o s text list
  have hs : s.Built := by
    have htext : Build.string charsetUtf8 (-1) = .ok .anyText := rfl
    have hlist : Build.collection (some .boolean) true (-1) =
        .ok (.list .boolean) := rfl
    exact .mapping (.string htext) (.collection .boolean hlist) rfl
  have hcalls : o.calls s = [text, .boolean, list] := rfl
  refine ⟨hs, hcalls, ?_⟩
  obtain ⟨⟨hpasses, _⟩ | ⟨before, l, after, e, hsplit, hpasses, hfails, hrun⟩,
    _⟩ := o.rebuild_postorder hs
  · rw [hcalls] at hpasses
    cases hpasses.2.1
  · -- The first call passes and the second does not, so one call came before.
    rw [hcalls] at hsplit
    rcases before with _ | ⟨first, _ | ⟨second, more⟩⟩
    · obtain ⟨rfl, _⟩ := List.cons.inj hsplit
      cases hfails
    · obtain ⟨rfl, hrest⟩ := List.cons.inj hsplit
      obtain ⟨rfl, _⟩ := List.cons.inj hrest
      exact hrun
    · obtain ⟨rfl, hrest⟩ := List.cons.inj hsplit
      obtain ⟨rfl, _⟩ := List.cons.inj hrest
      cases hpasses.2.1

end Overrides

end Schemata
