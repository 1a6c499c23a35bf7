import Schemata.Backend.Columnar
import Schemata.Proofs.Outline
import Schemata.Proofs.Schema.Built

/-!
# Flagged outlines

A backend judges every node of a schema but the nulls that make unions nullable,
and the outline flags the nodes that it cannot represent.  It recognises them by
their value.  Nodes of one value are judged alike wherever they stand, so every
node judged is flagged exactly if it cannot be represented.  A null that makes a
union nullable is not judged, but it is flagged as soon as another null cannot
be represented.
-/

namespace Schemata.Backend

def flag : Bytes := "--> "

def flagStyle (nodes : List Schema) : Style :=
  { highlight := fun node => if nodes.any node.same then flag else "    " }

variable (b : Backend)

def isFlagged (s : Schema) (l : Line) : Bool :=
  flag.isPrefixOf (l.render (flagStyle (b.unsupportedNodes s)))

/-- The nodes whose opening or only lines start with the flag. -/
def flaggedNodes (s : Schema) : List Schema :=
  openedNodes (s.outline.filter (b.isFlagged s))

/-- Whether a node is judged and cannot be represented. -/
def rejects (o : Occurrence) : Bool :=
  !o.isNullability && !b.supportsNode o.node

/-! ## What is judged -/

theorem unsupportedInUnion_eq (ps : List Schema) :
    b.unsupportedInUnion ps =
      ps.flatMap fun p =>
        if p.kind = .null then [] else b.unsupportedNodes p := by
  induction ps with
  | nil => simp [unsupportedInUnion]
  | cons p ps ih => rw [unsupportedInUnion, ih, List.flatMap_cons]

theorem unsupportedInFields_eq (fields : List (Bytes × Schema)) :
    b.unsupportedInFields fields =
      (fields.map Prod.snd).flatMap b.unsupportedNodes := by
  induction fields with
  | nil => simp [unsupportedInFields]
  | cons f rest ih =>
      rw [unsupportedInFields, ih, List.map_cons, List.flatMap_cons]

theorem unsupportedNodes_eq_children (s : Schema) :
    b.unsupportedNodes s = b.judged s ++ s.children.flatMap fun c =>
      if (s.kind == .union) = true ∧ c.kind = .null then []
      else b.unsupportedNodes c := by
  cases s with
  | union ps =>
      have hunion : ((Schema.union ps).kind == .union) = true := rfl
      simp [unsupportedNodes, unsupportedInUnion_eq, Schema.children, hunion]
  | record fields =>
      simp [unsupportedNodes, unsupportedInFields_eq, Schema.children,
        Schema.kind]
  | _ => simp [unsupportedNodes, Schema.children, Schema.kind]

/-- The nodes judged and rejected of a schema that may be a possibility. -/
theorem rejected_occurrencesAt (possibility : Bool) (s : Schema) :
    ((s.occurrencesAt possibility).filter b.rejects).map Occurrence.node =
      if possibility = true ∧ s.kind = .null then []
      else b.unsupportedNodes s := by
  induction s using Schema.childrenInduction generalizing possibility with
  | step s ih =>
      have hinside : ((s.children.flatMap
          (Schema.occurrencesAt (s.kind == .union))).filter b.rejects).map
            Occurrence.node =
          s.children.flatMap fun c =>
            if (s.kind == .union) = true ∧ c.kind = .null then []
            else b.unsupportedNodes c := by
        rw [List.filter_flatMap, List.map_flatMap]
        exact List.flatMap_congr fun c hc => ih c hc _
      rw [Schema.occurrencesAt_eq, List.filter_cons]
      by_cases hnull : possibility = true ∧ s.kind = .null
      · have hjudged : b.rejects ⟨s, possibility⟩ = false := by
          simp [rejects, Occurrence.isNullability, hnull]
        have hempty : s.children = [] := by
          cases s <;> first | rfl | cases hnull.2
        rw [if_pos hnull, hjudged, hempty]
        rfl
      · have hjudged : b.rejects ⟨s, possibility⟩ = !b.supportsNode s := by
          have hplain : Occurrence.isNullability ⟨s, possibility⟩ = false := by
            simpa [Occurrence.isNullability] using hnull
          rw [rejects, hplain, Bool.not_false, Bool.true_and]
        rw [if_neg hnull, unsupportedNodes_eq_children, judged, hjudged]
        cases b.supportsNode s <;> simp [hinside]

theorem unsupportedNodes_eq (s : Schema) :
    b.unsupportedNodes s =
      (s.occurrences.filter b.rejects).map Occurrence.node := by
  rw [Schema.occurrences, rejected_occurrencesAt]
  simp

theorem supportsNode_of_mem_unsupportedNodes
    {s node : Schema} (h : node ∈ b.unsupportedNodes s) :
    b.supportsNode node = false := by
  rw [unsupportedNodes_eq] at h
  obtain ⟨o, ho, rfl⟩ := List.mem_map.mp h
  have hrejects := (List.mem_filter.mp ho).2
  simp only [rejects, Bool.and_eq_true, Bool.not_eq_true'] at hrejects
  exact hrejects.2

/-! ## What is flagged -/

theorem any_same_iff {nodes : List Schema} {node : Schema} :
    nodes.any node.same = true ↔ node ∈ nodes := by
  simp [List.any_eq_true, Schema.same_iff]

theorem render_flagStyle (nodes : List Schema) (l : Line) :
    l.render (flagStyle nodes) =
      (if nodes.any l.node.same then flag else "    ") ++
        (Bytes.repeated l.depth "  " ++ l.text) :=
  List.append_assoc _ _ _

theorem isFlagged_eq (s : Schema) (l : Line) :
    b.isFlagged s l = (b.unsupportedNodes s).any l.node.same := by
  rw [isFlagged, render_flagStyle]
  cases (b.unsupportedNodes s).any l.node.same with
  | true => exact List.isPrefixOf_iff_prefix.mpr (List.prefix_append _ _)
  | false => rfl

/-- A node is flagged if it is judged and rejected, and if it makes a union
nullable while a null elsewhere is rejected. -/
theorem any_same_occurrence
    {s : Schema} {o : Occurrence} (ho : o ∈ s.occurrences) :
    (b.unsupportedNodes s).any o.node.same =
      (b.rejects o ||
        o.isNullability && (b.unsupportedNodes s).any Schema.null.same) := by
  cases hnull : o.isNullability with
  | true =>
      obtain ⟨_, hnode⟩ := Occurrence.isNullability_iff.mp hnull
      simp [rejects, hnull, hnode]
  | false =>
      have hrejects : b.rejects o = !b.supportsNode o.node := by
        simp [rejects, hnull]
      rw [hrejects, Bool.false_and, Bool.or_false, Bool.eq_iff_iff,
        any_same_iff, Bool.not_eq_true']
      constructor
      · exact b.supportsNode_of_mem_unsupportedNodes
      · intro hunsupported
        rw [unsupportedNodes_eq]
        refine List.mem_map_of_mem (List.mem_filter.mpr ⟨ho, ?_⟩)
        rw [hrejects, hunsupported, Bool.not_false]

/-- The flags of the opening lines, node by node. -/
theorem flags_outline (s : Schema) :
    ((s.outline.filter Line.opens).map fun l => (l.node, b.isFlagged s l)) =
      s.occurrences.map fun o => (o.node, b.rejects o ||
        o.isNullability && (b.unsupportedNodes s).any Schema.null.same) := by
  let mark : Schema → Schema × Bool :=
    fun node => (node, (b.unsupportedNodes s).any node.same)
  calc (s.outline.filter Line.opens).map (fun l => (l.node, b.isFlagged s l))
      = (openedNodes s.outline).map mark := by
        simp [openedNodes, mark, isFlagged_eq]
    _ = s.occurrences.map (fun o => mark o.node) := by
        rw [Schema.openedNodes_outline, List.map_map]
        rfl
    _ = _ := by
        refine List.map_congr_left ?_
        intro o ho
        rw [← b.any_same_occurrence ho]

theorem flaggedNodes_eq (s : Schema) :
    b.flaggedNodes s = (s.occurrences.filter fun o => b.rejects o ||
      o.isNullability && (b.unsupportedNodes s).any Schema.null.same).map
        Occurrence.node := by
  have hpairs : b.flaggedNodes s =
      (((s.outline.filter Line.opens).map fun l =>
        (l.node, b.isFlagged s l)).filter Prod.snd).map Prod.fst := by
    simp [flaggedNodes, openedNodes, List.filter_map, List.filter_filter,
      Function.comp_def, Bool.and_comm]
  rw [hpairs, flags_outline]
  simp [List.filter_map, Function.comp_def]

/-- The flagged nodes are the unsupported ones unless a null is among these
while another null makes a union nullable. -/
theorem flaggedNodes_eq_iff (s : Schema) :
    b.flaggedNodes s = b.unsupportedNodes s ↔
      (.null ∈ b.unsupportedNodes s →
        ∀ o ∈ s.occurrences, o.isNullability = false) := by
  rw [flaggedNodes_eq, ← any_same_iff]
  cases hnull : (b.unsupportedNodes s).any Schema.null.same with
  | false => simp [← unsupportedNodes_eq]
  | true =>
      simp only [Bool.and_true, forall_const]
      rw [unsupportedNodes_eq]
      constructor
      · intro hsame o ho
        -- The longer list is no longer, so it has no node that is not judged.
        have hlength := congrArg List.length hsame
        rw [List.length_map, List.length_map] at hlength
        have hsublist : (s.occurrences.filter b.rejects).Sublist
            (s.occurrences.filter fun o => b.rejects o || o.isNullability) :=
          List.monotone_filter_right _ fun o ho => by simp [ho]
        have hfilter := hsublist.eq_of_length hlength.symm
        by_contra hnullability
        rw [Bool.not_eq_false] at hnullability
        have hmem : o ∈ s.occurrences.filter b.rejects := by
          rw [hfilter]
          exact List.mem_filter.mpr ⟨ho, by simp [hnullability]⟩
        have hrejects := (List.mem_filter.mp hmem).2
        simp [rejects, hnullability] at hrejects
      · intro hplain
        refine congrArg (List.map Occurrence.node) (List.filter_congr ?_)
        intro o ho
        rw [hplain o ho, Bool.or_false]

/-- The outline of what a backend cannot represent is made of the lines of the
schema.  The unsupported nodes are those that the backend judges and rejects.
The lines that open them are flagged and, only if one of them is a null, those
of the nulls that make unions nullable are too; no other opening line is.  So
the flagged nodes are the unsupported nodes, one by one and in order, exactly if
there is no null of both sorts. -/
theorem flaggedNodes_exact (s : Schema) :
    b.unsupportedOutline s = Bytes.join "\n" (s.outline.map fun l =>
      l.render (flagStyle (b.unsupportedNodes s))) ∧
    b.unsupportedNodes s =
      (s.occurrences.filter b.rejects).map Occurrence.node ∧
    ((s.outline.filter Line.opens).map fun l => (l.node, b.isFlagged s l)) =
      (s.occurrences.map fun o => (o.node, b.rejects o ||
        o.isNullability && (b.unsupportedNodes s).any Schema.null.same)) ∧
    (b.flaggedNodes s = b.unsupportedNodes s ↔
      (.null ∈ b.unsupportedNodes s →
        ∀ o ∈ s.occurrences, o.isNullability = false)) :=
  ⟨rfl, b.unsupportedNodes_eq s, b.flags_outline s, b.flaggedNodes_eq_iff s⟩

set_option maxRecDepth 4000 in
/-- In columns a field that is null makes the outline flag the null of another
field that is nullable. -/
theorem flags_nullability :
    let s := Schema.record [([0x61], .null), ([0x62], .union [.null, .boolean])]
    s.Built ∧ Columnar.backend.unsupportedNodes s = [s, .null] ∧
      Columnar.backend.flaggedNodes s = [s, .null, .null] ∧
      Columnar.backend.flaggedNodes s ≠
        Columnar.backend.unsupportedNodes s := by
  intro s
  have hs : s.Built := by
    have hchoice : (Schema.union [.null, .boolean]).Built :=
      .union_of_kept (by simp [Schema.Built.null, Schema.Built.boolean]) rfl
    have hrecord : Build.record [([0x61], some .null),
        ([0x62], some (.union [.null, .boolean]))] = .ok s := rfl
    exact .record (by simp [Schema.Built.null, hchoice]) hrecord
  obtain ⟨hrecord, hnull, hunion, hboolean⟩ :
      Columnar.backend.supportsNode s = false ∧
        Columnar.backend.supportsNode .null = false ∧
        Columnar.backend.supportsNode (.union [.null, .boolean]) = true ∧
        Columnar.backend.supportsNode .boolean = true := by
    decide +kernel
  have hnodes : Columnar.backend.unsupportedNodes s = [s, .null] := by
    simp [s, unsupportedNodes, unsupportedInFields, unsupportedInUnion, judged,
      Schema.kind, hrecord, hnull, hunion, hboolean]
  have hflagged : Columnar.backend.flaggedNodes s = [s, .null, .null] := by
    have hoccurrences : s.occurrences = [⟨s, false⟩, ⟨.null, false⟩,
        ⟨.union [.null, .boolean], false⟩, ⟨.null, true⟩, ⟨.boolean, true⟩] :=
      rfl
    have hmember : [s, Schema.null].any Schema.null.same = true := rfl
    rw [flaggedNodes_eq, hnodes, hmember, hoccurrences]
    simp [rejects, Occurrence.isNullability, Schema.kind, hrecord, hnull,
      hunion, hboolean]
  refine ⟨hs, hnodes, hflagged, ?_⟩
  rw [hflagged, hnodes]
  simp

end Schemata.Backend
