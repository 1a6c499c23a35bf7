import Schemata.Proofs.Outline
import Mathlib.Data.List.Chain

/-!
# The levels of an outline

From one line of an outline to the next the level changes by one at most.  The
lines that open a node and close it pair up like brackets, and everything
between the two is deeper than the first of them.
-/

namespace Schemata

/-- Lines whose levels differ by one at most. -/
def Line.Near (l m : Line) : Prop :=
  l.depth ≤ m.depth + 1 ∧ m.depth ≤ l.depth + 1

/-- What holds of no lines, and of lines put together if it holds of both parts,
holds of the lines of items in a row if it holds of those of each item. -/
theorem forall_flatMap_of_append
    {α : Type} {P : List Line → Prop} (hnil : P [])
    (happend : ∀ first second, P first → P second → P (first ++ second))
    {items : List α} {lines : α → List Line}
    (h : ∀ x ∈ items, P (lines x)) : P (items.flatMap lines) := by
  induction items with
  | nil => exact hnil
  | cons x rest ih =>
      rw [List.flatMap_cons]
      apply happend _ _ (h x List.mem_cons_self)
      apply ih
      intro y hy
      exact h y (List.mem_cons_of_mem x hy)

/-! ## Steps between lines -/

/-- Lines of whole schemas in a row, all of them at one level. -/
structure Level (depth : Nat) (lines : List Line) : Prop where
  first : ∀ l ∈ lines.head?, l.depth = depth
  last : ∀ l ∈ lines.getLast?, l.depth ≤ depth + 1
  steps : lines.IsChain Line.Near
  deep : ∀ l ∈ lines, depth ≤ l.depth

namespace Level

variable {depth : Nat}

theorem nil : Level depth [] where
  first := by simp
  last := by simp
  steps := List.isChain_nil
  deep := by simp

theorem singleton {l : Line} (hl : l.depth = depth) : Level depth [l] where
  first := by simpa using hl
  last := by simp [hl]
  steps := List.isChain_singleton l
  deep := by simp [hl]

theorem append
    (first second : List Line) (hfirst : Level depth first)
    (hsecond : Level depth second) : Level depth (first ++ second) where
  first := by
    intro l hl
    rw [List.head?_append, Option.mem_def, Option.or_eq_some_iff] at hl
    rcases hl with hl | ⟨_, hl⟩
    · exact hfirst.first l hl
    · exact hsecond.first l hl
  last := by
    intro l hl
    rw [List.getLast?_append, Option.mem_def, Option.or_eq_some_iff] at hl
    rcases hl with hl | ⟨_, hl⟩
    · exact hsecond.last l hl
    · exact hfirst.last l hl
  steps := by
    apply hfirst.steps.append hsecond.steps
    intro l hl m hm
    have hlow : depth ≤ l.depth := hfirst.deep l (List.mem_of_getLast? hl)
    have hhigh : l.depth ≤ depth + 1 := hfirst.last l hl
    have hnext : m.depth = depth := hsecond.first m hm
    unfold Line.Near
    omega
  deep := by
    intro l hl
    rcases List.mem_append.mp hl with hl | hl
    · exact hfirst.deep l hl
    · exact hsecond.deep l hl

/-- Deeper lines between one that opens a node and one that closes it. -/
theorem enclosed
    {opening closing : Line} {inside : List Line}
    (hinside : Level (depth + 1) inside) (hopening : opening.depth = depth)
    (hclosing : closing.depth = depth + 1) :
    Level depth (opening :: (inside ++ [closing])) := by
  have hrest : Level (depth + 1) (inside ++ [closing]) :=
    append _ _ hinside (singleton hclosing)
  have hlast : (opening :: (inside ++ [closing])).getLast? = some closing := by
    simp [List.getLast?_cons]
  refine ⟨by simpa using hopening, by simp [hlast, hclosing], ?_, ?_⟩
  · rw [List.isChain_cons]
    refine ⟨?_, hrest.steps⟩
    intro m hm
    have hnext : m.depth = depth + 1 := hrest.first m hm
    unfold Line.Near
    omega
  · intro l hl
    rcases List.mem_cons.mp hl with rfl | hl
    · exact hopening.ge
    · have hle := hrest.deep l hl
      omega

end Level

namespace Schema

theorem level_linesAt (s : Schema) (depth : Nat) (lead trail : Bytes) :
    Level depth (s.linesAt depth lead trail) := by
  induction s using childrenInduction generalizing depth lead trail with
  | step s ih =>
      cases hs : s.kind.isAtomic with
      | true =>
          rw [linesAt_atomic hs]
          exact .singleton rfl
      | false =>
          rw [linesAt_composite hs]
          have hinside : Level (depth + 1)
              (s.members.flatMap (Member.lines (depth + 1))) := by
            apply forall_flatMap_of_append Level.nil Level.append
            intro m hm
            exact ih m.schema (schema_mem_children hm) _ m.lead m.trail
          exact hinside.enclosed rfl rfl

/-- An outline starts at level 0 and comes back to it nowhere. -/
theorem exists_outline_eq (s : Schema) :
    ∃ first rest, s.outline = first :: rest ∧ first.depth = 0 ∧
      ∀ l ∈ rest, 0 < l.depth := by
  unfold outline
  cases hs : s.kind.isAtomic with
  | true =>
      rw [linesAt_atomic hs]
      exact ⟨_, [], rfl, rfl, by simp⟩
  | false =>
      rw [linesAt_composite hs]
      refine ⟨_, _, rfl, rfl, ?_⟩
      intro l hl
      rw [List.mem_append, List.mem_singleton, List.mem_flatMap] at hl
      rcases hl with ⟨m, _, hl⟩ | rfl
      · exact (level_linesAt m.schema 1 m.lead m.trail).deep l hl
      · exact Nat.one_pos

end Schema

/-! ## Lines that open and close -/

/-- Whether a line opens a node on several lines. -/
def Line.encloses (l : Line) : Bool := !l.node.kind.isAtomic && l.opens

def Line.closes (l : Line) : Bool := !l.opens

/-- Every node on several lines has a line that opens it, in the order of the
nodes. -/
theorem Schema.enclosingNodes_outline (s : Schema) :
    (s.outline.filter Line.encloses).map Line.node =
      (s.occurrences.map Occurrence.node).filter (!·.kind.isAtomic) := by
  rw [← s.openedNodes_outline, openedNodes, List.filter_map,
    List.filter_filter]
  rfl

/-- The lines up to the one that closes a node opened before them, and that
line.  Of the nodes opened since, `pending` are still to be closed. -/
def upToClosing : Nat → List Line → Option (List Line × Line)
  | _, [] => none
  | pending, l :: rest =>
    if l.closes then
      if pending = 0 then some ([], l)
      else (upToClosing (pending - 1) rest).map (Prod.map (l :: ·) id)
    else if l.encloses then
      (upToClosing (pending + 1) rest).map (Prod.map (l :: ·) id)
    else (upToClosing pending rest).map (Prod.map (l :: ·) id)

/-- What is found is where the lines start. -/
theorem exists_eq_of_upToClosing
    {pending : Nat} {lines inside : List Line} {closing : Line}
    (h : upToClosing pending lines = some (inside, closing)) :
    ∃ rest, lines = inside ++ closing :: rest := by
  fun_induction upToClosing pending lines generalizing inside closing with
  | case1 pending => cases h
  | case2 l lines hcloses =>
      obtain ⟨rfl, rfl⟩ := Prod.mk.inj (Option.some.inj h)
      exact ⟨lines, rfl⟩
  | _ =>
      rename_i ih
      obtain ⟨found, hfound, hpair⟩ := Option.map_eq_some_iff.mp h
      obtain ⟨rfl, rfl⟩ := Prod.mk.inj hpair
      obtain ⟨rest, rfl⟩ := ih hfound
      exact ⟨rest, rfl⟩

theorem upToClosing_append_of_some
    {pending : Nat} {lines : List Line} {found : List Line × Line}
    (h : upToClosing pending lines = some found) (rest : List Line) :
    upToClosing pending (lines ++ rest) = some found := by
  fun_induction upToClosing pending lines generalizing found with
  | case1 pending => cases h
  | case2 l lines hcloses => simpa [upToClosing, hcloses] using h
  | case3 pending l lines hcloses hpending ih =>
      obtain ⟨inner, hinner, rfl⟩ := Option.map_eq_some_iff.mp h
      simp [upToClosing, hcloses, hpending, ih hinner]
  | case4 pending l lines hcloses hencloses ih =>
      obtain ⟨inner, hinner, rfl⟩ := Option.map_eq_some_iff.mp h
      simp [upToClosing, hcloses, hencloses, ih hinner]
  | case5 pending l lines hcloses hencloses ih =>
      obtain ⟨inner, hinner, rfl⟩ := Option.map_eq_some_iff.mp h
      simp [upToClosing, hcloses, hencloses, ih hinner]

/-- The line that closes the node of a line, after what is inside the node. -/
structure ClosedBy (opening : Line) (after inside : List Line) (closing : Line) :
    Prop where
  found : upToClosing 0 after = some (inside, closing)
  node : closing.node = opening.node
  depth : closing.depth = opening.depth + 1
  deep : ∀ l ∈ inside, opening.depth < l.depth

/-- Every line that opens a node on several lines is followed by one that closes
it. -/
def Closed (lines : List Line) : Prop :=
  ∀ opening after, opening :: after <:+ lines → opening.encloses = true →
    ∃ inside closing, ClosedBy opening after inside closing

theorem closed_singleton {l : Line} (hl : l.encloses = false) : Closed [l] := by
  intro opening after hsuffix hopening
  have hmem : opening = l := by
    simpa using hsuffix.subset List.mem_cons_self
  rw [hmem, hl] at hopening
  cases hopening

theorem Closed.append
    {first second : List Line} (hfirst : Closed first)
    (hsecond : Closed second) : Closed (first ++ second) := by
  rintro opening after ⟨before, hlines⟩ hopening
  -- A line of the first part is closed within it, whatever comes later.
  rcases List.append_eq_append_iff.mp hlines with
    ⟨middle, hbefore, hmiddle⟩ | ⟨middle, _, hmiddle⟩
  · cases middle with
    | nil => exact hsecond opening after ⟨[], hmiddle⟩ hopening
    | cons l middle =>
        obtain ⟨rfl, rfl⟩ := List.cons.inj hmiddle
        obtain ⟨inside, closing, h⟩ :=
          hfirst opening middle ⟨before, hbefore.symm⟩ hopening
        exact ⟨inside, closing, upToClosing_append_of_some h.found second,
          h.node, h.depth, h.deep⟩
  · exact hsecond opening after ⟨middle, hmiddle.symm⟩ hopening

/-- Lines that open and close nodes like brackets. -/
structure Bracketed (lines : List Line) : Prop where
  closed : Closed lines
  /-- A search for the end of a node opened before passes over them. -/
  passed : ∀ pending rest, upToClosing pending (lines ++ rest) =
    (upToClosing pending rest).map (Prod.map (lines ++ ·) id)

namespace Bracketed

theorem nil : Bracketed [] where
  closed := by simp [Closed]
  passed := by
    intro pending rest
    exact Option.map_id'.symm

theorem append
    (first second : List Line) (hfirst : Bracketed first)
    (hsecond : Bracketed second) : Bracketed (first ++ second) where
  closed := hfirst.closed.append hsecond.closed
  passed := by
    intro pending rest
    rw [List.append_assoc, hfirst.passed, hsecond.passed, Option.map_map,
      Prod.map_comp_map]
    simp [Function.comp_def]

theorem atomic {l : Line} (hl : l.node.kind.isAtomic = true) :
    Bracketed [l] where
  closed := closed_singleton (by simp [Line.encloses, hl])
  passed := by
    intro pending rest
    simp [upToClosing, Line.closes, Line.encloses, Line.opens, hl]

/-- Bracketed lines between one that opens a node and one that closes it. -/
theorem enclosed
    {opening closing : Line} {inside : List Line}
    (hinside : Bracketed inside) (hopening : opening.encloses = true)
    (hclosing : closing.closes = true) (hnode : closing.node = opening.node)
    (hdepth : closing.depth = opening.depth + 1)
    (hdeep : ∀ l ∈ inside, opening.depth < l.depth) :
    Bracketed (opening :: (inside ++ [closing])) := by
  have hopens : opening.closes = false := by
    simp only [Line.encloses, Bool.and_eq_true] at hopening
    simp [Line.closes, hopening.2]
  have hplain : closing.encloses = false := by
    simp only [Line.closes, Bool.not_eq_true'] at hclosing
    simp [Line.encloses, hclosing]
  constructor
  · intro first after hsuffix hfirst
    rcases List.suffix_cons_iff.mp hsuffix with hwhole | hsuffix
    · obtain ⟨rfl, rfl⟩ := List.cons.inj hwhole
      refine ⟨inside, closing, ?_, hnode, hdepth, hdeep⟩
      rw [hinside.passed]
      simp [upToClosing, hclosing]
    · have hrest := hinside.closed.append (closed_singleton hplain)
      exact hrest first after hsuffix hfirst
  · -- The opening line adds one pending node, the closing line takes it away.
    intro pending rest
    simp only [List.cons_append, List.append_assoc, List.nil_append,
      upToClosing, hopens, hopening, hinside.passed, hclosing,
      Bool.false_eq_true, if_false, if_true, Nat.succ_ne_zero,
      Nat.add_sub_cancel, Option.map_map, Prod.map_comp_map]
    simp [Function.comp_def]

end Bracketed

namespace Schema

theorem bracketed_linesAt
    (s : Schema) (depth : Nat) (lead : Bytes) {trail : Bytes}
    (htrail : Trails trail) : Bracketed (s.linesAt depth lead trail) := by
  induction s using childrenInduction generalizing depth lead trail with
  | step s ih =>
      cases hs : s.kind.isAtomic with
      | true =>
          rw [linesAt_atomic hs]
          exact .atomic hs
      | false =>
          have hinside : Bracketed
              (s.members.flatMap (Member.lines (depth + 1))) := by
            apply forall_flatMap_of_append Bracketed.nil Bracketed.append
            intro m hm
            exact ih m.schema (schema_mem_children hm) _ m.lead
              (trails_members hm)
          have hdeep : ∀ l ∈ s.members.flatMap (Member.lines (depth + 1)),
              depth < l.depth := by
            intro l hl
            obtain ⟨m, _, hl⟩ := List.mem_flatMap.mp hl
            exact (level_linesAt m.schema _ m.lead m.trail).deep l hl
          rw [linesAt_composite hs]
          apply hinside.enclosed
          · have hlast : (lead ++ (s.kind.name ++ "(")).getLast? =
                some (byte '(') := by
              rw [List.getLast?_append, s.getLast?_opening, Option.some_or]
            rw [Line.encloses, Line.opens_of_getLast? hlast, hs]
            rfl
          · have hlast := getLast?_closing htrail s.attributes
            rw [Line.closes, Line.not_opens_of_getLast? hs hlast, Bool.not_false]
          · rfl
          · rfl
          · exact hdeep

end Schema

end Schemata
