import Schemata.Proofs.Outline.SideBySide
import Schemata.Proofs.Text.Width

/-!
# Columns without a line

In a row that only one side has a line for, the other side's column is left
blank while that side waits.  Once it has ended, its column shows the
indentation of the line beside it.  All levels but that of the first line have
an indentation, so the column is blank only if the indentation itself is.
-/

namespace Schemata

def Row.cells (row : Row) : List Cell := [row.left, row.right]

/-- A side ends at a level that is indented. -/
theorem depth_pos_of_ended
    (a b : Schema) {row : Row} (hrow : row ∈ pairLines a.outline b.outline)
    {depth : Nat} (hended : .ended depth ∈ row.cells) : 0 < depth := by
  -- The first lines share a row, and after it no line is at level 0 again.
  obtain ⟨first, as, ha, hfirst, has⟩ := a.exists_outline_eq
  obtain ⟨second, bs, hb, hsecond, hbs⟩ := b.exists_outline_eq
  rw [ha, hb, pairLines, if_pos (hfirst.trans hsecond.symm)] at hrow
  rcases List.mem_cons.mp hrow with rfl | hrow
  · simp [Row.cells] at hended
  · obtain ⟨before, after, hrows⟩ := List.append_of_mem hrow
    obtain ⟨as', bs', hstep⟩ := exists_rowStep as bs ⟨before, hrows.symm⟩
    simp only [Row.cells, List.mem_cons, List.not_mem_nil, or_false] at hended
    rcases hended with hleft | hright
    · obtain ⟨l, hl, rfl⟩ := hstep.left_ended hleft.symm
      apply hbs l
      rw [← rightLines_pairLines as bs]
      exact List.mem_filterMap.mpr ⟨row, hrow, hl⟩
    · obtain ⟨l, hl, rfl⟩ := hstep.swap.left_ended hright.symm
      apply has l
      rw [← leftLines_pairLines as bs]
      exact List.mem_filterMap.mpr ⟨row, hrow, hl⟩

namespace SideBySide

/-- Spaces give a blank column, and a column that is wide enough shows the text
that it holds. -/
structure Ruler.Lawful (ruler : Ruler) : Prop where
  column_spaces : ∀ n width,
    ruler.column (Bytes.spaces n) width = Bytes.spaces width
  exists_shown : ∀ text, ∃ width, 0 < width ∧ text <+: ruler.column text width

theorem Ruler.cells_lawful : Ruler.cells.Lawful where
  column_spaces := Text.column_spaces
  exists_shown := by
    intro text
    refine ⟨Text.displayWidth text + 1, Nat.succ_pos _, ?_⟩
    have hfits : Text.displayWidth text ≤ Text.displayWidth text + 1 :=
      Nat.le_succ _
    change text <+: Text.column text _
    rw [Text.column_of_fits hfits]
    exact List.prefix_append _ _

/-- In all rows the sides without a line are blank. -/
def BlankWhereMissing
    (ruler : Ruler) (a b : Schema) (layout : Layout) : Prop :=
  let width := columnWidth ruler layout a.outline b.outline
  ∀ row ∈ pairLines a.outline b.outline, ∀ cell ∈ row.cells,
    cell.line? = none →
      cellText ruler layout.indent width cell = Bytes.spaces width

section Ended

variable {ruler : Ruler} (hruler : ruler.Lawful) {indent : Bytes}
include hruler

theorem cellText_ended_of_blank
    (hindent : ∀ c ∈ indent, c = byte ' ') (depth width : Nat) :
    cellText ruler indent width (.ended depth) = Bytes.spaces width := by
  have hspaces : Bytes.repeated depth indent =
      Bytes.spaces (depth * indent.length) := by
    rw [List.eq_replicate_of_mem hindent, Bytes.repeated,
      List.flatten_replicate_replicate, List.length_replicate]
    rfl
  rw [cellText, hspaces, hruler.column_spaces]

/-- There is a width at which an indentation must be blank for its column to
be. -/
theorem exists_blank_of_cellText_ended
    (indent : Bytes) {depth : Nat} (hdepth : 0 < depth) :
    ∃ width, 0 < width ∧
      (cellText ruler indent width (.ended depth) = Bytes.spaces width →
        ∀ c ∈ indent, c = byte ' ') := by
  obtain ⟨width, hwidth, hshown⟩ :=
    hruler.exists_shown (Bytes.repeated depth indent)
  refine ⟨width, hwidth, ?_⟩
  intro hblank c hc
  have hmem : c ∈ Bytes.repeated depth indent := by
    rw [Bytes.repeated, List.mem_flatten]
    exact ⟨indent, List.mem_replicate.mpr ⟨hdepth.ne', rfl⟩, hc⟩
  have hcolumn : c ∈ cellText ruler indent width (.ended depth) :=
    hshown.subset hmem
  rw [hblank] at hcolumn
  exact List.eq_of_mem_replicate hcolumn

end Ended

theorem cellText_of_not_ended
    (ruler : Ruler) (indent : Bytes) (width : Nat) {cell : Cell}
    (hline : cell.line? = none) (hended : ∀ depth, cell ≠ .ended depth) :
    cellText ruler indent width cell = Bytes.spaces width := by
  cases cell with
  | line l => cases hline
  | waiting => rfl
  | ended depth => exact absurd rfl (hended depth)

/-- When the sides of two schemas are blank where they have no line.  A side
that only waits is blank at every width and for every indentation.  A side that
has ended is blank at every width exactly if the indentation consists of spaces.
So all sides without a line are blank, whatever the width, exactly if the
indentation does or no side ends before the other. -/
structure BlankExactly (ruler : Ruler) (a b : Schema) (indent : Bytes)
    (between : Option Schema → Option Schema → Bytes) : Prop where
  waiting : ∀ width, ∀ row ∈ pairLines a.outline b.outline,
    ∀ cell ∈ row.cells, cell.line? = none → (∀ depth, cell ≠ .ended depth) →
      cellText ruler indent width cell = Bytes.spaces width
  missing_iff :
    (∀ width, BlankWhereMissing ruler a b ⟨indent, between, width⟩) ↔
      (∀ c ∈ indent, c = byte ' ') ∨
        ∀ row ∈ pairLines a.outline b.outline, ∀ depth,
          .ended depth ∉ row.cells

theorem Ruler.Lawful.blankExactly
    {ruler : Ruler} (hruler : ruler.Lawful) (a b : Schema) (indent : Bytes)
    (between : Option Schema → Option Schema → Bytes) :
    BlankExactly ruler a b indent between := by
  constructor
  case waiting =>
    intro width row _ cell _ hline hended
    exact cellText_of_not_ended ruler indent width hline hended
  case missing_iff =>
    constructor
    · intro hblank
      by_cases hended : ∀ row ∈ pairLines a.outline b.outline, ∀ depth,
          .ended depth ∉ row.cells
      · exact .inr hended
      · left
        push Not at hended
        obtain ⟨row, hrow, depth, hcell⟩ := hended
        obtain ⟨width, hpositive, hspaces⟩ :=
          exists_blank_of_cellText_ended hruler indent
            (depth_pos_of_ended a b hrow hcell)
        have hwidth : columnWidth ruler ⟨indent, between, width⟩ a.outline
            b.outline = width := by
          unfold columnWidth
          rw [if_neg (by simpa using hpositive.ne')]
          exact Int.toNat_natCast width
        have hcolumn := hblank width row hrow (.ended depth) hcell rfl
        rw [hwidth] at hcolumn
        exact hspaces hcolumn
    · intro h width row hrow cell hcell hline
      by_cases hended : ∀ depth, cell ≠ .ended depth
      · exact cellText_of_not_ended ruler indent _ hline hended
      · push Not at hended
        obtain ⟨depth, rfl⟩ := hended
        rcases h with hindent | hnever
        · exact cellText_ended_of_blank hruler hindent depth _
        · exact absurd hcell (hnever row hrow depth)

/-- In the cells of a terminal the sides are blank exactly as said, and so they
are by every other ruler that shows spaces as spaces and a text that fits. -/
theorem blankWhereMissing_iff
    (a b : Schema) (indent : Bytes)
    (between : Option Schema → Option Schema → Bytes) :
    BlankExactly .cells a b indent between ∧
      ∀ ruler : Ruler, ruler.Lawful →
        BlankExactly ruler a b indent between := by
  constructor
  · exact Ruler.cells_lawful.blankExactly a b indent between
  · intro ruler hruler
    exact hruler.blankExactly a b indent between

/-- With dashes for an indentation a side that has ended is not blank. -/
theorem dashes_where_ended :
    ¬ BlankWhereMissing .cells .null (.collection .null true none)
      { indent := "--", between := differs, width := 12 } := by
  intro h
  have hrow : ⟨.ended 1, .line ⟨1, "Null(),", .null⟩⟩ ∈
      pairLines Schema.null.outline
        (Schema.collection .null true none).outline := by
    have hnull : Schema.null.outline = [⟨0, "Null()", .null⟩] := rfl
    have hlist : (Schema.collection .null true none).outline =
        [⟨0, "Collection(", .collection .null true none⟩,
          ⟨1, "Null(),", .null⟩,
          ⟨1, "ordered=true)", .collection .null true none⟩] := rfl
    rw [hnull, hlist]
    simp [pairLines]
  have hcolumn : cellText .cells "--" 12 (.ended 1) = Bytes.spaces 12 :=
    h _ hrow (.ended 1) List.mem_cons_self rfl
  revert hcolumn
  decide

end SideBySide

end Schemata
