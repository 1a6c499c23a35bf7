import Schemata.Outline.SideBySide
import Schemata.Proofs.Outline.Levels
import Schemata.Proofs.Schema.Order

/-!
# Outlines side by side

A row takes a line from one side or from both.  What a row can be depends only
on the next lines of both sides, and is said once.  That no line is lost, which
lines share a row and which stand alone follows for all rows by induction on
them.
-/

namespace Schemata

def Cell.line? : Cell → Option Line
  | .line l => some l
  | _ => none

def leftLines (rows : List Row) : List Line := rows.filterMap (·.left.line?)

def rightLines (rows : List Row) : List Line := rows.filterMap (·.right.line?)

/-! ## One row -/

/-- A row where `as` and `bs` are to be shown, and what remains after it. -/
inductive RowStep : List Line → List Line → Row → List Line → List Line → Prop
  | shared {a b : Line} {as bs : List Line} : a.depth = b.depth →
      RowStep (a :: as) (b :: bs) ⟨.line a, .line b⟩ as bs
  | leftDeeper {a b : Line} {as bs : List Line} : b.depth < a.depth →
      RowStep (a :: as) (b :: bs) ⟨.line a, .waiting⟩ as (b :: bs)
  | rightDeeper {a b : Line} {as bs : List Line} : a.depth < b.depth →
      RowStep (a :: as) (b :: bs) ⟨.waiting, .line b⟩ (a :: as) bs
  | leftEnded {b : Line} {bs : List Line} :
      RowStep [] (b :: bs) ⟨.ended b.depth, .line b⟩ [] bs
  | rightEnded {a : Line} {as : List Line} :
      RowStep (a :: as) [] ⟨.line a, .ended a.depth⟩ as []

namespace RowStep

variable {as bs as' bs' : List Line} {row : Row}

/-- The sides are treated alike. -/
theorem swap (h : RowStep as bs row as' bs') :
    RowStep bs as ⟨row.right, row.left⟩ bs' as' := by
  cases h with
  | shared hdepth => exact .shared hdepth.symm
  | leftDeeper hdepth => exact .rightDeeper hdepth
  | rightDeeper hdepth => exact .leftDeeper hdepth
  | leftEnded => exact .rightEnded
  | rightEnded => exact .leftEnded

theorem left_eq (h : RowStep as bs row as' bs') :
    as = row.left.line?.toList ++ as' := by
  cases h <;> rfl

theorem right_eq (h : RowStep as bs row as' bs') :
    bs = row.right.line?.toList ++ bs' :=
  h.swap.left_eq

theorem shows (h : RowStep as bs row as' bs') :
    row.left.line? ≠ none ∨ row.right.line? ≠ none := by
  cases h <;> simp [Cell.line?]

theorem depth_eq
    (h : RowStep as bs row as' bs') {l m : Line}
    (hl : row.left.line? = some l) (hm : row.right.line? = some m) :
    l.depth = m.depth := by
  cases h with
  | shared hdepth =>
      obtain rfl := Option.some.inj hl
      obtain rfl := Option.some.inj hm
      exact hdepth
  | leftDeeper hdepth => cases hm
  | rightDeeper hdepth => cases hl
  | leftEnded => cases hl
  | rightEnded => cases hm

/-- A line alone on the left is deeper than the next one on the right. -/
theorem left_deeper
    (h : RowStep as bs row as' bs') {l : Line}
    (hl : row.left.line? = some l) (halone : row.right.line? = none) :
    ∀ m ∈ bs'.head?, m.depth < l.depth := by
  cases h with
  | leftDeeper hdepth =>
      obtain rfl := Option.some.inj hl
      simpa using hdepth
  | rightEnded => simp
  | shared hdepth => cases halone
  | rightDeeper hdepth => cases hl
  | leftEnded => cases hl

/-- Where the left side has ended, the right one is at the level shown. -/
theorem left_ended
    (h : RowStep as bs row as' bs') {depth : Nat}
    (hleft : row.left = .ended depth) :
    ∃ l, row.right.line? = some l ∧ l.depth = depth := by
  cases h with
  | leftEnded =>
      cases hleft
      exact ⟨_, rfl, rfl⟩
  | shared hdepth => cases hleft
  | leftDeeper hdepth => cases hleft
  | rightDeeper hdepth => cases hleft
  | rightEnded => cases hleft

theorem length_lt (h : RowStep as bs row as' bs') :
    as'.length + bs'.length < as.length + bs.length := by
  cases h <;> simp only [List.length_cons, List.length_nil] <;> omega

end RowStep

/-! ## All rows -/

theorem pairLines_nil_right (as : List Line) :
    pairLines as [] = as.map fun a => ⟨.line a, .ended a.depth⟩ := by
  cases as <;> simp [pairLines]

/-- As long as there are lines there is a row, and the others follow it. -/
theorem pairLines_step (as bs : List Line) :
    (as = [] ∧ bs = []) ∨ ∃ row as' bs', RowStep as bs row as' bs' ∧
      pairLines as bs = row :: pairLines as' bs' := by
  cases as with
  | nil =>
      cases bs with
      | nil => exact .inl ⟨rfl, rfl⟩
      | cons b bs => exact .inr ⟨_, [], bs, .leftEnded, by simp [pairLines]⟩
  | cons a as =>
      right
      cases bs with
      | nil =>
          refine ⟨_, as, [], .rightEnded, ?_⟩
          rw [pairLines_nil_right, pairLines_nil_right, List.map_cons]
      | cons b bs =>
          rw [pairLines]
          by_cases hsame : a.depth = b.depth
          · rw [if_pos hsame]
            exact ⟨_, as, bs, .shared hsame, rfl⟩
          · rw [if_neg hsame]
            by_cases hdeeper : b.depth < a.depth
            · rw [if_pos hdeeper]
              exact ⟨_, as, b :: bs, .leftDeeper hdeeper, rfl⟩
            · rw [if_neg hdeeper]
              exact ⟨_, a :: as, bs, .rightDeeper (by omega), rfl⟩

/-- What every row preserves holds of all rows. -/
theorem pairLines_induction
    {motive : List Line → List Line → List Row → Prop} (nil : motive [] [] [])
    (step : ∀ {as bs as' bs' row}, RowStep as bs row as' bs' →
      motive as' bs' (pairLines as' bs') →
        motive as bs (row :: pairLines as' bs'))
    (as bs : List Line) : motive as bs (pairLines as bs) := by
  induction hn : as.length + bs.length using Nat.strong_induction_on
    generalizing as bs with
  | _ n ih =>
      rcases pairLines_step as bs with
        ⟨rfl, rfl⟩ | ⟨row, as', bs', hstep, hrows⟩
      · simpa [pairLines] using nil
      · rw [hrows]
        have hlt := hstep.length_lt
        apply step hstep
        exact ih _ (by omega) as' bs' rfl

theorem leftLines_cons (row : Row) (rows : List Row) :
    leftLines (row :: rows) = row.left.line?.toList ++ leftLines rows := by
  unfold leftLines
  cases h : row.left.line? <;> simp [h]

theorem rightLines_cons (row : Row) (rows : List Row) :
    rightLines (row :: rows) = row.right.line?.toList ++ rightLines rows := by
  unfold rightLines
  cases h : row.right.line? <;> simp [h]

/-- The left sides of the rows show the lines of the left outline in order. -/
theorem leftLines_pairLines (as bs : List Line) :
    leftLines (pairLines as bs) = as := by
  induction as, bs using pairLines_induction with
  | nil => rfl
  | step hstep ih => rw [leftLines_cons, ih, ← hstep.left_eq]

theorem rightLines_pairLines (as bs : List Line) :
    rightLines (pairLines as bs) = bs := by
  induction as, bs using pairLines_induction with
  | nil => rfl
  | step hstep ih => rw [rightLines_cons, ih, ← hstep.right_eq]

theorem length_pairLines_le (as bs : List Line) :
    (pairLines as bs).length ≤ as.length + bs.length := by
  induction as, bs using pairLines_induction with
  | nil => simp
  | step hstep ih =>
      have hlt := hstep.length_lt
      rw [List.length_cons]
      omega

/-- Every row comes about when the lines from it on are still to be shown, and
leaves those of the rows after it. -/
theorem exists_rowStep
    (as bs : List Line) {row : Row} {after : List Row}
    (h : row :: after <:+ pairLines as bs) :
    ∃ as' bs', RowStep as' bs' row (leftLines after) (rightLines after) := by
  induction as, bs using pairLines_induction with
  | nil => simp at h
  | @step as bs as' bs' first hstep ih =>
      rcases List.suffix_cons_iff.mp h with hfirst | hlater
      · obtain ⟨rfl, rfl⟩ := List.cons.inj hfirst
        rw [leftLines_pairLines, rightLines_pairLines]
        exact ⟨as, bs, hstep⟩
      · exact ih hlater

theorem pairLines_self (ls : List Line) :
    pairLines ls ls = ls.map fun l => ⟨.line l, .line l⟩ := by
  induction ls with
  | nil => simp [pairLines]
  | cons l ls ih => rw [pairLines, if_pos rfl, ih, List.map_cons]

theorem differs_self (s : Schema) :
    SideBySide.differs (some s) (some s) = " " := by
  have hsame : s.same s = true := (Schema.same_iff s s).mpr rfl
  rw [SideBySide.differs, if_pos hsame]

def SideBySide.rowText
    (ruler : Ruler) (layout : Layout) (width : Nat) (row : Row) : Bytes :=
  cellText ruler layout.indent width row.left ++ " " ++
    layout.between (node? row.left) (node? row.right) ++ " " ++
      cellText ruler layout.indent width row.right

/-- Side by side no line is lost: there are no more rows than lines, and the
rows show the lines of each outline once and in order.  No row is empty, lines
that share a row are at one level, and where a line stands alone while the other
side still has lines, it is deeper than the next of them.  The same schema twice
has the same line on both sides of every row, and no row is marked. -/
theorem pairLines_complete (a b : Schema) :
    let rows := pairLines a.outline b.outline
    (∀ layout, a.sideBySide b layout = Bytes.join "\n" (rows.map
      (SideBySide.rowText .cells layout
        (SideBySide.columnWidth .cells layout a.outline b.outline)))) ∧
      rows.length ≤ a.outline.length + b.outline.length ∧
      leftLines rows = a.outline ∧ rightLines rows = b.outline ∧
      (∀ row after, row :: after <:+ rows →
        (row.left.line? ≠ none ∨ row.right.line? ≠ none) ∧
        (∀ l m, row.left.line? = some l → row.right.line? = some m →
          l.depth = m.depth) ∧
        (∀ l m, row.left.line? = some l → row.right.line? = none →
          (rightLines after).head? = some m → m.depth < l.depth) ∧
        ∀ l m, row.right.line? = some l → row.left.line? = none →
          (leftLines after).head? = some m → m.depth < l.depth) ∧
      (a.same b = true →
        a.outline.length = b.outline.length ∧
        rows = List.zipWith (fun l m => ⟨.line l, .line m⟩)
          a.outline b.outline ∧
        ∀ row ∈ rows, SideBySide.differs (SideBySide.node? row.left)
          (SideBySide.node? row.right) = " ") := by
  intro rows
  refine ⟨fun _ => rfl, length_pairLines_le _ _, leftLines_pairLines _ _,
    rightLines_pairLines _ _, ?_, ?_⟩
  · intro row after hsuffix
    obtain ⟨as, bs, hstep⟩ := exists_rowStep _ _ hsuffix
    refine ⟨hstep.shows, ?_, ?_, ?_⟩
    · intro l m hl hm
      exact hstep.depth_eq hl hm
    · intro l m hl halone hm
      exact hstep.left_deeper hl halone m hm
    · intro l m hl halone hm
      exact hstep.swap.left_deeper hl halone m hm
  · intro hsame
    obtain rfl := (Schema.same_iff a b).mp hsame
    have hrows : rows = a.outline.map fun l => ⟨.line l, .line l⟩ :=
      pairLines_self _
    refine ⟨rfl, ?_, ?_⟩
    · rw [hrows, List.zipWith_self]
    · intro row hrow
      rw [hrows] at hrow
      obtain ⟨l, _, rfl⟩ := List.mem_map.mp hrow
      exact differs_self l.node

end Schemata
