import Schemata.Diff
import Schemata.Proofs.Diff.Compare

/-!
# Differences give back both texts

A script of whole lines from one text to another marks each line by what happens
to it.  Marking keeps lines whole, whatever they hold, so the lines of the
difference are the marked ones: without the inserted lines it is the first text,
without the deleted ones the second.  This holds of every way to compare texts
that gives such scripts, and comparing line numbers is one.
-/

namespace Schemata

namespace Bytes

/-! ## Whole lines -/

/-- A line with the newline that ends it. -/
def IsLine (l : Bytes) : Prop := ∃ body, l = body ++ [0x0A] ∧ 0x0A ∉ body

theorem splitAfter_line {l : Bytes} (hl : IsLine l) (rest : Bytes) :
    splitAfter 0x0A (l ++ rest) = l :: splitAfter 0x0A rest := by
  obtain ⟨body, rfl, hbody⟩ := hl
  induction body with
  | nil => simp [splitAfter]
  | cons b body ih =>
      rw [List.mem_cons, not_or] at hbody
      have hrest := ih hbody.2
      simp only [List.cons_append]
      rw [splitAfter, if_neg (Ne.symm hbody.1), hrest]

/-- Whole lines put together are split into these lines. -/
theorem splitAfter_flatten
    {lines : List Bytes} (h : ∀ l ∈ lines, IsLine l) :
    splitAfter 0x0A lines.flatten = lines := by
  induction lines with
  | nil => rfl
  | cons l lines ih =>
      obtain ⟨hl, hlines⟩ := List.forall_mem_cons.mp h
      rw [List.flatten_cons, splitAfter_line hl, ih hlines]

theorem flatten_splitAfter (terminator : UInt8) (text : Bytes) :
    (splitAfter terminator text).flatten = text := by
  induction text with
  | nil => rfl
  | cons b rest ih =>
      rw [splitAfter]
      split
      · rw [List.flatten_cons, ih]
        rfl
      · split
        · rename_i hnone
          rw [hnone] at ih
          rw [← ih]
          rfl
        · rename_i hsome
          rw [hsome] at ih
          rw [← ih]
          rfl

theorem exists_lines (text : Bytes) :
    ∃ first rest, (∀ l ∈ first :: rest, IsLine l) ∧
      (first :: rest).flatten = text ++ "\n" := by
  induction text with
  | nil => exact ⟨[0x0A], [], by simp [IsLine], rfl⟩
  | cons b text ih =>
      obtain ⟨first, rest, hlines, htext⟩ := ih
      -- A newline is a line of its own, any other byte starts the first one.
      by_cases hb : b = 0x0A
      · refine ⟨[b], first :: rest, ?_, ?_⟩
        · rw [List.forall_mem_cons]
          exact ⟨⟨[], by simp [hb], by simp⟩, hlines⟩
        · rw [List.flatten_cons, htext]
          rfl
      · rw [List.forall_mem_cons] at hlines
        obtain ⟨⟨body, rfl, hbody⟩, hrest⟩ := hlines
        refine ⟨b :: (body ++ [0x0A]), rest, ?_, ?_⟩
        · rw [List.forall_mem_cons]
          refine ⟨⟨b :: body, rfl, ?_⟩, hrest⟩
          rw [List.mem_cons, not_or]
          exact ⟨Ne.symm hb, hbody⟩
        · rw [List.cons_append, ← htext]
          rfl

/-- A text that ends its last line is split into whole lines. -/
theorem isLine_of_mem_splitAfter (text : Bytes) :
    ∀ l ∈ splitAfter 0x0A (text ++ "\n"), IsLine l := by
  obtain ⟨first, rest, hlines, htext⟩ := exists_lines text
  rw [← htext, splitAfter_flatten hlines]
  exact hlines

end Bytes

namespace Diff

/-! ## Line numbers -/

theorem mem_numbered
    {table lines : List Bytes} {l : Bytes} (h : l ∈ table ∨ l ∈ lines) :
    l ∈ numbered table lines := by
  induction lines generalizing table with
  | nil => simpa [numbered] using h
  | cons first rest ih =>
      rw [numbered]
      apply ih
      rcases h with h | h
      · left
        split
        · exact h
        · exact List.mem_append_left _ h
      · rcases List.mem_cons.mp h with rfl | h
        · left
          split
          · rename_i hmem
            exact List.contains_iff_mem.mp hmem
          · simp
        · exact .inr h

theorem getD_lineNumber
    {table : List Bytes} {l : Bytes} (h : l ∈ table) :
    table.getD (lineNumber table l) [] = l := by
  have hlt : table.idxOf l < table.length := List.idxOf_lt_length_of_mem h
  rw [lineNumber, List.getD_eq_getElem?_getD, List.getElem?_eq_getElem hlt,
    Option.getD_some]
  exact List.getElem_idxOf hlt

theorem isLine_of_mem_lineNumbers
    {table : List Bytes} {text : Bytes} {n : Nat}
    (h : ∀ l ∈ Bytes.splitAfter 0x0A (text ++ "\n"), l ∈ table)
    (hn : n ∈ (Bytes.splitAfter 0x0A (text ++ "\n")).map
      (lineNumber table)) : Bytes.IsLine (table.getD n []) := by
  obtain ⟨l, hl, rfl⟩ := List.mem_map.mp hn
  rw [getD_lineNumber (h l hl)]
  exact Bytes.isLine_of_mem_splitAfter text l hl

/-- A text is put together again from the numbers of its lines. -/
theorem flatMap_lineNumber
    {table : List Bytes} {text : Bytes}
    (h : ∀ l ∈ Bytes.splitAfter 0x0A text, l ∈ table) :
    ((Bytes.splitAfter 0x0A text).map (lineNumber table)).flatMap
      (fun n => table.getD n []) = text := by
  rw [List.flatMap_map,
    List.flatMap_congr fun l hl => getD_lineNumber (h l hl), List.flatMap_id']
  exact Bytes.flatten_splitAfter 0x0A text

/-! ## Marked lines -/

def Action.markByte : Action → UInt8
  | .keep => byte ' '
  | .delete => byte '-'
  | .insert => byte '+'

theorem Action.mark_eq (action : Action) : action.mark = [action.markByte] := by
  cases action <;> rfl

def markedLines (e : Edit UInt8) : List Bytes :=
  (Bytes.splitAfter 0x0A e.run).map (e.action.markByte :: ·)

/-- What is left of a text of the lines with one of some marks, when the marks
are taken off. -/
def unmarked (marks : List UInt8) (text : Bytes) : Bytes :=
  ((Bytes.splitAfter 0x0A text).filter fun l =>
    l.head?.any marks.contains).flatMap List.tail

theorem flatMap_editText (script : List (Edit UInt8)) :
    script.flatMap editText = (script.flatMap markedLines).flatten := by
  have hedit : ∀ e : Edit UInt8, editText e = (markedLines e).flatten := by
    intro e
    rw [editText, Action.mark_eq, markedLines, List.flatMap_def]
    rfl
  induction script with
  | nil => rfl
  | cons e script ih =>
      rw [List.flatMap_cons, List.flatMap_cons, List.flatten_append, ih, hedit]

/-- Marking a line keeps it whole. -/
theorem isLine_markByte {l : Bytes} (hl : Bytes.IsLine l) (action : Action) :
    Bytes.IsLine (action.markByte :: l) := by
  obtain ⟨body, rfl, hbody⟩ := hl
  refine ⟨action.markByte :: body, rfl, ?_⟩
  rw [List.mem_cons, not_or]
  refine ⟨?_, hbody⟩
  cases action <;> decide

/-- The text of an edit consists of whole lines. -/
def WholeLines (e : Edit UInt8) : Prop :=
  ∃ lines : List Bytes, (∀ l ∈ lines, Bytes.IsLine l) ∧ e.run = lines.flatten

theorem WholeLines.isLine
    {e : Edit UInt8} (he : WholeLines e) :
    ∀ l ∈ Bytes.splitAfter 0x0A e.run, Bytes.IsLine l := by
  obtain ⟨lines, hlines, hrun⟩ := he
  rw [hrun, Bytes.splitAfter_flatten hlines]
  exact hlines

variable {script : List (Edit UInt8)}

theorem splitAfter_marked (h : ∀ e ∈ script, WholeLines e) :
    Bytes.splitAfter 0x0A (script.flatMap markedLines).flatten =
      script.flatMap markedLines := by
  apply Bytes.splitAfter_flatten
  intro l hl
  obtain ⟨e, he, hl⟩ := List.mem_flatMap.mp hl
  obtain ⟨line, hline, rfl⟩ := List.mem_map.mp hl
  exact isLine_markByte ((h e he).isLine line hline) e.action

/-- Of the marked lines of a script those of all actions but one, without their
marks. -/
theorem unmarked_marked
    (h : ∀ e ∈ script, WholeLines e) {marks : List UInt8} {skipped : Action}
    (hmarks : ∀ action : Action,
      marks.contains action.markByte = decide (action ≠ skipped)) :
    unmarked marks (script.flatMap markedLines).flatten =
      script.flatMap fun e => if e.action = skipped then [] else e.run := by
  rw [unmarked, splitAfter_marked h, List.filter_flatMap, List.flatMap_assoc]
  apply List.flatMap_congr
  intro e _
  have hmark := hmarks e.action
  have hrun := Bytes.flatten_splitAfter 0x0A e.run
  by_cases hskipped : e.action = skipped
  · simp_all [markedLines, List.filter_map, Function.comp_def]
  · simp_all [markedLines, List.filter_map, Function.comp_def,
      List.flatMap_map, List.flatMap_id']

/-- Each line of the text has a mark, and without the marks the kept and deleted
lines are one text and the kept and inserted lines the other. -/
structure Faithful (text one two : Bytes) : Prop where
  marked : ∀ l ∈ Bytes.splitAfter 0x0A text,
    ∃ action : Action, ∃ rest, l = action.mark ++ rest
  one_eq : unmarked " -" text = one
  two_eq : unmarked " +" text = two

/-- A script of whole lines from one text to another. -/
structure ScriptOf (one two : Bytes) (script : List (Edit UInt8)) : Prop where
  wholeLines : ∀ e ∈ script, WholeLines e
  before_eq : before script = one
  after_eq : after script = two

theorem ScriptOf.faithful
    {one two : Bytes} (h : ScriptOf one two script) :
    Faithful (script.flatMap editText) one two := by
  rw [flatMap_editText]
  constructor
  case marked =>
    intro l hl
    rw [splitAfter_marked h.wholeLines] at hl
    obtain ⟨e, _, hl⟩ := List.mem_flatMap.mp hl
    obtain ⟨line, _, rfl⟩ := List.mem_map.mp hl
    refine ⟨e.action, line, ?_⟩
    rw [Action.mark_eq]
    rfl
  case one_eq =>
    have hmarks : ∀ action : Action,
        List.contains (" -" : Bytes) action.markByte =
          decide (action ≠ .insert) := by
      intro action
      cases action <;> decide
    rw [unmarked_marked h.wholeLines hmarks]
    exact h.before_eq
  case two_eq =>
    have hmarks : ∀ action : Action,
        List.contains (" +" : Bytes) action.markByte =
          decide (action ≠ .delete) := by
      intro action
      cases action <;> decide
    rw [unmarked_marked h.wholeLines hmarks]
    exact h.after_eq

theorem Faithful.ne_nil
    {text one two : Bytes} (h : Faithful text one two) (hone : one ≠ []) :
    text ≠ [] := by
  rintro rfl
  exact hone h.one_eq.symm

/-! ## Comparing line numbers -/

/-- What an edit holds is on one of the sides of the script. -/
theorem mem_sides
    {α : Type} {edits : List (Edit α)} {e : Edit α} {x : α} (he : e ∈ edits)
    (hx : x ∈ e.run) : x ∈ before edits ∨ x ∈ after edits := by
  by_cases haction : e.action = .insert
  · right
    exact List.mem_flatMap.mpr ⟨e, he, by simpa [haction] using hx⟩
  · left
    exact List.mem_flatMap.mpr ⟨e, he, by simpa [haction] using hx⟩

/-- The lines of all edits but those of one action. -/
theorem flatMap_textEdit
    (table : List Bytes) (edits : List (Edit Nat)) (skipped : Action) :
    ((edits.map (textEdit table)).flatMap fun e =>
      if e.action = skipped then [] else e.run) =
      (edits.flatMap fun e =>
        if e.action = skipped then [] else e.run).flatMap fun n =>
          table.getD n [] := by
  rw [List.flatMap_map, List.flatMap_assoc]
  apply List.flatMap_congr
  intro e _
  by_cases hskipped : e.action = skipped <;> simp [textEdit, hskipped]

/-- Texts that end their last line are compared by whole lines. -/
theorem scriptOf_compareLines (one two : Bytes) :
    ScriptOf (one ++ "\n") (two ++ "\n")
      (compareLines (one ++ "\n") (two ++ "\n")) := by
  let as := Bytes.splitAfter 0x0A (one ++ "\n")
  let bs := Bytes.splitAfter 0x0A (two ++ "\n")
  let table := numbered (numbered [] as) bs
  have has : ∀ l ∈ as, l ∈ table :=
    fun l hl => mem_numbered (.inl (mem_numbered (.inr hl)))
  have hbs : ∀ l ∈ bs, l ∈ table := fun l hl => mem_numbered (.inr hl)
  let script := compare (as.map (lineNumber table)) (bs.map (lineNumber table))
  obtain ⟨hbefore, hafter⟩ : before script = as.map (lineNumber table) ∧
      after script = bs.map (lineNumber table) :=
    sameSides_replacing_iff.mp (sameSides_compare _ _)
  constructor
  case wholeLines =>
    intro edit hedit
    obtain ⟨e, he, rfl⟩ := List.mem_map.mp hedit
    refine ⟨e.run.map fun n => table.getD n [], ?_, List.flatMap_def⟩
    rw [List.forall_mem_map]
    intro n hn
    rcases mem_sides he hn with hn | hn
    · rw [hbefore] at hn
      exact isLine_of_mem_lineNumbers has hn
    · rw [hafter] at hn
      exact isLine_of_mem_lineNumbers hbs hn
  case before_eq =>
    have hlines : before (script.map (textEdit table)) =
        (before script).flatMap fun n => table.getD n [] :=
      flatMap_textEdit table script .insert
    rw [hbefore, flatMap_lineNumber has] at hlines
    exact hlines
  case after_eq =>
    have hlines : after (script.map (textEdit table)) =
        (after script).flatMap fun n => table.getD n [] :=
      flatMap_textEdit table script .delete
    rw [hafter, flatMap_lineNumber hbs] at hlines
    exact hlines

/-- A text is empty exactly if two schemas are the same, and faithful to both
outlines otherwise, whatever their lines hold. -/
structure Tells (text : Bytes) (a b : Schema) : Prop where
  nil_iff : text = [] ↔ a.same b = true
  faithful : a.same b = false →
    Faithful text (a.render ++ "\n") (b.render ++ "\n")

theorem tells_diffBy
    {compare : Bytes → Bytes → List (Edit UInt8)} {a b : Schema}
    (h : ScriptOf (a.render ++ "\n") (b.render ++ "\n")
      (compare (a.render ++ "\n") (b.render ++ "\n"))) :
    Tells (a.diffBy compare b) a b := by
  have hother : a.same b = false → Faithful (a.diffBy compare b)
      (a.render ++ "\n") (b.render ++ "\n") := by
    intro hsame
    rw [Schema.diffBy, if_neg (by simp [hsame])]
    exact h.faithful
  refine ⟨⟨?_, ?_⟩, hother⟩
  · intro hempty
    by_contra hsame
    rw [Bool.not_eq_true] at hsame
    have hrender : (a.render ++ "\n" : Bytes) ≠ [] :=
      List.append_ne_nil_of_right_ne_nil _ (by decide)
    exact (hother hsame).ne_nil hrender hempty
  · intro hsame
    rw [Schema.diffBy, if_pos hsame]

end Diff

/-- The difference of two schemas is empty exactly if they are the same, and
faithful to both outlines otherwise.  So is the difference by any other way to
compare texts that gives scripts of whole lines. -/
theorem Schema.diff_faithful (a b : Schema) :
    Diff.Tells (a.diff b) a b ∧
      ∀ compare : Bytes → Bytes → List (Diff.Edit UInt8),
        (∀ one two, Diff.ScriptOf (one ++ "\n") (two ++ "\n")
          (compare (one ++ "\n") (two ++ "\n"))) →
        Diff.Tells (a.diffBy compare b) a b := by
  constructor
  · exact Diff.tells_diffBy (Diff.scriptOf_compareLines a.render b.render)
  · intro compare hcompare
    exact Diff.tells_diffBy (hcompare a.render b.render)

end Schemata
