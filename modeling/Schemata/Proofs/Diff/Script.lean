import Schemata.Diff.Script
import Mathlib.Tactic

/-!
# Tidying keeps both sides

Two scripts have the same sides if they lead from the same sequence to the same
sequence.  This is kept where scripts are put together, so everything that
tidying does is one of a few laws about short scripts: neighbouring runs can be
joined, what a deletion and an insertion share can be kept instead, and an edit
can move over a kept run that it ends or starts with.
-/

namespace Schemata.Diff

variable {α : Type}

/-- Scripts with the same first and the same second sequence. -/
structure SameSides (script script' : List (Edit α)) : Prop where
  before : before script = before script'
  after : after script = after script'

/-- The script that deletes one sequence and inserts another one. -/
def replacing (one two : List α) : List (Edit α) :=
  [⟨.delete, one⟩, ⟨.insert, two⟩]

namespace SameSides

theorem refl (script : List (Edit α)) : SameSides script script := ⟨rfl, rfl⟩

theorem symm {s t : List (Edit α)} (h : SameSides s t) : SameSides t s :=
  ⟨h.before.symm, h.after.symm⟩

theorem trans
    {s t u : List (Edit α)} (hst : SameSides s t) (htu : SameSides t u) :
    SameSides s u :=
  ⟨hst.before.trans htu.before, hst.after.trans htu.after⟩

instance : Trans (@SameSides α) (@SameSides α) (@SameSides α) := ⟨trans⟩

theorem append
    {s s' t t' : List (Edit α)} (hs : SameSides s s') (ht : SameSides t t') :
    SameSides (s ++ t) (s' ++ t') := by
  constructor
  · have hs := hs.before
    have ht := ht.before
    unfold Diff.before at *
    rw [List.flatMap_append, List.flatMap_append, hs, ht]
  · have hs := hs.after
    have ht := ht.after
    unfold Diff.after at *
    rw [List.flatMap_append, List.flatMap_append, hs, ht]

end SameSides

/-! ## Laws of short scripts -/

theorem sameSides_empty (action : Action) :
    SameSides [(⟨action, []⟩ : Edit α)] [] := by
  constructor <;> simp [before, after]

theorem sameSides_keep (run : List α) :
    SameSides [⟨.keep, run⟩] (replacing run run) := by
  constructor <;> simp [before, after, replacing]

theorem sameSides_join (first second : List α) :
    SameSides [⟨.keep, first⟩, ⟨.keep, second⟩] [⟨.keep, first ++ second⟩] := by
  constructor <;> simp [before, after]

theorem sameSides_replacing_append (one two one' two' : List α) :
    SameSides (replacing one two ++ replacing one' two')
      (replacing (one ++ one') (two ++ two')) := by
  constructor <;> simp [before, after, replacing]

theorem sameSides_shift_left (action : Action) (previous moved next : List α) :
    SameSides
      [⟨.keep, previous⟩, ⟨action, moved ++ previous⟩, ⟨.keep, next⟩]
      [⟨action, previous ++ moved⟩, ⟨.keep, previous ++ next⟩] := by
  cases action <;> constructor <;> simp [before, after]

theorem sameSides_shift_right (action : Action) (previous moved next : List α) :
    SameSides
      [⟨.keep, previous⟩, ⟨action, next ++ moved⟩, ⟨.keep, next⟩]
      [⟨.keep, previous ++ next⟩, ⟨action, moved ++ next⟩] := by
  cases action <;> constructor <;> simp [before, after]

theorem sameSides_replacing_iff {script : List (Edit α)} {one two : List α} :
    SameSides script (replacing one two) ↔
      before script = one ∧ after script = two := by
  have hone : before (replacing one two) = one := by
    simp [before, replacing]
  have htwo : after (replacing one two) = two := by
    simp [after, replacing]
  constructor
  · intro h
    exact ⟨h.before.trans hone, h.after.trans htwo⟩
  · rintro ⟨hbefore, hafter⟩
    exact ⟨hbefore.trans hone.symm, hafter.trans htwo.symm⟩

/-! ## What sequences have in common -/

section Agreement

variable [BEq α]

theorem agreement_le (as bs : List α) :
    agreement as bs ≤ as.length ∧ agreement as bs ≤ bs.length := by
  fun_induction agreement as bs with
  | case1 a as b bs hab ih => simpa using ih
  | case2 a as b bs hab => simp
  | case3 as bs _ => simp

variable [LawfulBEq α]

theorem take_agreement (as bs : List α) :
    as.take (agreement as bs) = bs.take (agreement as bs) := by
  fun_induction agreement as bs with
  | case1 a as b bs hab ih =>
      rw [List.take_succ_cons, List.take_succ_cons, ih, eq_of_beq hab]
  | case2 a as b bs hab => rfl
  | case3 as bs _ => rfl

theorem drop_endAgreement (as bs : List α) :
    as.drop (as.length - endAgreement as bs) =
      bs.drop (bs.length - endAgreement as bs) := by
  have h := congrArg List.reverse (take_agreement as.reverse bs.reverse)
  rw [List.reverse_take, List.reverse_take] at h
  simpa [endAgreement] using h

/-- What a deletion and an insertion start with can be kept instead. -/
theorem sameSides_front (deleted inserted : List α) :
    let front := agreement inserted deleted
    SameSides (replacing deleted inserted)
      ([⟨.keep, inserted.take front⟩] ++
        replacing (deleted.drop front) (inserted.drop front)) := by
  intro front
  have hfront : deleted.take front = inserted.take front :=
    (take_agreement inserted deleted).symm
  constructor
  · simp [before, replacing, ← hfront]
  · simp [after, replacing]

/-- What a deletion and an insertion end with can be kept instead. -/
theorem sameSides_back (deleted inserted : List α) :
    let back := endAgreement inserted deleted
    SameSides (replacing deleted inserted)
      (replacing (deleted.take (deleted.length - back))
          (inserted.take (inserted.length - back)) ++
        [⟨.keep, inserted.drop (inserted.length - back)⟩]) := by
  intro back
  have hback : deleted.drop (deleted.length - back) =
      inserted.drop (inserted.length - back) :=
    (drop_endAgreement inserted deleted).symm
  constructor
  · simp [before, replacing, ← hback]
  · simp [after, replacing]

end Agreement

/-! ## Joining -/

/-- Where nothing was counted nothing is pending. -/
structure Pending.Counted (p : Pending α) : Prop where
  deleted : p.deletions = 0 → p.deleted = []
  inserted : p.insertions = 0 → p.inserted = []

theorem Pending.counted_fresh : ({} : Pending α).Counted :=
  ⟨fun _ => rfl, fun _ => rfl⟩

theorem Pending.Counted.delete
    {p : Pending α} (hp : p.Counted) (run : List α) :
    Counted { p with
      deletions := p.deletions + 1, deleted := p.deleted ++ run } :=
  ⟨fun h => absurd h (Nat.succ_ne_zero _), hp.inserted⟩

theorem Pending.Counted.insert
    {p : Pending α} (hp : p.Counted) (run : List α) :
    Counted { p with
      insertions := p.insertions + 1, inserted := p.inserted ++ run } :=
  ⟨hp.deleted, fun h => absurd h (Nat.succ_ne_zero _)⟩

theorem sameSides_extendKept (run : List α) (done : List (Edit α)) :
    SameSides (extendKept run done).reverse
      (done.reverse ++ [⟨.keep, run⟩]) := by
  fun_cases extendKept run done with
  | case1 kept rest =>
      rw [List.reverse_cons, List.reverse_cons, List.append_assoc]
      exact (SameSides.refl _).append (sameSides_join kept run).symm
  | case2 =>
      rw [List.reverse_cons]
      exact .refl _

variable [BEq α] [LawfulBEq α]

theorem sameSides_flush
    (done : List (Edit α)) {p : Pending α} (hp : p.Counted) (kept : List α) :
    SameSides (flush done p kept).reverse
      (done.reverse ++ (replacing p.deleted p.inserted ++ [⟨.keep, kept⟩])) := by
  fun_cases flush done p kept with
  | case1 hnone =>
      have hdeleted := hp.deleted (by omega)
      have hinserted := hp.inserted (by omega)
      rw [hdeleted, hinserted]
      have hnothing : SameSides (replacing [] []) ([] : List (Edit α)) := by
        constructor <;> rfl
      exact (sameSides_extendKept kept done).trans
        ((SameSides.refl _).append (hnothing.append (.refl _)).symm)
  | case2 hsome hinsertions =>
      rw [hp.inserted hinsertions]
      constructor <;> simp [before, after, replacing]
  | case3 hsome hinsertions hdeletions =>
      rw [hp.deleted hdeletions]
      constructor <;> simp [before, after, replacing]
  | case4 hsome hinsertions hdeletions front done' inserted deleted back kept' =>
      have hdone : SameSides done'.reverse
          (done.reverse ++ [⟨.keep, p.inserted.take front⟩]) := by
        by_cases hfront : front = 0
        · have hempty : SameSides [] [(⟨.keep, []⟩ : Edit α)] :=
            (sameSides_empty .keep).symm
          simpa [done', hfront] using (SameSides.refl done.reverse).append hempty
        · simpa [done', hfront] using
            sameSides_extendKept (p.inserted.take front) done
      have hjoin := sameSides_join (inserted.drop (inserted.length - back)) kept
      -- Undo the steps: what both end with first, then what both start with.
      calc SameSides _ (done'.reverse ++
            (replacing (deleted.take (deleted.length - back))
              (inserted.take (inserted.length - back)) ++
                [⟨.keep, kept'⟩])) := by
            simp [replacing, SameSides.refl]
        SameSides _ (done.reverse ++ [⟨.keep, p.inserted.take front⟩] ++
            (replacing (deleted.take (deleted.length - back))
              (inserted.take (inserted.length - back)) ++
                ([⟨.keep, inserted.drop (inserted.length - back)⟩] ++
                  [⟨.keep, kept⟩]))) :=
            hdone.append ((SameSides.refl _).append hjoin.symm)
        SameSides _ (done.reverse ++ [⟨.keep, p.inserted.take front⟩] ++
            (replacing deleted inserted ++ [⟨.keep, kept⟩])) := by
            rw [← List.append_assoc (replacing _ _)]
            exact (SameSides.refl _).append
              ((sameSides_back deleted inserted).symm.append (.refl _))
        SameSides _ (done.reverse ++
            (replacing p.deleted p.inserted ++ [⟨.keep, kept⟩])) := by
            rw [List.append_assoc, ← List.append_assoc [_]]
            exact (SameSides.refl _).append
              ((sameSides_front p.deleted p.inserted).symm.append (.refl _))

theorem sameSides_joined
    (done : List (Edit α)) {p : Pending α} (hp : p.Counted)
    (script : List (Edit α)) :
    SameSides (joined done p script).reverse
      (done.reverse ++ (replacing p.deleted p.inserted ++ script)) := by
  induction script generalizing done p with
  | nil =>
      rw [joined]
      refine (sameSides_flush done hp []).trans ?_
      exact (SameSides.refl _).append
        ((SameSides.refl _).append (sameSides_empty .keep))
  | cons e script ih =>
      obtain ⟨action, run⟩ := e
      cases action with
      | keep =>
          rw [joined]
          refine (ih _ Pending.counted_fresh).trans ?_
          have hnothing : SameSides (replacing [] [] ++ script) script :=
            ⟨rfl, rfl⟩
          have hflush := (sameSides_flush done hp run).append hnothing
          simpa using hflush
      | delete =>
          rw [joined]
          refine (ih done (hp.delete run)).trans ?_
          apply (SameSides.refl _).append
          constructor <;> simp [before, after, replacing]
      | insert =>
          rw [joined]
          refine (ih done (hp.insert run)).trans ?_
          apply (SameSides.refl _).append
          constructor <;> simp [before, after, replacing]

theorem sameSides_join_script (script : List (Edit α)) :
    SameSides (join script) script := by
  have hjoined : SameSides (joined [] {} script).reverse script :=
    (sameSides_joined [] Pending.counted_fresh script).trans ⟨rfl, rfl⟩
  unfold join
  split
  · rename_i action rest hrest
    rw [hrest, List.reverse_cons] at hjoined
    have hlast := (SameSides.refl rest.reverse).append (sameSides_empty action)
    rw [List.append_nil] at hlast
    exact hlast.symm.trans hjoined
  · exact hjoined

/-! ## Shifting -/

theorem sameSides_shift
    (done : List (Edit α)) (changed : Bool) (script : List (Edit α)) :
    SameSides (shift done changed script).1 (done.reverse ++ script) := by
  fun_induction shift done changed script with
  | case1 done changed => simp [SameSides.refl]
  | case2 done changed e => simp [SameSides.refl]
  | case3 changed e next rest ih => simpa using ih
  | case4 changed e next rest previous passed hkeep hsuffix moved ih =>
      obtain ⟨action, run⟩ := e
      obtain ⟨previousAction, previousRun⟩ := previous
      obtain ⟨nextAction, nextRun⟩ := next
      obtain ⟨rfl, rfl⟩ : previousAction = .keep ∧ nextAction = .keep := by
        simpa using hkeep
      have hrun : moved ++ previousRun = run :=
        List.suffix_iff_eq_append.mp (List.isSuffixOf_iff_suffix.mp hsuffix)
      have hshift := sameSides_shift_left action previousRun moved nextRun
      rw [hrun] at hshift
      refine ih.trans ?_
      simpa using
        (SameSides.refl passed.reverse).append (hshift.symm.append (.refl rest))
  | case5 changed e next rest previous passed hkeep hsuffix hprefix ih =>
      obtain ⟨action, run⟩ := e
      obtain ⟨previousAction, previousRun⟩ := previous
      obtain ⟨nextAction, nextRun⟩ := next
      obtain ⟨rfl, rfl⟩ : previousAction = .keep ∧ nextAction = .keep := by
        simpa using hkeep
      have hrun : nextRun ++ run.drop nextRun.length = run :=
        List.prefix_iff_eq_append.mp (List.isPrefixOf_iff_prefix.mp hprefix)
      have hshift := sameSides_shift_right action previousRun
        (run.drop nextRun.length) nextRun
      rw [hrun] at hshift
      refine ih.trans ?_
      simpa using
        (SameSides.refl passed.reverse).append (hshift.symm.append (.refl rest))
  | case6 changed e next rest previous passed hkeep hsuffix hprefix ih =>
      simpa using ih
  | case7 changed e next rest previous passed hkeep ih =>
      simpa using ih

theorem sameSides_tidyWith (fuel : Nat) (script : List (Edit α)) :
    SameSides (tidyWith fuel script) script := by
  induction fuel generalizing script with
  | zero => exact .refl script
  | succ fuel ih =>
      have hshift : SameSides (shift [] false (join script)).1 script :=
        (sameSides_shift [] false (join script)).trans
          (sameSides_join_script script)
      rw [tidyWith]
      split
      · rename_i shifted hshifted
        rw [hshifted] at hshift
        exact (ih shifted).trans hshift
      · rename_i shifted hshifted
        rw [hshifted] at hshift
        exact hshift

/-- Tidying a script changes neither of its sequences. -/
theorem sameSides_tidy (script : List (Edit α)) :
    SameSides (tidy script) script :=
  sameSides_tidyWith _ script

end Schemata.Diff
