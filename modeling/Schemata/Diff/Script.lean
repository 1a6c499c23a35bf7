/-!
# Edit scripts

A script says how one sequence becomes another: runs of elements are kept,
deleted or inserted.  The kept and the deleted runs are the first sequence, the
kept and the inserted ones the second.

Tidying keeps both.  It joins runs of one sort, moves what a deletion and an
insertion have in common out of them, and shifts single edits over a
neighbouring run where that makes the run disappear.
-/

namespace Schemata.Diff

inductive Action
  | keep | delete | insert
  deriving DecidableEq

structure Edit (α : Type) where
  action : Action
  run : List α

variable {α : Type} [BEq α]

/-- The first sequence of a script. -/
def before (script : List (Edit α)) : List α :=
  script.flatMap fun e => if e.action = .insert then [] else e.run

/-- The second sequence of a script. -/
def after (script : List (Edit α)) : List α :=
  script.flatMap fun e => if e.action = .delete then [] else e.run

def agreement : List α → List α → Nat
  | a :: as, b :: bs => if a == b then agreement as bs + 1 else 0
  | _, _ => 0

def endAgreement (as bs : List α) : Nat := agreement as.reverse bs.reverse

structure Pending (α : Type) where
  deletions : Nat := 0
  insertions : Nat := 0
  deleted : List α := []
  inserted : List α := []

/-- Appends a kept run to the last one, which comes first in the list, or starts
one. -/
def extendKept (run : List α) : List (Edit α) → List (Edit α)
  | ⟨.keep, kept⟩ :: rest => ⟨.keep, kept ++ run⟩ :: rest
  | done => ⟨.keep, run⟩ :: done

/-- Writes the pending edits and a kept run that follows them; the last written
edit comes first. -/
def flush (done : List (Edit α)) (p : Pending α) (kept : List α) :
    List (Edit α) :=
  if p.deletions + p.insertions = 0 then extendKept kept done
  else if p.insertions = 0 then ⟨.keep, kept⟩ :: ⟨.delete, p.deleted⟩ :: done
  else if p.deletions = 0 then ⟨.keep, kept⟩ :: ⟨.insert, p.inserted⟩ :: done
  else
    let front := agreement p.inserted p.deleted
    let done :=
      if front = 0 then done else extendKept (p.inserted.take front) done
    let inserted := p.inserted.drop front
    let deleted := p.deleted.drop front
    let back := endAgreement inserted deleted
    let kept := inserted.drop (inserted.length - back) ++ kept
    ⟨.keep, kept⟩ :: ⟨.insert, inserted.take (inserted.length - back)⟩
      :: ⟨.delete, deleted.take (deleted.length - back)⟩ :: done

/-- Joins neighbouring edits and kept runs.  The result, like `done`, has the
last edit first, and ends in a kept run. -/
def joined (done : List (Edit α)) (p : Pending α) :
    List (Edit α) → List (Edit α)
  | [] => flush done p []
  | ⟨.delete, run⟩ :: rest =>
    joined done
      { p with deletions := p.deletions + 1, deleted := p.deleted ++ run } rest
  | ⟨.insert, run⟩ :: rest =>
    joined done
      { p with insertions := p.insertions + 1, inserted := p.inserted ++ run }
      rest
  | ⟨.keep, run⟩ :: rest => joined (flush done p run) {} rest

/-- Joins neighbouring edits and kept runs, and leaves out an empty run at the
end. -/
def join (script : List (Edit α)) : List (Edit α) :=
  match joined [] {} script with
  | ⟨_, []⟩ :: rest => rest.reverse
  | done => done.reverse

/-- Shifts single edits between two kept runs over one of them, where that makes
the run disappear.  The edits passed already are in `done`, the last one first;
the answer also says whether anything shifted. -/
def shift (done : List (Edit α)) (changed : Bool) :
    List (Edit α) → List (Edit α) × Bool
  | [] => (done.reverse, changed)
  | [e] => ((e :: done).reverse, changed)
  | e :: next :: rest =>
    match done with
    | [] => shift [e] changed (next :: rest)
    | previous :: passed =>
      if previous.action = .keep && next.action = .keep then
        if previous.run.isSuffixOf e.run then
          let moved := e.run.take (e.run.length - previous.run.length)
          shift
            (⟨.keep, previous.run ++ next.run⟩ ::
              ⟨e.action, previous.run ++ moved⟩ :: passed)
            true rest
        else if next.run.isPrefixOf e.run then
          shift (⟨e.action, e.run.drop next.run.length ++ next.run⟩
            :: ⟨.keep, previous.run ++ next.run⟩ :: passed) true rest
        else shift (e :: done) changed (next :: rest)
      else shift (e :: done) changed (next :: rest)

def tidyWith : Nat → List (Edit α) → List (Edit α)
  | 0, script => script
  | fuel + 1, script =>
    match shift [] false (join script) with
    | (shifted, true) => tidyWith fuel shifted
    | (shifted, false) => shifted

/-- A script with neighbouring edits joined and shifted together.  Every shift
makes a run disappear, so there are not more of them than edits and elements. -/
def tidy (script : List (Edit α)) : List (Edit α) :=
  tidyWith
    (2 * script.length + script.foldl (fun n e => n + e.run.length) 0 + 2)
    script

end Schemata.Diff
