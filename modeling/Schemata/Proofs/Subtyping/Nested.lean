import Schemata.Proofs.Subtyping.Plain
import Mathlib.Logic.Relation

/-!
# The comparisons that are made

A comparison asks for others, which it is nested in.  Which ones it can ask for
is said by a relation between comparisons, each taken with the pairs assumed at
it.  To see that a run makes no others, every comparison is put down when it is
made: the answer stays the same, and all that is put down is reached from the
first comparison along the relation.
-/

namespace Schemata.Subtyping

/-- A comparison: the pairs assumed at it, the supertype and the subtype. -/
abbrev Comparison := List Pair × Pair

/-- The comparisons that a comparison can ask for. -/
inductive Nested (root : Option Schema) : Comparison → Comparison → Prop
  | within
      {assumed : List Pair} {super sub : Schema} {groups : List (List Pair)}
      {g : List Pair} {pair : Pair} :
      demand super.unwrap sub.unwrap = .each groups → g ∈ groups →
      pair ∈ g → Nested root (assumed, super, sub) (assumed, pair)
  | resolved
      {assumed : List Pair} {super sub target : Schema} {path : Path}
      {next : Schema → Pair} :
      demand super.unwrap sub.unwrap = .through path next →
      (super.unwrap, sub.unwrap) ∉ assumed →
      Schema.resolve root path = .ok target →
      Nested root (assumed, super, sub)
        ((super.unwrap, sub.unwrap) :: assumed, next target)

/-! ## Putting comparisons down -/

def Assumptions.pairs (table : Assumptions) : List Pair :=
  table.flatMap Prod.snd

theorem Assumptions.pairs_push
    (k : Key) (pair : Pair) (table : Assumptions) :
    (push k pair table).pairs.Perm (pair :: table.pairs) := by
  induction table with
  | nil => exact List.Perm.refl _
  | cons first rest ih =>
      rw [push]
      split
      · have hmiddle : (first.2 ++ ([pair] ++ pairs rest)).Perm
            (pair :: (first.2 ++ pairs rest)) := List.perm_middle
        rwa [← List.append_assoc] at hmiddle
      · have hlater : (first.2 ++ pairs (push k pair rest)).Perm
            (first.2 ++ pair :: pairs rest) := ih.append_left first.2
        exact hlater.trans List.perm_middle

/-- A comparison that is put down, with the pairs in the table, and made. -/
def noted (super sub : Schema)
    (comparison : CheckT (StateM (List Comparison)) Bool) :
    CheckT (StateM (List Comparison)) Bool := do
  let table ← get
  ExceptT.lift (StateT.lift (modify (· ++ [(table.pairs, super, sub)])))
  comparison

/-- `check`, with all comparisons put down in the order they are made in. -/
def recorded (key : Schema → UInt64) (root : Option Schema) :
    Nat → Schema → Schema → CheckT (StateM (List Comparison)) Bool
  | 0, super, sub => noted super sub (throw .exhausted)
  | depth + 1, super, sub =>
    noted super sub (checkBy key root (recorded key root depth) super sub)

/-- A comparison gives an answer and leaves the table as it was, and all that
is put down meanwhile has a property. -/
def Records (comparison : CheckT (StateM (List Comparison)) Bool)
    (table : Assumptions) (answer : Except Failure Bool)
    (property : Comparison → Prop) : Prop :=
  ∀ made, ∃ more,
    (comparison.run.run table).run made = ((answer, table), made ++ more) ∧
      ∀ c ∈ more, property c

section Rules

variable {comparison : CheckT (StateM (List Comparison)) Bool}
  {table : Assumptions} {answer : Except Failure Bool}
  {property : Comparison → Prop}

theorem records_pure (b : Bool) :
    Records (pure b) table (pure b) property :=
  fun made => ⟨[], by rw [List.append_nil]; rfl, by simp⟩

theorem Records.mono
    {property' : Comparison → Prop}
    (h : Records comparison table answer property)
    (himp : ∀ c, property c → property' c) :
    Records comparison table answer property' := by
  intro made
  obtain ⟨more, hrun, hmore⟩ := h made
  exact ⟨more, hrun, fun c hc => himp c (hmore c hc)⟩

theorem Records.noted
    {super sub : Schema} (hself : property (table.pairs, super, sub))
    (h : Records comparison table answer property) :
    Records (noted super sub comparison) table answer property := by
  intro made
  obtain ⟨more, hrun, hmore⟩ := h (made ++ [(table.pairs, super, sub)])
  refine ⟨(table.pairs, super, sub) :: more, ?_, ?_⟩
  · rw [← List.append_cons] at hrun
    exact hrun
  · exact List.forall_mem_cons.mpr ⟨hself, hmore⟩

theorem Records.bind
    {continuation : Bool → CheckT (StateM (List Comparison)) Bool}
    {next : Bool → Except Failure Bool}
    (hfirst : Records comparison table answer property)
    (hnext : ∀ b, Records (continuation b) table (next b) property) :
    Records (comparison >>= continuation) table (answer >>= next)
      property := by
  intro made
  obtain ⟨more, hrun, hmore⟩ := hfirst made
  cases answer with
  | error failure =>
      refine ⟨more, ?_, hmore⟩
      simp only [ExceptT.run_bind, StateT.run_bind, hrun]
      rfl
  | ok b =>
      obtain ⟨later, hlater, hlaters⟩ := hnext b (made ++ more)
      refine ⟨more ++ later, ?_, ?_⟩
      · simp only [ExceptT.run_bind, StateT.run_bind, hrun]
        rw [← List.append_assoc]
        exact hlater
      · exact List.forall_mem_append.mpr ⟨hmore, hlaters⟩

theorem Records.anyM
    {α : Type} {f : α → CheckT (StateM (List Comparison)) Bool}
    {answer : α → Except Failure Bool} {xs : List α}
    (h : ∀ x ∈ xs, Records (f x) table (answer x) property) :
    Records (xs.anyM f) table (xs.anyM answer) property := by
  induction xs with
  | nil => exact records_pure false
  | cons x xs ih =>
      obtain ⟨hx, hxs⟩ := List.forall_mem_cons.mp h
      rw [List.anyM_cons, List.anyM_cons]
      refine hx.bind fun b => ?_
      cases b with
      | true => exact records_pure true
      | false => exact ih hxs

theorem Records.allM
    {α : Type} {f : α → CheckT (StateM (List Comparison)) Bool}
    {answer : α → Except Failure Bool} {xs : List α}
    (h : ∀ x ∈ xs, Records (f x) table (answer x) property) :
    Records (xs.allM f) table (xs.allM answer) property := by
  induction xs with
  | nil => exact records_pure true
  | cons x xs ih =>
      obtain ⟨hx, hxs⟩ := List.forall_mem_cons.mp h
      rw [List.allM_cons, List.allM_cons]
      refine hx.bind fun b => ?_
      cases b with
      | true => exact ih hxs
      | false => exact records_pure false

end Rules

theorem records_through
    {key : Schema → UInt64} {root : Option Schema} {super sub : Schema}
    {path : Path}
    {compareTarget : Schema → CheckT (StateM (List Comparison)) Bool}
    {table : Assumptions} {assumed : List Pair}
    {answer : Schema → Except Failure Bool} {property : Comparison → Prop}
    (htidy : table.Tidy) (hlists : table.Lists key assumed)
    (htarget : (super, sub) ∉ assumed → ∀ target,
      Schema.resolve root path = .ok target →
        Records (compareTarget target)
          (table.push (key super, key sub) (super, sub)) (answer target)
          property) :
    Records (through key root super sub path compareTarget) table
      (if isAssumed assumed super sub then .ok true
        else
          match Schema.resolve root path with
          | .error cause => .error (.unresolved cause)
          | .ok target => answer target) property := by
  intro made
  rw [through, run_get_bind, Schema.resolveM_eq, pure_bind, hlists super sub]
  cases hassumed : isAssumed assumed super sub with
  | true => exact ⟨[], by rw [List.append_nil]; rfl, by simp⟩
  | false =>
      have hfresh : (super, sub) ∉ assumed := by
        rw [← isAssumed_iff, hassumed]
        exact Bool.false_ne_true
      cases hresolve : Schema.resolve root path with
      | error cause => exact ⟨[], by rw [List.append_nil]; rfl, by simp⟩
      | ok target =>
          obtain ⟨more, hrun, hmore⟩ := htarget hfresh target hresolve made
          refine ⟨more, ?_, hmore⟩
          simp only [Bool.false_eq_true, if_false]
          rw [run_assume, StateT.run_map, hrun]
          exact congrArg (fun t => ((answer target, t), made ++ more))
            (Assumptions.pop_push htidy _ _)

/-- A comparison is reached along the relation, up to the order of the pairs
assumed at it. -/
def Reached (root : Option Schema) (start c : Comparison) : Prop :=
  ∃ assumed, assumed.Perm c.1 ∧
    Relation.ReflTransGen (Nested root) start (assumed, c.2)

theorem Reached.head
    {root : Option Schema} {start next c : Comparison}
    (hstep : Nested root start next) (h : Reached root next c) :
    Reached root start c := by
  obtain ⟨assumed, hperm, hreached⟩ := h
  exact ⟨assumed, hperm, hreached.head hstep⟩

/-- Putting comparisons down changes no answer, and none is made that is not
nested in the first one. -/
theorem records_recorded
    (key : Schema → UInt64) (root : Option Schema) (depth : Nat)
    {table : Assumptions} {assumed : List Pair}
    (htidy : table.Tidy) (hlists : table.Lists key assumed)
    (hpairs : assumed.Perm table.pairs) (super sub : Schema) :
    Records (recorded key root depth super sub) table
      (verdict root depth assumed super sub)
      (Reached root (assumed, super, sub)) := by
  have hself : Reached root (assumed, super, sub) (table.pairs, super, sub) :=
    ⟨assumed, hpairs, .refl⟩
  induction depth generalizing table assumed super sub with
  | zero =>
      refine Records.noted hself fun made => ⟨[], ?_, by simp⟩
      rw [List.append_nil]
      rfl
  | succ depth ih =>
      refine Records.noted hself ?_
      rw [checkBy_eq, verdict]
      cases hdemand : demand super.unwrap sub.unwrap with
      | each groups =>
          apply Records.allM
          intro g hg
          apply Records.anyM
          intro pair hpair
          have hnested := ih htidy hlists hpairs pair.1 pair.2
            ⟨assumed, hpairs, .refl⟩
          exact hnested.mono fun c hc =>
            hc.head (.within hdemand hg hpair)
      | through path next =>
          refine records_through htidy hlists fun hfresh target hresolve => ?_
          have hpush : ((super.unwrap, sub.unwrap) :: assumed).Perm
              (table.push (key super.unwrap, key sub.unwrap)
                (super.unwrap, sub.unwrap)).pairs :=
            (hpairs.cons _).trans (Assumptions.pairs_push _ _ _).symm
          have hnested := ih (htidy.push _ _) (hlists.push _ _) hpush
            (next target).1 (next target).2 ⟨_, hpush, .refl⟩
          exact hnested.mono fun c hc =>
            hc.head (.resolved hdemand hfresh hresolve)

end Schemata.Subtyping
