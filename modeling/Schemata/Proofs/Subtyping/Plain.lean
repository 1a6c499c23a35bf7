import Schemata.Proofs.Diagnostics
import Schemata.Proofs.Schema.Order
import Mathlib.Tactic

/-!
# Subtyping with a plain list of assumptions

A comparison of two schemas either asks for further comparisons or resolves
a reference.  What it asks for is a list of groups of pairs, of which every
group has to hold a pair that holds.  `demand` says so once for all kinds of
schema, and everything proved about comparisons later goes through it.

`verdict` is the comparison that keeps the assumed pairs in a plain list and
has no state.  The comparison that files them in a table by key gives the
same answer, whatever the keys are, and leaves the table as it was.
-/

namespace Schemata.Subtyping

/-- What a comparison comes down to. -/
inductive Demand
  /-- Of each group some pair has to hold. -/
  | each (groups : List (List Pair))
  /-- A reference is resolved first, and the pair of its target has to hold. -/
  | through (path : Path) (next : Schema → Pair)

/-- The groups under a condition, or else a group that no pair satisfies. -/
def Demand.given (condition : Bool) (groups : List (List Pair)) : Demand :=
  .each (if condition then groups else [[]])

/-- What the comparison of two schemas comes down to, when neither is a union
of one possibility. -/
def demand (super sub : Schema) : Demand :=
  if super.kind = .anything || super.same sub || sub.kind = .nothing then
    .each []
  else
    match super, sub with
    | .nothing, _ => .each [[]]
    | .reference path, _ => .through path fun target => (target, sub)
    | .union ps, .union qs => .each (qs.map fun q => ps.map fun p => (p, q))
    | .union ps, _ => .each [ps.map fun p => (p, sub)]
    | _, .reference path => .through path fun target => (super, target)
    | _, .union qs => .each [qs.map fun q => (super, q)]
    | .number w s n, .number w' s' n' =>
      .given (coversNumber w s n w' s' n') []
    | .string c l, .string c' l' => .given (c == c' && coversLength l l') []
    | .tensor items ds, .tensor items' ds' =>
      .given (ds == ds') [[(items, items')]]
    | .collection items o l, .collection items' o' l' =>
      .given (!(o && !o') && coversLength l l') [[(items, items')]]
    | .mapping k v, .mapping k' v' => .each [[(k, k')], [(v, v')]]
    | .record fs, .record fs' => .each (fs.map fun f =>
      match Schema.field? f.1 fs' with
      | some f' => [(f.2, f')]
      | none => [])
    | _, _ => .each [[]]

/-- A pair that is reached by going inside on at least one side. -/
def Descends (super sub : Schema) (pair : Pair) : Prop :=
  pair.1 ∈ super.children ∧ pair.2 ∈ sub.children ∨
    pair.1 ∈ super.children ∧ pair.2 = sub ∨
    pair.1 = super ∧ pair.2 ∈ sub.children

theorem Descends.parts
    {super sub : Schema} {pair : Pair} (h : Descends super sub pair) :
    pair.1 ∈ super.parts ∧ pair.2 ∈ sub.parts := by
  rcases h with ⟨hsuper, hsub⟩ | ⟨hsuper, hsub⟩ | ⟨hsuper, hsub⟩
  · exact ⟨Schema.mem_parts_of_mem_children hsuper,
      Schema.mem_parts_of_mem_children hsub⟩
  · rw [hsub]
    exact ⟨Schema.mem_parts_of_mem_children hsuper, sub.self_mem_parts⟩
  · rw [hsuper]
    exact ⟨super.self_mem_parts, Schema.mem_parts_of_mem_children hsub⟩

theorem Descends.weight_lt
    {super sub : Schema} {pair : Pair} (h : Descends super sub pair) :
    pair.1.weight + pair.2.weight < super.weight + sub.weight := by
  rcases h with ⟨hsuper, hsub⟩ | ⟨hsuper, hsub⟩ | ⟨hsuper, hsub⟩
  · have hleft := Schema.weight_lt_of_mem_children hsuper
    have hright := Schema.weight_lt_of_mem_children hsub
    omega
  · have hleft := Schema.weight_lt_of_mem_children hsuper
    rw [hsub]
    omega
  · have hright := Schema.weight_lt_of_mem_children hsub
    rw [hsuper]
    omega

theorem mem_of_given
    {condition : Bool} {groups groups' : List (List Pair)}
    (h : Demand.given condition groups = .each groups') {g : List Pair}
    (hg : g ∈ groups') {pair : Pair} (hpair : pair ∈ g) : g ∈ groups := by
  cases h
  cases condition with
  | true => exact hg
  | false =>
      obtain rfl := List.mem_singleton.mp hg
      cases hpair

/-- A comparison that resolves no reference goes down. -/
theorem descends_of_demand
    {super sub : Schema} {groups : List (List Pair)}
    (h : demand super sub = .each groups) {g : List Pair} (hg : g ∈ groups)
    {pair : Pair} (hpair : pair ∈ g) : Descends super sub pair := by
  unfold demand at h
  split at h
  · cases h
    cases hg
  · split at h
    case h_2 => cases h
    case h_3 =>
      cases h
      obtain ⟨q, hq, rfl⟩ := List.mem_map.mp hg
      obtain ⟨p, hp, rfl⟩ := List.mem_map.mp hpair
      exact .inl ⟨hp, hq⟩
    case h_4 =>
      cases h
      obtain rfl := List.mem_singleton.mp hg
      obtain ⟨p, hp, rfl⟩ := List.mem_map.mp hpair
      exact .inr (.inl ⟨hp, rfl⟩)
    case h_5 => cases h
    case h_6 =>
      cases h
      obtain rfl := List.mem_singleton.mp hg
      obtain ⟨q, hq, rfl⟩ := List.mem_map.mp hpair
      exact .inr (.inr ⟨rfl, hq⟩)
    case h_7 => cases mem_of_given h hg hpair
    case h_8 => cases mem_of_given h hg hpair
    case h_9 =>
      obtain rfl := List.mem_singleton.mp (mem_of_given h hg hpair)
      obtain rfl := List.mem_singleton.mp hpair
      exact .inl ⟨List.mem_singleton_self _, List.mem_singleton_self _⟩
    case h_10 =>
      obtain rfl := List.mem_singleton.mp (mem_of_given h hg hpair)
      obtain rfl := List.mem_singleton.mp hpair
      exact .inl ⟨List.mem_singleton_self _, List.mem_singleton_self _⟩
    case h_11 k v k' v' _ =>
      cases h
      have hcases : g = [(k, k')] ∨ g = [(v, v')] := by simpa using hg
      rcases hcases with rfl | rfl <;>
        obtain rfl := List.mem_singleton.mp hpair <;>
        exact .inl ⟨by simp [Schema.children], by simp [Schema.children]⟩
    case h_12 fs fs' _ =>
      cases h
      obtain ⟨f, hf, rfl⟩ := List.mem_map.mp hg
      cases hfield : Schema.field? f.1 fs' with
      | none => simp [hfield] at hpair
      | some f' =>
          obtain rfl : pair = (f.2, f') := by simpa [hfield] using hpair
          exact .inl ⟨List.mem_map_of_mem hf,
            List.mem_map_of_mem (Schema.mem_values_of_field? hfield)⟩
    all_goals
      cases h
      obtain rfl := List.mem_singleton.mp hg
      cases hpair

/-- A reference is resolved in its own place. -/
theorem through_of_demand
    {super sub : Schema} {path : Path} {next : Schema → Pair}
    (h : demand super sub = .through path next) :
    super = .reference path ∧ next = (fun target => (target, sub)) ∨
      sub = .reference path ∧ next = fun target => (super, target) := by
  unfold demand at h
  split at h
  · cases h
  · split at h <;> cases h
    · exact .inl ⟨rfl, rfl⟩
    · exact .inr ⟨rfl, rfl⟩

section Monadic

variable {m : Type → Type} [Monad m] {α β : Type}

theorem anyM_map (f : β → m Bool) (g : α → β) (xs : List α) :
    (xs.map g).anyM f = xs.anyM fun x => f (g x) := by
  induction xs with
  | nil => rfl
  | cons x xs ih => rw [List.map_cons, List.anyM_cons, List.anyM_cons, ih]

theorem allM_map (f : β → m Bool) (g : α → β) (xs : List α) :
    (xs.map g).allM f = xs.allM fun x => f (g x) := by
  induction xs with
  | nil => rfl
  | cons x xs ih => rw [List.map_cons, List.allM_cons, List.allM_cons, ih]

theorem ite_pure (condition : Bool) :
    (if condition then pure true else pure false : m Bool) =
      pure condition := by
  cases condition <;> rfl

variable [LawfulMonad m]

theorem anyM_singleton (f : α → m Bool) (x : α) : [x].anyM f = f x := by
  simp only [List.anyM_cons, List.anyM_nil, ite_pure, bind_pure]

theorem allM_singleton (f : α → m Bool) (x : α) : [x].allM f = f x := by
  simp only [List.allM_cons, List.allM_nil, ite_pure, bind_pure]

theorem allM_given (f : α → m Bool) (condition : Bool)
    (groups : List (List α)) :
    ((if condition then groups else [[]]).allM fun g => g.anyM f) =
      if condition then groups.allM fun g => g.anyM f else pure false := by
  cases condition with
  | true => rfl
  | false => simp

/-- One comparison does what its demand says. -/
theorem checkBy_eq [MonadReport m]
    (key : Schema → UInt64) (root : Option Schema)
    (nested : Schema → Schema → CheckT m Bool) (super sub : Schema) :
    checkBy key root nested super sub =
      match demand super.unwrap sub.unwrap with
      | .each groups => groups.allM fun g => g.anyM fun p => nested p.1 p.2
      | .through path next =>
        through key root super.unwrap sub.unwrap path fun target =>
          nested (next target).1 (next target).2 := by
  simp only [checkBy, demand]
  split
  · rfl
  · split <;>
      simp only [*, Demand.given, allM_given, allM_map, anyM_map,
        allM_singleton, anyM_singleton, List.allM_nil, List.anyM_nil,
        ite_pure]
    case h_11 => rw [List.allM_cons, allM_singleton, anyM_singleton,
      anyM_singleton]
    case h_12 fs fs' _ _ =>
      congr 1
      funext f
      cases Schema.field? f.1 fs' with
      | none => rfl
      | some f' => exact (anyM_singleton _ _).symm

end Monadic

def isAssumed (assumed : List Pair) (super sub : Schema) : Bool :=
  assumed.any fun p => p.1.same super && p.2.same sub

@[simp]
theorem isAssumed_iff (assumed : List Pair) (super sub : Schema) :
    isAssumed assumed super sub = true ↔ (super, sub) ∈ assumed := by
  simp [isAssumed, Schema.same_iff]

/-- Compares two schemas to a depth, with the assumed pairs in a list. -/
def verdict (root : Option Schema) :
    Nat → List Pair → Schema → Schema → Except Failure Bool
  | 0, _, _, _ => .error .exhausted
  | depth + 1, assumed, super, sub =>
    match demand super.unwrap sub.unwrap with
    | .each groups => groups.allM fun g => g.anyM fun p =>
      verdict root depth assumed p.1 p.2
    | .through path next =>
      if isAssumed assumed super.unwrap sub.unwrap then .ok true
      else
        match Schema.resolve root path with
        | .error cause => .error (.unresolved cause)
        | .ok target =>
          verdict root depth ((super.unwrap, sub.unwrap) :: assumed)
            (next target).1 (next target).2

section Verdict

variable {root : Option Schema} {depth : Nat} {assumed : List Pair}
  {super sub : Schema}

theorem verdict_each
    {groups : List (List Pair)}
    (hdemand : demand super.unwrap sub.unwrap = .each groups) :
    verdict root (depth + 1) assumed super sub =
      groups.allM fun g => g.anyM fun p =>
        verdict root depth assumed p.1 p.2 := by
  rw [verdict, hdemand]

variable {path : Path} {next : Schema → Pair}
  (hdemand : demand super.unwrap sub.unwrap = .through path next)

include hdemand

theorem verdict_assumed
    (hassumed : (super.unwrap, sub.unwrap) ∈ assumed) :
    verdict root (depth + 1) assumed super sub = .ok true := by
  rw [verdict, hdemand]
  exact if_pos ((isAssumed_iff _ _ _).mpr hassumed)

theorem verdict_unresolved
    (hassumed : (super.unwrap, sub.unwrap) ∉ assumed)
    {cause : DereferenceError}
    (hresolve : Schema.resolve root path = .error cause) :
    verdict root (depth + 1) assumed super sub =
      .error (.unresolved cause) := by
  rw [verdict, hdemand]
  simp [hassumed, hresolve]

theorem verdict_resolved
    (hassumed : (super.unwrap, sub.unwrap) ∉ assumed) {target : Schema}
    (hresolve : Schema.resolve root path = .ok target) :
    verdict root (depth + 1) assumed super sub =
      verdict root depth ((super.unwrap, sub.unwrap) :: assumed)
        (next target).1 (next target).2 := by
  rw [verdict, hdemand]
  simp [hassumed, hresolve]

end Verdict

namespace Assumptions

theorem lookup_push (k k' : Key) (pair : Pair) (table : Assumptions) :
    (push k pair table).lookup k' =
      if k' = k then some ((table.lookup k).getD [] ++ [pair])
      else table.lookup k' := by
  induction table with
  | nil =>
      by_cases hk : k' = k
      · simp [push, hk]
      · have hne : (k' == k) = false := by simpa using hk
        simp [push, List.lookup_cons, hk, hne]
  | cons entry rest ih =>
      obtain ⟨k₀, pairs⟩ := entry
      by_cases hk₀ : k₀ = k
      · subst hk₀
        by_cases hk : k' = k₀
        · simp [push, hk]
        · have hne : (k' == k₀) = false := by simpa using hk
          simp [push, List.lookup_cons, hk, hne]
      · have hne : (k == k₀) = false := by simpa using Ne.symm hk₀
        simp only [push, if_neg hk₀, List.lookup_cons, hne]
        by_cases hk' : k' = k₀
        · subst hk'
          simp [hk₀]
        · have hne' : (k' == k₀) = false := by simpa using hk'
          simp only [hne']
          exact ih

/-- No key is kept without pairs. -/
def Tidy (table : Assumptions) : Prop := ∀ entry ∈ table, entry.2 ≠ []

theorem tidy_nil : Tidy [] := by
  intro entry hentry
  cases hentry

theorem Tidy.push
    {table : Assumptions} (htidy : table.Tidy) (k : Key) (pair : Pair) :
    (push k pair table).Tidy := by
  induction table with
  | nil =>
      intro entry hentry
      simp only [Assumptions.push, List.mem_singleton] at hentry
      simp [hentry]
  | cons first rest ih =>
      obtain ⟨k₀, pairs⟩ := first
      have hfirst : pairs ≠ [] := htidy (k₀, pairs) List.mem_cons_self
      have hrest : Tidy rest := fun entry hentry =>
        htidy entry (List.mem_cons_of_mem _ hentry)
      intro entry hentry
      simp only [Assumptions.push] at hentry
      split at hentry
      · rcases List.mem_cons.mp hentry with rfl | hentry
        · simp
        · exact hrest entry hentry
      · rcases List.mem_cons.mp hentry with rfl | hentry
        · exact hfirst
        · exact ih hrest entry hentry

/-- The pair that was assumed last is taken out again. -/
theorem pop_push
    {table : Assumptions} (htidy : table.Tidy) (k : Key) (pair : Pair) :
    pop k (push k pair table) = table := by
  induction table with
  | nil => simp [push, pop]
  | cons first rest ih =>
      obtain ⟨k₀, pairs⟩ := first
      have hfirst : pairs ≠ [] := htidy (k₀, pairs) List.mem_cons_self
      have hrest : Tidy rest := fun entry hentry =>
        htidy entry (List.mem_cons_of_mem _ hentry)
      by_cases hk₀ : k₀ = k
      · have hlength : ¬ (pairs ++ [pair]).length ≤ 1 := by
          have hpos := List.length_pos_iff.mpr hfirst
          rw [List.length_append, List.length_singleton]
          omega
        simp only [push, if_pos hk₀, pop, if_neg hlength,
          List.dropLast_concat]
      · simp only [push, if_neg hk₀, pop, ih hrest]

/-- The table holds exactly the listed pairs, each under its own key. -/
def Lists (key : Schema → UInt64) (table : Assumptions)
    (assumed : List Pair) : Prop :=
  ∀ super sub, table.holds (key super, key sub) super sub =
    isAssumed assumed super sub

theorem lists_nil (key : Schema → UInt64) : Lists key [] [] :=
  fun _ _ => rfl

theorem Lists.push
    {key : Schema → UInt64} {table : Assumptions} {assumed : List Pair}
    (hlists : table.Lists key assumed) (super sub : Schema) :
    (push (key super, key sub) (super, sub) table).Lists key
      ((super, sub) :: assumed) := by
  intro super' sub'
  have hold := hlists super' sub'
  rw [Bool.eq_iff_iff, isAssumed_iff] at hold ⊢
  unfold holds at hold ⊢
  rw [lookup_push]
  by_cases hkey : (key super', key sub') = (key super, key sub)
  · have hlast := isAssumed_iff [(super, sub)] super' sub'
    rw [List.mem_singleton] at hlast
    rw [hkey] at hold ⊢
    rw [if_pos rfl, Option.getD_some, List.any_append, Bool.or_eq_true,
      hold, List.mem_cons, or_comm]
    exact or_congr hlast Iff.rfl
  · have hne : (super', sub') ≠ (super, sub) := by
      intro h
      cases h
      exact hkey rfl
    rw [if_neg hkey, hold, List.mem_cons]
    simp [hne]

end Assumptions

section Runs

variable {m : Type → Type} [Monad m]

/-- A comparison gives an answer and leaves the table as it was. -/
def Answers (comparison : CheckT m Bool) (table : Assumptions)
    (answer : Except Failure Bool) : Prop :=
  comparison.run.run table = pure (answer, table)

theorem answers_pure (table : Assumptions) (b : Bool) :
    Answers (pure b : CheckT m Bool) table (pure b) := rfl

variable [LawfulMonad m]

theorem Answers.bind
    {comparison : CheckT m Bool} {continuation : Bool → CheckT m Bool}
    {table : Assumptions} {answer : Except Failure Bool}
    {next : Bool → Except Failure Bool}
    (hfirst : Answers comparison table answer)
    (hnext : ∀ b, Answers (continuation b) table (next b)) :
    Answers (comparison >>= continuation) table (answer >>= next) := by
  unfold Answers at hfirst hnext ⊢
  rw [ExceptT.run_bind, StateT.run_bind, hfirst, pure_bind]
  cases answer with
  | error failure => rfl
  | ok b => exact hnext b

theorem Answers.anyM
    {α : Type} {comparison : α → CheckT m Bool} {table : Assumptions}
    {answer : α → Except Failure Bool}
    (h : ∀ x, Answers (comparison x) table (answer x)) (xs : List α) :
    Answers (xs.anyM comparison) table (xs.anyM answer) := by
  induction xs with
  | nil => exact answers_pure table false
  | cons x xs ih =>
      rw [List.anyM_cons, List.anyM_cons]
      refine (h x).bind fun b => ?_
      cases b with
      | true => exact answers_pure table true
      | false => exact ih

theorem Answers.allM
    {α : Type} {comparison : α → CheckT m Bool} {table : Assumptions}
    {answer : α → Except Failure Bool}
    (h : ∀ x, Answers (comparison x) table (answer x)) (xs : List α) :
    Answers (xs.allM comparison) table (xs.allM answer) := by
  induction xs with
  | nil => exact answers_pure table true
  | cons x xs ih =>
      rw [List.allM_cons, List.allM_cons]
      refine (h x).bind fun b => ?_
      cases b with
      | true => exact ih
      | false => exact answers_pure table false

theorem run_get_bind
    (continuation : Assumptions → CheckT m Bool) (table : Assumptions) :
    (get >>= continuation : CheckT m Bool).run.run table =
      (continuation table).run.run table := by
  have hget : (get : CheckT m Assumptions) =
      ExceptT.lift (get : StateT Assumptions m Assumptions) := rfl
  simp [hget]

/-- What a comparison under one more assumption leaves behind. -/
theorem run_assume
    (change restore : Assumptions → Assumptions)
    (comparison : CheckT m Bool) (table : Assumptions) :
    (do
        modify change
        ExceptT.mk do
          let answer ← comparison.run
          modify restore
          return answer : CheckT m Bool).run.run table =
      (fun r => (r.1, restore r.2)) <$>
        comparison.run.run (change table) := by
  have hmodify : (modify change : CheckT m PUnit) =
      ExceptT.lift (modify change : StateT Assumptions m PUnit) := rfl
  simp [hmodify]

variable [MonadReport m] [SilentReport m]

theorem answers_through
    {key : Schema → UInt64} {root : Option Schema} {super sub : Schema}
    {path : Path} {compareTarget : Schema → CheckT m Bool}
    {table : Assumptions} {assumed : List Pair}
    {answer : Schema → Except Failure Bool}
    (htidy : table.Tidy) (hlists : table.Lists key assumed)
    (htarget : ∀ target, Answers (compareTarget target)
      (table.push (key super, key sub) (super, sub)) (answer target)) :
    Answers (through key root super sub path compareTarget) table
      (if isAssumed assumed super sub then .ok true
        else
          match Schema.resolve root path with
          | .error cause => .error (.unresolved cause)
          | .ok target => answer target) := by
  unfold Answers at htarget ⊢
  rw [through, run_get_bind, Schema.resolveM_eq, pure_bind, hlists super sub]
  cases isAssumed assumed super sub with
  | true => rfl
  | false =>
      cases Schema.resolve root path with
      | error cause => rfl
      | ok target =>
          simp only [Bool.false_eq_true, if_false]
          rw [run_assume, htarget, map_pure, Assumptions.pop_push htidy]

/-- Filing the assumed pairs by keys changes no answer. -/
theorem answers_check
    (key : Schema → UInt64) (root : Option Schema) (depth : Nat)
    {table : Assumptions} {assumed : List Pair}
    (htidy : table.Tidy) (hlists : table.Lists key assumed)
    (super sub : Schema) :
    Answers (check key root depth super sub : CheckT m Bool) table
      (verdict root depth assumed super sub) := by
  induction depth generalizing table assumed super sub with
  | zero => rfl
  | succ depth ih =>
      rw [check, checkBy_eq, verdict]
      cases demand super.unwrap sub.unwrap with
      | each groups =>
          apply Answers.allM
          intro group
          apply Answers.anyM
          intro pair
          exact ih htidy hlists pair.1 pair.2
      | through path next =>
          apply answers_through htidy hlists
          intro target
          exact ih (htidy.push _ _) (hlists.push _ _) _ _

/-- The keys that the assumed pairs are filed under change no answer. -/
theorem isSubtypeInM_eq
    (key : Schema → UInt64) (super sub : Schema) (root : Option Schema) :
    (super.isSubtypeInM key sub root : m _) =
      pure (answerOf (verdict root (depthBound super sub root) [] super sub))
      := by
  have hrun : Answers
      (check key root (depthBound super sub root) super sub : CheckT m Bool) []
      (verdict root (depthBound super sub root) [] super sub) :=
    answers_check _ _ _ Assumptions.tidy_nil (Assumptions.lists_nil _) _ _
  unfold Answers at hrun
  simp only [Schema.isSubtypeInM, hrun, pure_bind, report_eq]

end Runs

/-- The comparison of two schemas in a root, without a table. -/
theorem isSubtypeIn_eq_verdict
    (super sub : Schema) (root : Option Schema) :
    super.isSubtypeIn sub root =
      answerOf (verdict root (depthBound super sub root) [] super sub) :=
  congrArg Id.run (isSubtypeInM_eq Schema.hash super sub root)

theorem isSubtypeIn_self (s : Schema) (root : Option Schema) :
    s.isSubtypeIn s root = .ok true := by
  have hdemand : demand s.unwrap s.unwrap = .each [] := by
    simp [demand, Schema.same_iff]
  have hbound : ∃ depth, depthBound s s root = depth + 1 := by
    refine Nat.exists_eq_add_one.mpr ?_
    simp [depthBound]
  obtain ⟨depth, hdepth⟩ := hbound
  rw [isSubtypeIn_eq_verdict, hdepth, verdict_each hdemand]
  rfl

end Schemata.Subtyping
