import Schemata.Proofs.Subtyping.Plain
import Mathlib.Order.FixedPoints

/-!
# The rules of subtyping

Subtyping is the greatest relation whose pairs are all justified by a rule
from pairs of the relation, after unions of one possibility have been opened.
The rules stand here in the order in which they are tried.  The first three
accept outright; from the fourth on the shape of the two sides decides which
one applies.  A rule for the subtype's shape therefore asks that no rule for
the supertype's shape came before it.
-/

namespace Schemata

/-- The schemas that no rule looks through when they are the supertype. -/
def Schema.Definite (s : Schema) : Prop :=
  s.kind ≠ .nothing ∧ s.kind ≠ .reference ∧ s.kind ≠ .union

/-- What a schema chooses from: the possibilities of a union, or itself. -/
def Schema.alternatives : Schema → List Schema
  | .union possibilities => possibilities
  | s => [s]

theorem Schema.alternatives_of_ne_union
    {s : Schema} (hs : ∀ ps, s ≠ .union ps) : s.alternatives = [s] := by
  cases s with
  | union ps => exact absurd rfl (hs ps)
  | _ => rfl

namespace Subtyping

/-- How schemas of one kind are justified by pairs of a relation. -/
inductive Alike (R : Schema → Schema → Prop) : Schema → Schema → Prop
  | number {whole whole' signed : Bool} {nbytes nbytes' : Nat} :
      (whole = true → whole' = true) → nbytes' ≤ nbytes →
      Alike R (.number whole signed nbytes) (.number whole' signed nbytes')
  | string {charset : Bytes} {maxLength maxLength' : Option Nat} :
      (∀ n ∈ maxLength, ∃ n' ∈ maxLength', n' ≤ n) →
      Alike R (.string charset maxLength) (.string charset maxLength')
  | tensor {items items' : Schema} {dimensions : List Nat} :
      R items items' →
      Alike R (.tensor items dimensions) (.tensor items' dimensions)
  | collection {items items' : Schema} {ordered ordered' : Bool}
      {maxLength maxLength' : Option Nat} :
      (ordered = true → ordered' = true) →
      (∀ n ∈ maxLength, ∃ n' ∈ maxLength', n' ≤ n) → R items items' →
      Alike R (.collection items ordered maxLength)
        (.collection items' ordered' maxLength')
  | mapping {keys values keys' values' : Schema} :
      R keys keys' → R values values' →
      Alike R (.mapping keys values) (.mapping keys' values')
  | record {fields fields' : List (Bytes × Schema)} :
      (∀ f ∈ fields, ∃ f', Schema.field? f.1 fields' = some f' ∧
        R f.2 f') →
      Alike R (.record fields) (.record fields')

/-- How a supertype and a subtype are justified by pairs of a relation. -/
inductive Justified (root : Option Schema) (R : Schema → Schema → Prop) :
    Schema → Schema → Prop
  | anything (sub : Schema) : Justified root R .anything sub
  | same (s : Schema) : Justified root R s s
  | nothing (super : Schema) : Justified root R super .nothing
  | superReference {path : Path} {target sub : Schema} :
      Schema.resolve root path = .ok target → R target sub →
      Justified root R (.reference path) sub
  | superUnion {ps : List Schema} {sub : Schema} :
      (∀ q ∈ sub.alternatives, ∃ p ∈ ps, R p q) →
      Justified root R (.union ps) sub
  | subReference {super target : Schema} {path : Path} :
      super.Definite → Schema.resolve root path = .ok target →
      R super target → Justified root R super (.reference path)
  | subUnion {super q : Schema} {qs : List Schema} :
      super.Definite → q ∈ qs → R super q →
      Justified root R super (.union qs)
  | alike {super sub : Schema} :
      Alike R super sub → Justified root R super sub

theorem Alike.definite
    {R : Schema → Schema → Prop} {super sub : Schema}
    (h : Alike R super sub) : super.Definite := by
  cases h <;> simp [Schema.Definite, Schema.kind]

theorem Alike.mono
    {R R' : Schema → Schema → Prop} (hle : ∀ a b, R a b → R' a b)
    {super sub : Schema} (h : Alike R super sub) : Alike R' super sub := by
  cases h with
  | number hwhole hwidth => exact .number hwhole hwidth
  | string hlength => exact .string hlength
  | tensor hR => exact .tensor (hle _ _ hR)
  | collection hordered hlength hR =>
      exact .collection hordered hlength (hle _ _ hR)
  | mapping hkeys hvalues => exact .mapping (hle _ _ hkeys) (hle _ _ hvalues)
  | record hfields =>
      refine .record fun f hf => ?_
      obtain ⟨f', hf', hR⟩ := hfields f hf
      exact ⟨f', hf', hle _ _ hR⟩

theorem Justified.mono
    {root : Option Schema} {R R' : Schema → Schema → Prop}
    (hle : ∀ a b, R a b → R' a b) {super sub : Schema}
    (h : Justified root R super sub) : Justified root R' super sub := by
  cases h with
  | anything => exact .anything _
  | same => exact .same _
  | nothing => exact .nothing _
  | superReference hresolve hR => exact .superReference hresolve (hle _ _ hR)
  | superUnion hall =>
      refine .superUnion fun q hq => ?_
      obtain ⟨p, hp, hR⟩ := hall q hq
      exact ⟨p, hp, hle _ _ hR⟩
  | subReference hdefinite hresolve hR =>
      exact .subReference hdefinite hresolve (hle _ _ hR)
  | subUnion hdefinite hq hR => exact .subUnion hdefinite hq (hle _ _ hR)
  | alike halike => exact .alike (halike.mono hle)

/-- What the rules justify from a relation, on opened schemas. -/
def rules (root : Option Schema) :
    (Schema → Schema → Prop) →o (Schema → Schema → Prop) where
  toFun R super sub := Justified root R super.unwrap sub.unwrap
  monotone' _ _ hle _ _ h := h.mono hle

/-- Subtyping with references resolved in `root`: the greatest relation that
the rules justify from itself. -/
def Covers (root : Option Schema) : Schema → Schema → Prop := (rules root).gfp

theorem covers_iff (root : Option Schema) (super sub : Schema) :
    Covers root super sub ↔
      Justified root (Covers root) super.unwrap sub.unwrap := by
  have hfixed : rules root (Covers root) = Covers root := (rules root).map_gfp
  exact (iff_of_eq (congrFun (congrFun hfixed super) sub)).symm

theorem covers_unwrap_iff (root : Option Schema) (super sub : Schema) :
    Covers root super.unwrap sub.unwrap ↔ Covers root super sub := by
  rw [covers_iff, covers_iff root super sub, Schema.unwrap_unwrap,
    Schema.unwrap_unwrap]

/-- Whether a relation gives what a comparison asks for. -/
def Demand.Met (root : Option Schema) (R : Schema → Schema → Prop) :
    Demand → Prop
  | .each groups => ∀ g ∈ groups, ∃ p ∈ g, R p.1 p.2
  | .through path next => ∃ target, Schema.resolve root path = .ok target ∧
    R (next target).1 (next target).2

theorem met_given
    {root : Option Schema} {R : Schema → Schema → Prop} {condition : Bool}
    {groups : List (List Pair)} :
    (Demand.given condition groups).Met root R ↔
      condition = true ∧ ∀ g ∈ groups, ∃ p ∈ g, R p.1 p.2 := by
  cases condition <;> simp [Demand.given, Demand.Met]

theorem coversNumber_iff
    {whole signed whole' signed' : Bool} {nbytes nbytes' : Nat} :
    coversNumber whole signed nbytes whole' signed' nbytes' = true ↔
      (whole = true → whole' = true) ∧ signed = signed' ∧
        nbytes' ≤ nbytes := by
  cases whole <;> cases whole' <;> simp [coversNumber]

theorem coversLength_iff {maxLength maxLength' : Option Nat} :
    coversLength maxLength maxLength' = true ↔
      ∀ n ∈ maxLength, ∃ n' ∈ maxLength', n' ≤ n := by
  cases maxLength <;> cases maxLength' <;> simp [coversLength]

theorem definite_of_ne
    {s : Schema} (hnothing : s = .nothing → False)
    (hreference : ∀ path, s = .reference path → False)
    (hunion : ∀ ps, s = .union ps → False) : s.Definite := by
  cases s with
  | nothing => exact (hnothing rfl).elim
  | reference path => exact (hreference path rfl).elim
  | union ps => exact (hunion ps rfl).elim
  | _ => simp [Schema.Definite, Schema.kind]

theorem justified_of_outright
    {root : Option Schema} {R : Schema → Schema → Prop} {super sub : Schema}
    (h : (super.kind = .anything ∨ super = sub) ∨ sub.kind = .nothing) :
    Justified root R super sub := by
  rcases h with (h | rfl) | h
  · cases super <;> simp only [Schema.kind, reduceCtorEq] at h
    exact .anything sub
  · exact .same super
  · cases sub <;> simp only [Schema.kind, reduceCtorEq] at h
    exact .nothing super

theorem Alike.met
    {root : Option Schema} {R : Schema → Schema → Prop} {super sub : Schema}
    (h : Alike R super sub) : (demand super sub).Met root R := by
  unfold demand
  split
  · simp [Demand.Met]
  · cases h with
    | number hwhole hwidth =>
        exact met_given.mpr
          ⟨coversNumber_iff.mpr ⟨hwhole, rfl, hwidth⟩, by simp⟩
    | string hlength =>
        exact met_given.mpr ⟨by simp [coversLength_iff.mpr hlength], by simp⟩
    | tensor hR => exact met_given.mpr ⟨by simp, by simpa using hR⟩
    | collection hordered hlength hR =>
        refine met_given.mpr ⟨?_, by simpa using hR⟩
        rw [coversLength_iff.mpr hlength, Bool.and_true, Bool.not_eq_true',
          Bool.and_eq_false_iff, Bool.not_eq_false']
        exact or_iff_not_imp_left.mpr fun h => hordered (by simpa using h)
    | mapping hkeys hvalues => simp [Demand.Met, hkeys, hvalues]
    | record hfields =>
        intro g hg
        obtain ⟨f, hf, rfl⟩ := List.mem_map.mp hg
        obtain ⟨f', hf', hR⟩ := hfields f hf
        simp only [hf']
        exact ⟨_, List.mem_singleton_self _, hR⟩

theorem Justified.met
    {root : Option Schema} {R : Schema → Schema → Prop} {super sub : Schema}
    (h : Justified root R super sub) : (demand super sub).Met root R := by
  by_cases houtright : (decide (super.kind = .anything) ||
      super.same sub || decide (sub.kind = .nothing)) = true
  · simp [demand, houtright, Demand.Met]
  · cases h with
    | anything => exact absurd (by simp [Schema.kind]) houtright
    | same => exact absurd (by simp [Schema.same_iff]) houtright
    | nothing => exact absurd (by simp [Schema.kind]) houtright
    | superReference hresolve hR =>
        unfold demand
        rw [if_neg houtright]
        exact ⟨_, hresolve, hR⟩
    | superUnion hall =>
        unfold demand
        rw [if_neg houtright]
        cases sub with
        | union qs =>
            intro g hg
            obtain ⟨q, hq, rfl⟩ := List.mem_map.mp hg
            obtain ⟨p, hp, hR⟩ := hall q hq
            exact ⟨(p, q), List.mem_map_of_mem hp, hR⟩
        | _ =>
            intro g hg
            obtain rfl := List.mem_singleton.mp hg
            obtain ⟨p, hp, hR⟩ := hall _ (List.mem_singleton_self _)
            exact ⟨_, List.mem_map_of_mem hp, hR⟩
    | subReference hdefinite hresolve hR =>
        unfold demand
        rw [if_neg houtright]
        cases super <;>
          first
          | exact ⟨_, hresolve, hR⟩
          | simp [Schema.Definite, Schema.kind] at hdefinite
    | @subUnion _ q qs hdefinite hq hR =>
        have hmet : (Demand.each [qs.map fun q => (super, q)]).Met root R := by
          intro g hg
          obtain rfl := List.mem_singleton.mp hg
          exact ⟨_, List.mem_map_of_mem hq, hR⟩
        unfold demand
        rw [if_neg houtright]
        cases super <;>
          first
          | exact hmet
          | simp [Schema.Definite, Schema.kind] at hdefinite
    | alike halike => exact halike.met

theorem justified_of_met
    {root : Option Schema} {R : Schema → Schema → Prop} {super sub : Schema}
    (h : (demand super sub).Met root R) : Justified root R super sub := by
  unfold demand at h
  split at h
  · rename_i houtright
    simp only [Bool.or_eq_true, decide_eq_true_eq, Schema.same_iff]
      at houtright
    exact justified_of_outright houtright
  · split at h
    case h_2 =>
      obtain ⟨target, hresolve, hR⟩ := h
      exact .superReference hresolve hR
    case h_3 =>
      refine .superUnion fun q hq => ?_
      obtain ⟨pair, hpair, hR⟩ := h _ (List.mem_map_of_mem hq)
      obtain ⟨p, hp, rfl⟩ := List.mem_map.mp hpair
      exact ⟨p, hp, hR⟩
    case h_4 hnotUnion =>
      have halone := Schema.alternatives_of_ne_union hnotUnion
      obtain ⟨pair, hpair, hR⟩ := h _ (List.mem_singleton_self _)
      obtain ⟨p, hp, rfl⟩ := List.mem_map.mp hpair
      refine .superUnion fun q hq => ?_
      rw [halone, List.mem_singleton] at hq
      rw [hq]
      exact ⟨p, hp, hR⟩
    case h_5 hnothing hreference hunion _ =>
      obtain ⟨target, hresolve, hR⟩ := h
      exact .subReference (definite_of_ne hnothing hreference hunion)
        hresolve hR
    case h_6 hnothing hreference hunion _ =>
      obtain ⟨pair, hpair, hR⟩ := h _ (List.mem_singleton_self _)
      obtain ⟨q, hq, rfl⟩ := List.mem_map.mp hpair
      exact .subUnion (definite_of_ne hnothing hreference hunion) hq hR
    case h_7 =>
      obtain ⟨hwhole, rfl, hwidth⟩ :=
        coversNumber_iff.mp (met_given.mp h).1
      exact .alike (.number hwhole hwidth)
    case h_8 =>
      have hcovers := (met_given.mp h).1
      rw [Bool.and_eq_true, beq_iff_eq, coversLength_iff] at hcovers
      obtain ⟨rfl, hlength⟩ := hcovers
      exact .alike (.string hlength)
    case h_9 =>
      obtain ⟨hdimensions, hpairs⟩ := met_given.mp h
      obtain rfl := beq_iff_eq.mp hdimensions
      exact .alike (.tensor (by simpa using hpairs))
    case h_10 =>
      obtain ⟨hcovers, hpairs⟩ := met_given.mp h
      rw [Bool.and_eq_true, coversLength_iff] at hcovers
      refine .alike (.collection ?_ hcovers.2 (by simpa using hpairs))
      intro hordered
      simpa [hordered] using hcovers.1
    case h_11 =>
      have hpairs := h
      simp only [Demand.Met, List.mem_cons, List.not_mem_nil, or_false,
        forall_eq_or_imp, forall_eq, exists_eq_left] at hpairs
      exact .alike (.mapping hpairs.1 hpairs.2)
    case h_12 fs fs' _ =>
      refine .alike (.record fun f hf => ?_)
      obtain ⟨pair, hpair, hR⟩ := h _ (List.mem_map_of_mem hf)
      cases hfield : Schema.field? f.1 fs' with
      | none => simp [hfield] at hpair
      | some f' =>
          obtain rfl : pair = (f.2, f') := by simpa [hfield] using hpair
          exact ⟨f', rfl, hR⟩
    all_goals
      obtain ⟨pair, hpair, _⟩ := h _ (List.mem_singleton_self _)
      cases hpair

/-- A comparison asks for exactly what the rules ask for. -/
theorem justified_iff_met
    (root : Option Schema) (R : Schema → Schema → Prop)
    (super sub : Schema) :
    Justified root R super sub ↔ (demand super sub).Met root R :=
  ⟨Justified.met, justified_of_met⟩

end Subtyping

end Schemata
