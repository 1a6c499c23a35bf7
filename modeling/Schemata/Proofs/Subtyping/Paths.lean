import Schemata.Proofs.Subtyping.Exactness

/-!
# Subtyping along paths

A schema that a segment can be applied to is neither a union nor a reference,
so a comparison of two such schemas goes on with the schemas inside, under no
assumption.  Where it succeeds, the comparison of what the segment selects on
both sides was one of its parts, or the two sides are the same.
-/

namespace Schemata.Subtyping

variable {root : Option Schema} {super sub : Schema}

/-- Comparing two schemas in a root succeeds, and they are related. -/
def Accepts (root : Option Schema) (super sub : Schema) : Prop :=
  super.isSubtypeIn sub root = .ok true

theorem accepts_iff_verdict
    {depth : Nat} (hdepth : depthBound super sub root ≤ depth) :
    Accepts root super sub ↔ verdict root depth [] super sub = .ok true := by
  rw [Accepts, verdict_eq_isSubtypeIn hdepth]
  cases super.isSubtypeIn sub root <;> simp [Except.mapError]

theorem depthBound_le
    {a b : Schema} (root : Option Schema)
    (h : a.weight + b.weight ≤ super.weight + sub.weight) :
    depthBound a b root ≤ depthBound super sub root := by
  have htotal : a.weight + b.weight + root.elim 0 Schema.weight ≤
      super.weight + sub.weight + root.elim 0 Schema.weight := by
    omega
  have hsquare := Nat.mul_le_mul htotal htotal
  exact Nat.mul_le_mul (by omega) (by omega)

theorem exists_of_anyM_true
    {ε α : Type} {f : α → Except ε Bool} {xs : List α}
    (h : xs.anyM f = .ok true) : ∃ x ∈ xs, f x = .ok true := by
  refine (anyM_eq_true_iff ?_ h).mp rfl
  intro x _ b hb
  simp [hb]

theorem forall_of_allM_true
    {ε α : Type} {f : α → Except ε Bool} {xs : List α}
    (h : xs.allM f = .ok true) : ∀ x ∈ xs, f x = .ok true := by
  refine (allM_eq_true_iff ?_ h).mp rfl
  intro x _ b hb
  simp [hb]

theorem accepts_self (root : Option Schema) (s : Schema) :
    Accepts root s s :=
  isSubtypeIn_self s root

/-- A comparison that is accepted without resolving a reference has an
accepted comparison in every group it asks for. -/
theorem Accepts.met
    (h : Accepts root super sub) {groups : List (List Pair)}
    (hdemand : demand super.unwrap sub.unwrap = .each groups) :
    ∀ g ∈ groups, ∃ pair ∈ g, Accepts root pair.1 pair.2 := by
  intro g hg
  have hverdict := (accepts_iff_verdict (Nat.le_succ _)).mp h
  rw [verdict_each hdemand] at hverdict
  obtain ⟨pair, hpair, haccepted⟩ :=
    exists_of_anyM_true (forall_of_allM_true hverdict g hg)
  refine ⟨pair, hpair, (accepts_iff_verdict (depthBound_le root ?_)).mpr
    haccepted⟩
  have hdown := (descends_of_demand hdemand hg hpair).weight_lt
  have hsuper := super.weight_unwrap_le
  have hsub := sub.weight_unwrap_le
  omega

theorem Accepts.justified
    (h : Accepts root super sub) (hsuper : super.unwrap.kind ≠ .reference)
    (hsub : sub.unwrap.kind ≠ .reference) :
    Justified root (Accepts root) super.unwrap sub.unwrap := by
  apply justified_of_met
  cases hdemand : demand super.unwrap sub.unwrap with
  | each groups => exact h.met hdemand
  | through path next =>
      rcases through_of_demand hdemand with ⟨href, _⟩ | ⟨href, _⟩
      · rw [href] at hsuper
        exact absurd rfl hsuper
      · rw [href] at hsub
        exact absurd rfl hsub

theorem Accepts.tensor
    {items items' : Schema} (h : Accepts root items items')
    (dimensions : List Nat) :
    Accepts root (.tensor items dimensions) (.tensor items' dimensions) := by
  by_cases hsame : items = items'
  · rw [hsame]
    exact accepts_self root _
  · have hdemand : demand (Schema.tensor items dimensions).unwrap
        (Schema.tensor items' dimensions).unwrap =
          .each [[(items, items')]] := by
      simp [demand, Schema.unwrap, Schema.same_iff, Schema.kind, hsame,
        Demand.given]
    have hdown : depthBound items items' root ≤
        depthBound (.tensor items dimensions) (.tensor items' dimensions)
          root := by
      apply depthBound_le
      simp only [Schema.weight]
      omega
    rw [accepts_iff_verdict (Nat.le_succ _), verdict_each hdemand,
      allM_singleton, anyM_singleton]
    exact (accepts_iff_verdict hdown).mp h

/-- Schemas that a segment can be applied to are the same or related by the
rule for their kind. -/
theorem Accepts.same_or_alike
    (h : Accepts root super sub) {segment : Segment} {a b : Schema}
    (ha : super.Selects segment a) (hb : sub.Selects segment b) :
    super = sub ∨ Alike (Accepts root) super sub := by
  obtain ⟨hunion, hreference⟩ := ha.kind_ne
  obtain ⟨hunion', hreference'⟩ := hb.kind_ne
  have hsuper := Schema.unwrap_of_kind_ne_union hunion
  have hsub := Schema.unwrap_of_kind_ne_union hunion'
  have hjustified : Justified root (Accepts root) super sub := by
    have hopened := h.justified (by rwa [hsuper]) (by rwa [hsub])
    rwa [hsuper, hsub] at hopened
  cases hjustified with
  | anything => cases ha
  | same => exact .inl rfl
  | nothing => cases hb
  | superReference => exact absurd rfl hreference
  | superUnion => exact absurd rfl hunion
  | subReference => exact absurd rfl hreference'
  | subUnion => exact absurd rfl hunion'
  | alike halike => exact .inr halike

theorem Alike.selected
    (h : Alike (Accepts root) super sub) {segment : Segment} {a b : Schema}
    (ha : super.Selects segment a) (hb : sub.Selects segment b) :
    Accepts root a b := by
  induction ha generalizing sub with
  | behind hselects ih =>
      cases h with
      | tensor hitems =>
          cases hb with
          | behind hselects' =>
              rcases hitems.same_or_alike hselects hselects' with rfl | halike
              · rw [hselects.unique hselects']
                exact accepts_self root _
              · exact ih halike hselects'
  | element =>
      cases h with
      | tensor hitems =>
          cases hb
          exact hitems
  | slice =>
      cases h with
      | tensor hitems =>
          cases hb
          exact hitems.tensor _
  | item =>
      cases h with
      | collection _ _ hitems =>
          cases hb
          exact hitems
  | value =>
      cases h with
      | mapping _ hvalues =>
          cases hb
          exact hvalues
  | field hfield =>
      cases h with
      | record hfields =>
          cases hb with
          | field hfield' =>
              obtain ⟨f', hf', haccepts⟩ :=
                hfields _ (Schema.mem_values_of_field? hfield)
              rw [hfield'] at hf'
              cases hf'
              exact haccepts

/-- What one segment selects on both sides is related if the two sides are. -/
theorem Accepts.selected
    (h : Accepts root super sub) {segment : Segment} {a b : Schema}
    (ha : super.Selects segment a) (hb : sub.Selects segment b) :
    Accepts root a b := by
  rcases h.same_or_alike ha hb with rfl | halike
  · rw [ha.unique hb]
    exact accepts_self root b
  · exact halike.selected ha hb

/-- Following one path on both sides of a comparison that succeeds leads to a
comparison that succeeds. -/
theorem isSubtypeIn_dereference
    {a b : Schema} {path : Path}
    (h : super.isSubtypeIn sub root = .ok true)
    (ha : super.dereference path = .ok a)
    (hb : sub.dereference path = .ok b) :
    a.isSubtypeIn b root = .ok true := by
  refine Schema.dereferenceFrom_related (R := Accepts root) ?_ h ha hb
  intro super sub segment a b haccepts hselectsA hselectsB
  exact haccepts.selected hselectsA hselectsB

set_option maxRecDepth 4000 in
/-- Half way into tensors of references to chains of wide and of narrow links,
which refer to themselves. -/
theorem isSubtypeIn_dereference_chains :
    let wide := Schema.reference [.field [0x77]]
    let narrow := Schema.reference [.field [0x6E]]
    let super := Schema.record [([0x74], .tensor wide [2, 3])]
    let sub := Schema.record
      [([0x73], .boolean), ([0x74], .tensor narrow [2, 3])]
    let path : Path := [.field [0x74], .index 1]
    (super.isSubtypeIn sub (some chains) = .ok true ∧
      super.dereference path = .ok (.tensor wide [3]) ∧
      sub.dereference path = .ok (.tensor narrow [3])) ∧
      (Schema.tensor wide [3]).isSubtypeIn (.tensor narrow [3])
        (some chains) = .ok true := by
  intro wide narrow super sub path
  have hsubtype : super.isSubtypeIn sub (some chains) = .ok true := rfl
  have hsuper : super.dereference path = .ok (.tensor wide [3]) := rfl
  have hsub : sub.dereference path = .ok (.tensor narrow [3]) := rfl
  exact ⟨⟨hsubtype, hsuper, hsub⟩,
    isSubtypeIn_dereference hsubtype hsuper hsub⟩

end Schemata.Subtyping
