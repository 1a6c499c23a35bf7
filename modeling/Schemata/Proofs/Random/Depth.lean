import Schemata.Proofs.Random.Script

/-!
# How deep random schemas are

A random schema is drawn in at most the layers asked for.  Each layer is built
from schemas of the layers below, so the schema has no reference anywhere, its
unions all have a possibility, and it is nested no deeper than its layers.  A
union takes the possibilities of the unions it is given in their place, which
only makes it flatter, and one of them is always left.  Collections inside
collections show that the bound on the depth is reached.
-/

namespace Schemata

namespace Schema

mutual

/-- How deep a schema is: nothing without schemas inside, else one more than
the deepest of them. -/
def nesting : Schema → Nat
  | .tensor items _ => items.nesting + 1
  | .collection items _ _ => items.nesting + 1
  | .mapping keys values => max keys.nesting values.nesting + 1
  | .record fields => fieldsNesting fields + 1
  | .union possibilities => allNesting possibilities + 1
  | _ => 0

def allNesting : List Schema → Nat
  | [] => 0
  | p :: ps => max p.nesting (allNesting ps)

def fieldsNesting : List (Bytes × Schema) → Nat
  | [] => 0
  | (_, f) :: rest => max f.nesting (fieldsNesting rest)

end

theorem allNesting_le_iff {ps : List Schema} {depth : Nat} :
    allNesting ps ≤ depth ↔ ∀ p ∈ ps, p.nesting ≤ depth := by
  induction ps with
  | nil => simp [allNesting]
  | cons p ps ih => simp [allNesting, ih]

theorem fieldsNesting_eq (fields : List (Bytes × Schema)) :
    fieldsNesting fields = allNesting (fields.map Prod.snd) := by
  induction fields with
  | nil => rfl
  | cons f rest ih => simp [fieldsNesting, allNesting, ih]

/-- A schema is one deeper than its deepest child. -/
theorem nesting_le_succ_iff {s : Schema} {depth : Nat} :
    s.nesting ≤ depth + 1 ↔ ∀ c ∈ s.children, c.nesting ≤ depth := by
  cases s with
  | record fields =>
      simp only [nesting, children, fieldsNesting_eq, Nat.add_le_add_iff_right,
        allNesting_le_iff]
  | _ => simp [nesting, children, allNesting_le_iff]

theorem eq_or_mem_parts_of_child
    {s p : Schema} (hp : p ∈ s.parts) (hkind : p.kind ≠ .tensor) :
    p = s ∨ ∃ c ∈ s.children, p ∈ c.parts := by
  rw [parts_eq] at hp
  rcases List.mem_append.mp hp with hcut | hinside
  · exact .inl (eq_of_mem_cuts hcut hkind)
  · exact .inr (List.mem_flatMap.mp hinside)

theorem Offers.nesting_le {s q : Schema} (h : s.Offers q) :
    q.nesting ≤ s.nesting := by
  induction h with
  | itself => exact le_rfl
  | @possibility ps p q hp _ ih =>
      have hall : p.nesting ≤ allNesting ps := allNesting_le_iff.mp le_rfl p hp
      rw [nesting]
      omega

end Schema

namespace Random

open Schema

/-- No reference and no union without possibilities is in a schema, and it is
not deeper than some depth. -/
structure Bounded (depth : Nat) (s : Schema) : Prop where
  referenceFree : s.ReferenceFree
  ne_emptyUnion : ∀ p ∈ s.parts, p ≠ .union []
  nesting_le : s.nesting ≤ depth

namespace Bounded

variable {depth : Nat} {s q : Schema}

theorem of_atom
    (hparts : s.parts = [s]) (hnesting : s.nesting = 0)
    (hkind : s.kind ≠ .reference) (hunion : s ≠ .union []) :
    Bounded depth s where
  referenceFree := by simpa [ReferenceFree, hparts] using hkind
  ne_emptyUnion := by simpa [hparts] using hunion
  nesting_le := by simp [hnesting]

theorem of_children
    (hkind : s.kind ≠ .reference) (hunion : s ≠ .union [])
    (hchildren : ∀ c ∈ s.children, Bounded depth c) :
    Bounded (depth + 1) s where
  referenceFree := by
    intro p hp hreference
    rcases eq_or_mem_parts_of_child hp (by simp [hreference])
      with rfl | ⟨c, hc, hpart⟩
    · exact hkind hreference
    · exact (hchildren c hc).referenceFree p hpart hreference
  ne_emptyUnion := by
    rintro p hp rfl
    rcases eq_or_mem_parts_of_child hp (by simp [kind])
      with hself | ⟨c, hc, hpart⟩
    · exact hunion hself.symm
    · exact (hchildren c hc).ne_emptyUnion _ hpart rfl
  nesting_le := nesting_le_succ_iff.mpr fun c hc => (hchildren c hc).nesting_le

theorem mono
    {more : Nat} (hs : Bounded depth s) (h : depth ≤ more) :
    Bounded more s where
  referenceFree := hs.referenceFree
  ne_emptyUnion := hs.ne_emptyUnion
  nesting_le := hs.nesting_le.trans h

theorem offers (hs : Bounded depth s) (h : s.Offers q) : Bounded depth q where
  referenceFree := hs.referenceFree.part h.mem_parts
  ne_emptyUnion := fun p hp =>
    hs.ne_emptyUnion p (parts_subset_of_mem_parts h.mem_parts hp)
  nesting_le := h.nesting_le.trans hs.nesting_le

/-- There is something in every union inside a union, down to the last. -/
theorem exists_offers (hs : Bounded depth s) : ∃ q, s.Offers q := by
  have hne := hs.ne_emptyUnion
  clear hs
  induction s using childrenInduction with
  | step s ih =>
      by_cases hkind : s.kind = .union
      · cases s with
        | union ps =>
            cases ps with
            | nil => exact absurd rfl (hne _ (self_mem_parts _))
            | cons p ps =>
                have hp : p ∈ (union (p :: ps)).children := List.mem_cons_self
                have hparts :=
                  parts_subset_of_mem_parts (mem_parts_of_mem_children hp)
                obtain ⟨q, hq⟩ := ih p hp fun r hr => hne r (hparts hr)
                exact ⟨q, .possibility List.mem_cons_self hq⟩
        | _ => cases hkind
      · exact ⟨s, .itself hkind⟩

end Bounded

theorem possibilities_ne_nil
    {depth : Nat} {given : List Schema} (hne : given ≠ [])
    (hgiven : ∀ p ∈ given, Bounded depth p) :
    Union.possibilities given ≠ [] := by
  obtain ⟨p, hp⟩ := List.exists_mem_of_ne_nil given hne
  obtain ⟨q, hq⟩ := (hgiven p hp).exists_offers
  obtain ⟨r, hr, _⟩ := Union.exists_chain_of_offered ⟨p, hp, hq⟩
  exact List.ne_nil_of_mem hr

theorem Drawn.bounded {depth : Nat} {s : Schema} (h : Drawn depth s) :
    Bounded depth s := by
  induction h with
  | anything | nothing | null | boolean =>
      exact .of_atom rfl rfl (by decide) (by simp)
  | number hbuild =>
      obtain ⟨n, _, _, rfl⟩ := Build.number_eq_ok_iff.mp hbuild
      exact .of_atom rfl rfl (by simp [kind]) (by simp)
  | string hbuild =>
      obtain ⟨_, bound, _, rfl⟩ := Build.string_eq_ok_iff.mp hbuild
      exact .of_atom rfl rfl (by simp [kind]) (by simp)
  | tensor _ hbuild ih =>
      obtain ⟨ds, _, _, _, rfl⟩ := Build.tensor_eq_ok_iff.mp hbuild
      exact .of_children (by simp [kind]) (by simp) (by simpa [children])
  | collection _ hbuild ih =>
      obtain ⟨bound, _, rfl⟩ := Build.collection_eq_ok_iff.mp hbuild
      exact .of_children (by simp [kind]) (by simp) (by simpa [children])
  | mapping _ _ hbuild ihkeys ihvalues =>
      cases hbuild
      refine .of_children (by simp [kind]) (by simp) ?_
      simp [children, ihkeys.mono (Nat.zero_le _), ihvalues]
  | record _ hbuild ih =>
      obtain ⟨fs, hentries, _, rfl⟩ := Build.record_eq_ok_iff.mp hbuild
      refine .of_children (by simp [kind]) (by simp) ?_
      intro c hc
      obtain ⟨f, hf, rfl⟩ := List.mem_map.mp hc
      exact ih _ (Build.mem_entries_of_mem_fields hentries hf) f.2 rfl
  | @union depth given s hne _ hbuild ih =>
      rw [Union.build_union] at hbuild
      cases hbuild
      have hsome := possibilities_ne_nil hne ih
      refine .of_children (by simp [kind]) (by simpa using hsome) ?_
      intro r hr
      obtain ⟨p, hp, hoffers⟩ := Union.offered_of_mem_possibilities hr
      exact (ih p hp).offers hoffers

theorem exists_endsIn_layered_nesting (depth : Nat) :
    ∃ choices s, s.nesting = depth ∧
      EndsIn (layered depth) choices (.ok s) := by
  induction depth with
  | zero => exact ⟨[0], .null, rfl, fun _ => rfl⟩
  | succ depth ih =>
      obtain ⟨choices, items, hnesting, hitems⟩ := ih
      refine ⟨[3] ++ (choices ++ ([0] ++ ([0] ++ []))),
        .collection items true none, by rw [nesting, hnesting], ?_⟩
      rw [layered]
      apply (endsIn_choose (by decide : 3 < 9 + 1)).bind
      apply hitems.bind
      apply (endsIn_chooseFirst_true).bind
      have hlength : EndsIn
          (length : ExceptT ConstructionError (StateM Script) Int) [0]
            (.ok (-1)) :=
        fun _ => rfl
      exact hlength.bind (endsIn_constructed _)

theorem exists_endsIn_schema_nesting (depth : Int) :
    ∃ choices s, (s.nesting : Int) = max depth 0 ∧
      EndsIn (schema depth) choices (.ok s) := by
  rw [schema]
  by_cases hdepth : depth ≤ 0
  · rw [if_pos hdepth]
    exact ⟨[0], .null, by simp [nesting, hdepth], fun _ => rfl⟩
  · rw [if_neg hdepth]
    obtain ⟨choices, s, hnesting, hends⟩ :=
      exists_endsIn_layered_nesting depth.toNat
    exact ⟨choices, s, by omega, hends⟩

/-- Whatever is chosen, a random schema of any depth is there, has no reference
and no union without possibilities, and is not deeper than was asked for, where
depths below zero count as zero.  With some choices it is as deep. -/
theorem schema_bounded (depth : Int) :
    (∀ (σ : Type) [MonadChoose (StateM σ)] (start : σ),
      ∃ s, ((schema depth :
          ExceptT ConstructionError (StateM σ) Schema).run.run start).1 =
            .ok s ∧
        s.ReferenceFree ∧ (∀ p ∈ s.parts, p ≠ .union []) ∧
        (s.nesting : Int) ≤ max depth 0) ∧
    ∃ choices s, (schema depth :
        ExceptT ConstructionError (StateM Script) Schema).run.run
          (.choices choices) = (.ok s, .choices []) ∧
      (s.nesting : Int) = max depth 0 := by
  constructor
  · intro σ _ start
    have halways : Always False (schema depth :
        ExceptT ConstructionError (StateM σ) Schema) (Drawn depth.toNat) :=
      always_schema depth
    obtain ⟨s, hrun, hdrawn⟩ := halways.exists_run start
    obtain ⟨hfree, hunions, hnesting⟩ := hdrawn.bounded
    exact ⟨s, hrun, hfree, hunions, by omega⟩
  · obtain ⟨choices, s, hnesting, hends⟩ :=
      exists_endsIn_schema_nesting depth
    exact ⟨choices, s, hends.run_eq, hnesting⟩

end Random

end Schemata
