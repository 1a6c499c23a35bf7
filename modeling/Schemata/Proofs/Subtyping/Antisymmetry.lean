import Schemata.Proofs.Sorted
import Schemata.Proofs.Subtyping.Transitivity

/-!
# Subtyping without possibilities is antisymmetric

Two schemas without references that cover each other are the same, if no union
inside has a possibility.  Records may have more fields than asked for, so each
of two records that cover each other has the names of the other one; fields in
increasing order of their names then stand in the same places.  The empty union
covers nothing and itself, and nothing does not cover it.
-/

namespace Schemata

open Subtyping

namespace Schema

/-- The fields of a record stand in strictly increasing order of their names. -/
def NamesIncrease : Schema → Prop
  | .record fields => fields.Pairwise fun f g => compare f.1 g.1 = .lt
  | _ => True

def FieldsOrdered (s : Schema) : Prop := ∀ p ∈ s.parts, p.NamesIncrease

theorem FieldsOrdered.part
    {s p : Schema} (hs : s.FieldsOrdered) (hp : p ∈ s.parts) :
    p.FieldsOrdered :=
  fun q hq => hs q (parts_subset_of_mem_parts hp hq)

/-- No union inside has a possibility. -/
def UnionsEmpty (s : Schema) : Prop := ∀ ps, .union ps ∈ s.parts → ps = []

theorem UnionsEmpty.part
    {s p : Schema} (hs : s.UnionsEmpty) (hp : p ∈ s.parts) : p.UnionsEmpty :=
  fun ps hps => hs ps (parts_subset_of_mem_parts hp hps)

theorem UnionsEmpty.unwrap_eq {s : Schema} (hs : s.UnionsEmpty) :
    s.unwrap = s := by
  rw [unwrap]
  rintro p rfl
  cases hs [p] (self_mem_parts _)

theorem UnionFree.unionsEmpty {s : Schema} (hs : s.UnionFree) :
    s.UnionsEmpty :=
  fun _ hps => absurd rfl (hs _ hps)

theorem field?_of_mem
    {fields : List (Bytes × Schema)}
    (hfields : (Schema.record fields).NamesIncrease)
    {name : Bytes} {f : Schema} (hf : (name, f) ∈ fields) :
    field? name fields = some f := by
  induction fields with
  | nil => cases hf
  | cons first rest ih =>
      obtain ⟨hfirst, hrest⟩ := List.pairwise_cons.mp hfields
      rcases List.mem_cons.mp hf with rfl | hmem
      · simp [field?]
      · have hne : first.1 ≠ name := by
          rintro rfl
          have hlt : compare first.1 first.1 = .lt := hfirst (_, f) hmem
          exact Std.OrientedCmp.not_lt_of_lt hlt hlt
        have htail := ih hrest hmem
        simpa [field?, List.find?_cons, hne] using htail

end Schema

namespace Subtyping

theorem eq_of_maxLength_le
    {m m' : Option Nat} (h : ∀ n ∈ m, ∃ n' ∈ m', n' ≤ n)
    (h' : ∀ n ∈ m', ∃ n' ∈ m, n' ≤ n) : m = m' := by
  cases m <;> cases m' <;> simp at h h' ⊢
  omega

theorem mem_fields_of_mutual
    {R : Schema → Schema → Prop} {fields fields' : List (Bytes × Schema)}
    (hfields : (Schema.record fields).NamesIncrease)
    (h : ∀ f ∈ fields, ∃ f', Schema.field? f.1 fields' = some f' ∧ R f.2 f')
    (h' : ∀ f ∈ fields', ∃ f', Schema.field? f.1 fields = some f' ∧ R f.2 f')
    (hinside : ∀ f ∈ fields, ∀ f' ∈ fields',
      R f.2 f'.2 → R f'.2 f.2 → f.2 = f'.2)
    {f : Bytes × Schema} (hf : f ∈ fields) : f ∈ fields' := by
  obtain ⟨f', hf', hR⟩ := h f hf
  have hmem := Schema.mem_values_of_field? hf'
  obtain ⟨f'', hf'', hR'⟩ := h' _ hmem
  have hback : f'' = f.2 := by
    rw [Schema.field?_of_mem hfields hf] at hf''
    cases hf''
    rfl
  rw [hback] at hR'
  have hsame : f.2 = f' := hinside f hf _ hmem hR hR'
  rwa [← hsame] at hmem

theorem Alike.antisymm
    {R : Schema → Schema → Prop} {a b : Schema}
    (hab : Alike R a b) (hba : Alike R b a)
    (ha : a.NamesIncrease) (hb : b.NamesIncrease)
    (hinside : ∀ x ∈ a.children, ∀ y ∈ b.children,
      R x y → R y x → x = y) :
    a = b := by
  cases hab with
  | number hwhole hwidth =>
      cases hba with
      | number hwhole' hwidth' =>
          rw [Bool.eq_iff_iff.mpr ⟨hwhole, hwhole'⟩,
            Nat.le_antisymm hwidth' hwidth]
  | string hlength =>
      cases hba with
      | string hlength' => rw [eq_of_maxLength_le hlength hlength']
  | tensor hR =>
      cases hba with
      | tensor hR' =>
          rw [hinside _ (List.mem_singleton_self _)
            _ (List.mem_singleton_self _) hR hR']
  | collection hordered hlength hR =>
      cases hba with
      | collection hordered' hlength' hR' =>
          rw [hinside _ (List.mem_singleton_self _)
              _ (List.mem_singleton_self _) hR hR',
            Bool.eq_iff_iff.mpr ⟨hordered, hordered'⟩,
            eq_of_maxLength_le hlength hlength']
  | mapping hkeys hvalues =>
      cases hba with
      | mapping hkeys' hvalues' =>
          rw [hinside _ (by simp [Schema.children])
              _ (by simp [Schema.children]) hkeys hkeys',
            hinside _ (by simp [Schema.children])
              _ (by simp [Schema.children]) hvalues hvalues']
  | @record fields fields' hfields =>
      cases hba with
      | record hfields' =>
          have hvalues : ∀ f ∈ fields, ∀ f' ∈ fields',
              R f.2 f'.2 → R f'.2 f.2 → f.2 = f'.2 :=
            fun f hf f' hf' => hinside _ (List.mem_map_of_mem hf)
              _ (List.mem_map_of_mem hf')
          have hmem : ∀ f, f ∈ fields ↔ f ∈ fields' := by
            intro f
            constructor
            · exact mem_fields_of_mutual ha hfields hfields' hvalues
            · exact mem_fields_of_mutual hb hfields' hfields
                fun f' hf' f hf hR hR' => (hvalues f hf f' hf' hR' hR).symm
          rw [ha.eq_of_mem_iff hb hmem]

theorem Justified.eq_nothing
    {root : Option Schema} {R : Schema → Schema → Prop} {c : Schema}
    (h : Justified root R .nothing c) : c = .nothing := by
  cases h with
  | same => rfl
  | nothing => rfl
  | subReference hdefinite => exact absurd rfl hdefinite.1
  | subUnion hdefinite => exact absurd rfl hdefinite.1
  | alike halike => cases halike

theorem Justified.eq_of_union_nil_mutual
    {root : Option Schema} {R : Schema → Schema → Prop} {c : Schema}
    (h : Justified root R (.union []) c) (h' : Justified root R c (.union []))
    (hc : c.kind ≠ .reference) : c = .union [] := by
  rcases h.eq_of_union_nil hc with rfl | rfl
  · cases h'.eq_nothing
  · rfl

theorem Justified.antisymm
    {root : Option Schema} {R : Schema → Schema → Prop} {a b : Schema}
    (hab : Justified root R a b) (hba : Justified root R b a)
    (haref : a.kind ≠ .reference) (hbref : b.kind ≠ .reference)
    (haunion : ∀ ps, a = .union ps → ps = [])
    (hbunion : ∀ ps, b = .union ps → ps = [])
    (ha : a.NamesIncrease) (hb : b.NamesIncrease)
    (hinside : ∀ x ∈ a.children, ∀ y ∈ b.children,
      R x y → R y x → x = y) :
    a = b := by
  cases hab with
  | anything =>
      cases hba with
      | anything => rfl
      | same => rfl
      | superReference => exact absurd rfl hbref
      | @superUnion ps _ hall =>
          obtain ⟨p, hp, _⟩ := hall _ (List.mem_singleton_self _)
          rw [hbunion ps rfl] at hp
          cases hp
      | alike halike => cases halike
  | same => rfl
  | nothing => exact hba.eq_nothing
  | superReference => exact absurd rfl haref
  | @superUnion ps _ hall =>
      obtain rfl := haunion ps rfl
      exact (Justified.eq_of_union_nil_mutual (.superUnion hall) hba
        hbref).symm
  | subReference => exact absurd rfl hbref
  | @subUnion _ q qs _ hq =>
      rw [hbunion qs rfl] at hq
      cases hq
  | alike halike =>
      cases hba with
      | anything => cases halike
      | same => rfl
      | nothing => cases halike
      | superReference => exact absurd rfl hbref
      | superUnion => cases halike
      | subReference => exact absurd rfl haref
      | subUnion => cases halike
      | alike halike' => exact halike.antisymm halike' ha hb hinside

theorem Covers.antisymm
    {root : Option Schema} {a b : Schema}
    (hab : Covers root a b) (hba : Covers root b a)
    (haref : a.ReferenceFree) (hbref : b.ReferenceFree)
    (haunion : a.UnionsEmpty) (hbunion : b.UnionsEmpty)
    (ha : a.FieldsOrdered) (hb : b.FieldsOrdered) : a = b := by
  induction a using Schema.childrenInduction generalizing b with
  | step a ih =>
      rw [covers_iff, haunion.unwrap_eq, hbunion.unwrap_eq] at hab hba
      refine hab.antisymm hba (haref a a.self_mem_parts)
        (hbref b b.self_mem_parts) ?_ ?_ (ha a a.self_mem_parts)
        (hb b b.self_mem_parts) ?_
      · rintro ps rfl
        exact haunion ps (Schema.self_mem_parts _)
      · rintro ps rfl
        exact hbunion ps (Schema.self_mem_parts _)
      · intro x hx y hy hxy hyx
        have hxpart := Schema.mem_parts_of_mem_children hx
        have hypart := Schema.mem_parts_of_mem_children hy
        exact ih x hx hxy hyx (haref.part hxpart) (hbref.part hypart)
          (haunion.part hxpart) (hbunion.part hypart)
          (ha.part hxpart) (hb.part hypart)

end Subtyping

end Schemata
