import Schemata.Proofs.Subtyping.ReferenceFree

/-!
# Subtyping is transitive where no possibility is dropped

Against anything but a union one possibility of the subtype suffices, so a
chain that passes a choice in the middle, or goes from one choice to another,
need not compose.  All other chains do.  The rules that accept outright never
stand in the way: what covers everything and what everything covers can be
passed on to either end.
-/

namespace Schemata

open Subtyping

/-- An opened schema without choice is no union unless it is empty. -/
theorem Schema.ChoiceFree.eq_nil_of_unwrap
    {s : Schema} (hs : s.ChoiceFree) {ps : List Schema}
    (h : s.unwrap = .union ps) : ps = [] := by
  have hchoice := hs _ s.unwrap_mem_parts
  have hne := s.unwrap_ne_union_singleton
  rw [h] at hchoice hne
  match ps with
  | [] => rfl
  | [p] => exact absurd rfl (hne p)
  | _ :: _ :: _ => cases hchoice

namespace Subtyping

theorem maxLength_trans
    {m m' m'' : Option Nat} (h : ∀ n ∈ m, ∃ n' ∈ m', n' ≤ n)
    (h' : ∀ n ∈ m', ∃ n' ∈ m'', n' ≤ n) : ∀ n ∈ m, ∃ n' ∈ m'', n' ≤ n := by
  intro n hn
  obtain ⟨n', hn', hle⟩ := h n hn
  obtain ⟨n'', hn'', hle'⟩ := h' n' hn'
  exact ⟨n'', hn'', hle'.trans hle⟩

theorem Alike.trans
    {R : Schema → Schema → Prop} {a b c : Schema}
    (hab : Alike R a b) (hbc : Alike R b c)
    (hinside : ∀ x ∈ a.children, ∀ y ∈ b.children, ∀ z ∈ c.children,
      R x y → R y z → R x z) :
    Alike R a c := by
  cases hab with
  | number hwhole hwidth =>
      cases hbc with
      | number hwhole' hwidth' =>
          exact .number (hwhole' ∘ hwhole) (hwidth'.trans hwidth)
  | string hlength =>
      cases hbc with
      | string hlength' => exact .string (maxLength_trans hlength hlength')
  | tensor hR =>
      cases hbc with
      | tensor hR' =>
          exact .tensor (hinside _ (List.mem_singleton_self _)
            _ (List.mem_singleton_self _) _ (List.mem_singleton_self _)
            hR hR')
  | collection hordered hlength hR =>
      cases hbc with
      | collection hordered' hlength' hR' =>
          exact .collection (hordered' ∘ hordered)
            (maxLength_trans hlength hlength')
            (hinside _ (List.mem_singleton_self _)
              _ (List.mem_singleton_self _) _ (List.mem_singleton_self _)
              hR hR')
  | mapping hkeys hvalues =>
      cases hbc with
      | mapping hkeys' hvalues' =>
          exact .mapping
            (hinside _ (by simp [Schema.children])
              _ (by simp [Schema.children]) _ (by simp [Schema.children])
              hkeys hkeys')
            (hinside _ (by simp [Schema.children])
              _ (by simp [Schema.children]) _ (by simp [Schema.children])
              hvalues hvalues')
  | record hfields =>
      cases hbc with
      | record hfields' =>
          refine .record fun f hf => ?_
          obtain ⟨f', hf', hR⟩ := hfields f hf
          have hmem := Schema.mem_values_of_field? hf'
          obtain ⟨f'', hf'', hR'⟩ := hfields' _ hmem
          have hmem' := Schema.mem_values_of_field? hf''
          exact ⟨f'', hf'', hinside _ (List.mem_map_of_mem hf)
            _ (List.mem_map_of_mem hmem) _ (List.mem_map_of_mem hmem')
            hR hR'⟩

/-- The empty union covers, references apart, itself and nothing only. -/
theorem Justified.eq_of_union_nil
    {root : Option Schema} {R : Schema → Schema → Prop} {c : Schema}
    (h : Justified root R (.union []) c) (hc : c.kind ≠ .reference) :
    c = .nothing ∨ c = .union [] := by
  cases h with
  | same => exact .inr rfl
  | nothing => exact .inl rfl
  | superUnion hall =>
      right
      cases c with
      | union qs =>
          have hempty : qs = [] := by
            refine List.eq_nil_iff_forall_not_mem.mpr fun q hq => ?_
            obtain ⟨p, hp, _⟩ := hall q hq
            cases hp
          rw [hempty]
      | _ =>
          obtain ⟨p, hp, _⟩ := hall _ (List.mem_singleton_self _)
          cases hp
  | subReference => exact absurd rfl hc
  | subUnion hdefinite => exact absurd rfl hdefinite.2.2
  | alike halike => cases halike

/-- Two rules compose if the pairs that they are justified by do. -/
theorem Justified.trans
    {root : Option Schema} {R : Schema → Schema → Prop} {a b c : Schema}
    (hab : Justified root R a b) (hbc : Justified root R b c)
    (ha : a.kind ≠ .reference) (hb : b.kind ≠ .reference)
    (hc : c.kind ≠ .reference)
    (hmiddle : ∀ qs, b = .union qs → qs = [])
    (hends : (∀ ps, a = .union ps → ps = []) ∨
      ∀ qs, c = .union qs → qs = [])
    (hleft : ∀ p ∈ a.children, R p b → R p c)
    (hright : ∀ q ∈ c.children, R b q → R a q)
    (hinside : ∀ x ∈ a.children, ∀ y ∈ b.children, ∀ z ∈ c.children,
      R x y → R y z → R x z) :
    Justified root R a c := by
  cases hab with
  | anything => exact .anything c
  | same => exact hbc
  | nothing =>
      cases hbc with
      | same => exact .nothing a
      | nothing => exact .nothing a
      | subReference hdefinite => exact absurd rfl hdefinite.1
      | subUnion hdefinite => exact absurd rfl hdefinite.1
      | alike halike => cases halike
  | superReference => exact absurd rfl ha
  | @superUnion ps _ hall =>
      by_cases hunion : ∃ qs, b = .union qs
      · obtain ⟨qs, rfl⟩ := hunion
        obtain rfl := hmiddle qs rfl
        rcases hbc.eq_of_union_nil hc with rfl | rfl
        · exact .nothing _
        · exact .superUnion hall
      · have halone : b.alternatives = [b] :=
          Schema.alternatives_of_ne_union fun qs hqs => hunion ⟨qs, hqs⟩
        obtain ⟨p, hp, hR⟩ := hall b (by simp [halone])
        have hpc : R p c := hleft p hp hR
        have hlast : ∀ qs, c = .union qs → qs = [] := by
          refine hends.resolve_left fun hempty => ?_
          rw [hempty ps rfl] at hp
          cases hp
        refine .superUnion fun q hq => ⟨p, hp, ?_⟩
        by_cases hunion' : ∃ qs, c = .union qs
        · obtain ⟨qs, rfl⟩ := hunion'
          rw [Schema.alternatives, hlast qs rfl] at hq
          cases hq
        · rw [Schema.alternatives_of_ne_union
            fun qs hqs => hunion' ⟨qs, hqs⟩, List.mem_singleton] at hq
          rwa [hq]
  | subReference => exact absurd rfl hb
  | @subUnion _ q qs _ hq =>
      rw [hmiddle qs rfl] at hq
      cases hq
  | alike halike =>
      cases hbc with
      | anything => cases halike
      | same => exact .alike halike
      | nothing => exact .nothing a
      | superReference => exact absurd rfl hb
      | superUnion => cases halike
      | subReference => exact absurd rfl hc
      | subUnion _ hq hR =>
          exact .subUnion halike.definite hq (hright _ hq hR)
      | alike halike' => exact .alike (halike.trans halike' hinside)

theorem Covers.trans
    {root : Option Schema} {a b c : Schema}
    (hab : Covers root a b) (hbc : Covers root b c)
    (ha : a.ReferenceFree) (hb : b.ReferenceFree) (hc : c.ReferenceFree)
    (hmiddle : b.ChoiceFree) (hends : a.ChoiceFree ∨ c.ChoiceFree) :
    Covers root a c := by
  induction hn : a.weight + b.weight + c.weight
    using Nat.strong_induction_on generalizing a b c with
  | _ n ih =>
      have ha' := ha.part a.unwrap_mem_parts
      have hb' := hb.part b.unwrap_mem_parts
      have hc' := hc.part c.unwrap_mem_parts
      have hmiddle' := hmiddle.part b.unwrap_mem_parts
      have hends' : a.unwrap.ChoiceFree ∨ c.unwrap.ChoiceFree :=
        hends.imp (·.part a.unwrap_mem_parts) (·.part c.unwrap_mem_parts)
      have hab' := (covers_unwrap_iff root a b).mpr hab
      have hbc' := (covers_unwrap_iff root b c).mpr hbc
      have hparts : ∀ x ∈ a.unwrap.parts, ∀ y ∈ b.unwrap.parts,
          ∀ z ∈ c.unwrap.parts, x.weight + y.weight + z.weight < n →
          Covers root x y → Covers root y z → Covers root x z := by
        intro x hx y hy z hz hlt hxy hyz
        exact ih _ hlt hxy hyz (ha'.part hx) (hb'.part hy) (hc'.part hz)
          (hmiddle'.part hy) (hends'.imp (·.part hx) (·.part hz)) rfl
      have hale := a.weight_unwrap_le
      have hble := b.weight_unwrap_le
      have hcle := c.weight_unwrap_le
      rw [covers_iff]
      refine ((covers_iff root a b).mp hab).trans
        ((covers_iff root b c).mp hbc)
        (ha' _ (Schema.self_mem_parts _)) (hb' _ (Schema.self_mem_parts _))
        (hc' _ (Schema.self_mem_parts _))
        (fun _ => hmiddle.eq_nil_of_unwrap)
        (hends.imp (fun h _ => h.eq_nil_of_unwrap)
          (fun h _ => h.eq_nil_of_unwrap)) ?_ ?_ ?_
      · intro p hp hpb
        have hlt := Schema.weight_lt_of_mem_children hp
        exact hparts p (Schema.mem_parts_of_mem_children hp)
          _ (Schema.self_mem_parts _) _ (Schema.self_mem_parts _)
          (by omega) hpb hbc'
      · intro q hq hbq
        have hlt := Schema.weight_lt_of_mem_children hq
        exact hparts _ (Schema.self_mem_parts _) _ (Schema.self_mem_parts _)
          q (Schema.mem_parts_of_mem_children hq) (by omega) hab' hbq
      · intro x hx y hy z hz hxy hyz
        have hxlt := Schema.weight_lt_of_mem_children hx
        have hylt := Schema.weight_lt_of_mem_children hy
        have hzlt := Schema.weight_lt_of_mem_children hz
        exact hparts x (Schema.mem_parts_of_mem_children hx)
          y (Schema.mem_parts_of_mem_children hy)
          z (Schema.mem_parts_of_mem_children hz) (by omega) hxy hyz

/-- Subtyping without references is transitive, if the schema in the middle
leaves no choice and one of the ends leaves none either. -/
theorem isSubtype_trans
    {a b c : Schema}
    (ha : a.ReferenceFree) (hb : b.ReferenceFree) (hc : c.ReferenceFree)
    (hmiddle : b.ChoiceFree) (hends : a.ChoiceFree ∨ c.ChoiceFree)
    (hab : a.isSubtype b = .ok true) (hbc : b.isSubtype c = .ok true) :
    a.isSubtype c = .ok true := by
  rw [isSubtype_eq_ok_true_iff ha hb] at hab
  rw [isSubtype_eq_ok_true_iff hb hc] at hbc
  rw [isSubtype_eq_ok_true_iff ha hc]
  exact hab.trans hbc ha hb hc hmiddle hends

/-- A choice, opened to one of its possibilities, then narrowed inside. -/
theorem isSubtype_trans_structure :
    let a := Schema.union [.null, .record
      [([0x61], .union [.number false true 8, .string charsetUtf8 none])]]
    let b := Schema.union [.record
      [([0x61], .number false true 8),
        ([0x62], .collection .anything false (some 9))]]
    let c := Schema.record
      [([0x62], .collection (.union []) true (some 4)),
        ([0x61], .union [.number true true 4]), ([0x63], .nothing)]
    (a.ReferenceFree ∧ b.ReferenceFree ∧ c.ReferenceFree ∧ b.ChoiceFree ∧
      (a.ChoiceFree ∨ c.ChoiceFree) ∧ a.isSubtype b = .ok true ∧
      b.isSubtype c = .ok true) ∧ ¬ a.ChoiceFree ∧
      a.isSubtype c = .ok true := by
  refine (fun h => And.intro h ⟨by decide, isSubtype_trans h.1 h.2.1 h.2.2.1
    h.2.2.2.1 h.2.2.2.2.1 h.2.2.2.2.2.1 h.2.2.2.2.2.2⟩) ?_
  exact ⟨by decide, by decide, by decide, by decide, by decide, rfl, rfl⟩

end Subtyping

end Schemata
