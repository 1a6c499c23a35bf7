import Schemata.Membership
import Schemata.Proofs.Subtyping.ReferenceFree

/-!
# Members of a subtype are members of the supertype

Membership follows the value and subtyping follows two schemas, and the
attributes of every kind compare the way they bound the values.  The one rule
that accepts a subtype for the sake of a single possibility is excluded by
asking that the subtype leaves no choice, except at the top against another
choice.
-/

namespace Schemata

open Subtyping

namespace Schema

theorem isInstanceOfAny_iff {ps : List Schema} {v : Value} :
    isInstanceOfAny ps v = true ↔ ∃ p ∈ ps, p.isInstance v = true := by
  induction ps with
  | nil => simp [isInstanceOfAny]
  | cons p ps ih => simp [isInstanceOfAny, ih]

theorem hasFields_iff {fields : List (Bytes × Schema)} {v : Value} :
    hasFields fields v = true ↔
      ∀ f ∈ fields, ∃ w, v.field? f.1 = some w ∧ f.2.isInstance w = true := by
  induction fields with
  | nil => simp [hasFields]
  | cons f rest ih =>
      simp only [hasFields, Bool.and_eq_true, ih, List.mem_cons,
        forall_eq_or_imp]
      cases v.field? f.1 <;> simp

@[simp]
theorem isInstance_unwrap (s : Schema) (v : Value) :
    s.unwrap.isInstance v = s.isInstance v := by
  induction s using unwrap.induct with
  | case1 p ih =>
      rw [unwrap, ih]
      simp [isInstance, isInstanceOfAny]
  | case2 s hs =>
      rw [unwrap]
      exact hs

theorem hasShape_mono
    {test test' : Value → Bool} (hle : ∀ w, test w = true → test' w = true)
    {dimensions : List Nat} {v : Value}
    (h : hasShape test dimensions v = true) :
    hasShape test' dimensions v = true := by
  induction dimensions generalizing v with
  | nil => exact hle v h
  | cons d ds ih =>
      simp only [hasShape] at h ⊢
      cases helements : v.core.elements? with
      | none => simp [helements] at h
      | some items =>
          simp only [helements, Bool.and_eq_true, List.all_eq_true] at h ⊢
          exact ⟨h.1, fun w hw => ih (h.2 w hw)⟩

theorem withinLength_mono
    {maxLength maxLength' : Option Nat}
    (hlength : ∀ n ∈ maxLength, ∃ n' ∈ maxLength', n' ≤ n) {length : Nat}
    (h : withinLength maxLength' length = true) :
    withinLength maxLength length = true := by
  cases maxLength with
  | none => rfl
  | some n =>
      obtain ⟨n', hn', hle⟩ := hlength n rfl
      obtain rfl : maxLength' = some n' := hn'
      simp only [withinLength, decide_eq_true_eq] at h ⊢
      omega

theorem isCollectionOf_mono
    {test test' : Value → Bool} (hle : ∀ w, test w = true → test' w = true)
    {maxLength maxLength' : Option Nat}
    (hlength : ∀ n ∈ maxLength, ∃ n' ∈ maxLength', n' ≤ n) {v : Value}
    (h : isCollectionOf test maxLength' v = true) :
    isCollectionOf test' maxLength v = true := by
  unfold isCollectionOf at h ⊢
  split at h
  · simp only [Bool.and_eq_true, List.all_eq_true] at h ⊢
    exact ⟨⟨h.1.1, withinLength_mono hlength h.1.2⟩,
      fun e he => hle _ (h.2 e he)⟩
  · cases helements : v.elements? with
    | none => simp [helements] at h
    | some items =>
        simp only [helements, Bool.and_eq_true, List.all_eq_true] at h ⊢
        exact ⟨withinLength_mono hlength h.1, fun w hw => hle w (h.2 w hw)⟩

/-- A schema that leaves a choice at the top only. -/
def ChoiceFreeInside (s : Schema) : Prop :=
  ∀ c ∈ s.children, c.ChoiceFree

instance (s : Schema) : Decidable s.ChoiceFreeInside :=
  inferInstanceAs (Decidable (∀ c ∈ s.children, c.ChoiceFree))

theorem ChoiceFree.inside
    {s : Schema} (hs : s.ChoiceFree) : s.ChoiceFreeInside :=
  fun _ hc => hs.part (mem_parts_of_mem_children hc)

theorem ChoiceFree.not_isChoice
    {s : Schema} (hs : s.ChoiceFree) : s.isChoice = false :=
  hs s s.self_mem_parts

theorem unwrap_of_isChoice
    {s : Schema} (hs : s.isChoice = true) : s.unwrap = s := by
  rw [unwrap]
  rintro p rfl
  cases hs

/-- Opening a union of one possibility brings up no choice from inside. -/
theorem ChoiceFreeInside.unwrap
    {s : Schema} (hs : s.ChoiceFreeInside) :
    s.unwrap = s ∨ s.unwrap.ChoiceFree := by
  by_cases hone : ∃ p, s = .union [p]
  · obtain ⟨p, rfl⟩ := hone
    right
    have hp : p.ChoiceFree := hs p (List.mem_singleton_self p)
    rw [Schema.unwrap]
    exact hp.part p.unwrap_mem_parts
  · left
    rw [Schema.unwrap]
    exact fun p hp => hone ⟨p, hp⟩

end Schema

namespace Subtyping

/-- A rule for schemas of one kind takes members of the subtype to members of
the supertype if the pairs it is justified by do. -/
theorem Alike.isInstance
    {R : Schema → Schema → Prop} {super sub : Schema}
    (h : Alike R super sub)
    (hpairs : ∀ a ∈ super.children, ∀ b ∈ sub.children, R a b →
      ∀ w, b.isInstance w = true → a.isInstance w = true)
    {v : Value} (hv : sub.isInstance v = true) :
    super.isInstance v = true := by
  cases h with
  | number hwhole hwidth =>
      simp only [Schema.isInstance] at hv ⊢
      cases hnumber : v.core.number? with
      | none => simp [hnumber] at hv
      | some described =>
          simp only [hnumber, coversNumber_iff] at hv ⊢
          exact ⟨fun h => hv.1 (hwhole h), hv.2.1, hv.2.2.trans hwidth⟩
  | @string charset maxLength maxLength' hlength =>
      simp only [Schema.isInstance] at hv ⊢
      cases hstring : v.core.stringLength? charset with
      | none => simp [hstring] at hv
      | some length =>
          simp only [hstring] at hv ⊢
          exact Schema.withinLength_mono hlength hv
  | @tensor items items' dimensions hR =>
      simp only [Schema.isInstance] at hv ⊢
      have hitems := hpairs items (List.mem_singleton_self _) items'
        (List.mem_singleton_self _) hR
      exact Schema.hasShape_mono hitems hv
  | @collection items items' ordered ordered' maxLength maxLength'
      hordered hlength hR =>
      simp only [Schema.isInstance] at hv ⊢
      have hitems := hpairs items (List.mem_singleton_self _) items'
        (List.mem_singleton_self _) hR
      exact Schema.isCollectionOf_mono hitems hlength hv
  | @mapping keys values keys' values' hkeys hvalues =>
      have hkey := hpairs keys (by simp [Schema.children]) keys'
        (by simp [Schema.children]) hkeys
      have hvalue := hpairs values (by simp [Schema.children]) values'
        (by simp [Schema.children]) hvalues
      simp only [Schema.isInstance] at hv ⊢
      cases hcore : v.core with
      | map key element entries =>
          simp only [hcore, List.all_eq_true, Bool.and_eq_true] at hv ⊢
          intro e he
          exact ⟨hkey _ (hv e he).1, hvalue _ (hv e he).2⟩
      | _ => simp [hcore] at hv
  | @record fields fields' hfields =>
      simp only [Schema.isInstance, Bool.and_eq_true,
        Schema.hasFields_iff] at hv ⊢
      refine ⟨?_, hv.2⟩
      intro f hf
      obtain ⟨f', hf', hR⟩ := hfields f hf
      have hmem := Schema.mem_values_of_field? hf'
      obtain ⟨w, hw, hinstance⟩ := hv.1 _ hmem
      exact ⟨w, hw, hpairs f.2 (List.mem_map_of_mem hf) f'
        (List.mem_map_of_mem hmem) hR w hinstance⟩

/-- One rule takes members of the subtype to members of the supertype if the
pairs it is justified by do. -/
theorem Justified.isInstance
    {root : Option Schema} {R : Schema → Schema → Prop} {super sub : Schema}
    (h : Justified root R super sub)
    (hsuper : super.kind ≠ .reference) (hsub : sub.kind ≠ .reference)
    (hchoice : sub.isChoice = true → super.isChoice = true)
    (hpairs : ∀ a b, Descends super sub (a, b) →
      b ∈ sub.children ∨ sub.isChoice = false → R a b →
      ∀ w, b.isInstance w = true → a.isInstance w = true)
    {v : Value} (hv : sub.isInstance v = true) :
    super.isInstance v = true := by
  cases h with
  | anything => rfl
  | same => exact hv
  | nothing => cases hv
  | superReference => exact absurd rfl hsuper
  | @superUnion ps _ hall =>
      rw [Schema.isInstance, Schema.isInstanceOfAny_iff]
      cases sub with
      | union qs =>
          rw [Schema.isInstance, Schema.isInstanceOfAny_iff] at hv
          obtain ⟨q, hq, hvq⟩ := hv
          obtain ⟨p, hp, hR⟩ := hall q hq
          exact ⟨p, hp, hpairs p q (.inl ⟨hp, hq⟩) (.inl hq) hR v hvq⟩
      | _ =>
          obtain ⟨p, hp, hR⟩ := hall _ (List.mem_singleton_self _)
          exact ⟨p, hp, hpairs p _ (.inr (.inl ⟨hp, rfl⟩)) (.inr rfl) hR
            v hv⟩
  | subReference => exact absurd rfl hsub
  | @subUnion _ q qs hdefinite hq hR =>
      have hnotChoice : super.isChoice = false := by
        cases super <;> first | rfl | exact absurd rfl hdefinite.2.2
      have hone : qs = [q] := by
        match qs, hq with
        | [_], hq => rw [List.mem_singleton.mp hq]
        | _ :: _ :: _, _ =>
            rw [hchoice rfl] at hnotChoice
            cases hnotChoice
      subst hone
      rw [Schema.isInstance, Schema.isInstanceOfAny_iff] at hv
      obtain ⟨_, hmem, hvq⟩ := hv
      rw [List.mem_singleton.mp hmem] at hvq
      exact hpairs super q (.inr (.inr ⟨rfl, hq⟩)) (.inl hq) hR v hvq
  | alike halike =>
      refine halike.isInstance ?_ hv
      intro a ha b hb
      exact hpairs a b (.inl ⟨ha, hb⟩) (.inl hb)

theorem isInstance_of_covers
    {root : Option Schema} {super sub : Schema}
    (hcovers : Covers root super sub)
    (hsuper : super.ReferenceFree) (hsub : sub.ReferenceFree)
    (hinside : sub.ChoiceFreeInside)
    (hchoice : sub.isChoice = true → super.isChoice = true)
    {v : Value} (hv : sub.isInstance v = true) :
    super.isInstance v = true := by
  induction hn : super.weight + sub.weight using Nat.strong_induction_on
    generalizing super sub v with
  | _ n ih =>
      have hsuper' := hsuper.part super.unwrap_mem_parts
      have hsub' := hsub.part sub.unwrap_mem_parts
      have hinside' : sub.unwrap.ChoiceFreeInside := by
        rcases hinside.unwrap with hsame | hfree
        · rwa [hsame]
        · exact hfree.inside
      have hchoice' : sub.unwrap.isChoice = true →
          super.unwrap.isChoice = true := by
        intro h
        rcases hinside.unwrap with hsame | hfree
        · rw [hsame] at h
          rw [Schema.unwrap_of_isChoice (hchoice h)]
          exact hchoice h
        · rw [hfree.not_isChoice] at h
          cases h
      rw [← Schema.isInstance_unwrap] at hv ⊢
      refine ((covers_iff root super sub).mp hcovers).isInstance
        (hsuper' _ (Schema.self_mem_parts _))
        (hsub' _ (Schema.self_mem_parts _)) hchoice' ?_ hv
      intro a b hdown hplace hab w hw
      obtain ⟨ha, hb⟩ := hdown.parts
      have hlt : a.weight + b.weight < n := by
        have hdownLt := hdown.weight_lt
        have hsuperLe := super.weight_unwrap_le
        have hsubLe := sub.weight_unwrap_le
        simp only at hdownLt
        omega
      have hb' : b.ChoiceFreeInside ∧ b.isChoice = false := by
        by_cases hmem : b ∈ sub.unwrap.children
        · exact ⟨(hinside' b hmem).inside, (hinside' b hmem).not_isChoice⟩
        · have hsame : b = sub.unwrap := by
            rcases hdown with hdown | hdown | hdown
            · exact absurd hdown.2 hmem
            · exact hdown.2
            · exact absurd hdown.2 hmem
          rw [hsame]
          exact ⟨hinside', hplace.resolve_left hmem⟩
      exact ih _ hlt hab (hsuper'.part ha) (hsub'.part hb) hb'.1
        (fun h => by rw [hb'.2] at h; cases h) hw rfl

/-- Members of a subtype are members of the supertype, for schemas without
references, if the subtype leaves no choice except at the top against another
choice. -/
theorem isSubtype_sound
    {super sub : Schema}
    (hsuper : super.ReferenceFree) (hsub : sub.ReferenceFree)
    (hinside : sub.ChoiceFreeInside)
    (hchoice : sub.isChoice = true → super.isChoice = true)
    (hsubtype : super.isSubtype sub = .ok true)
    {v : Value} (hv : sub.isInstance v = true) :
    super.isInstance v = true :=
  isInstance_of_covers ((isSubtype_eq_ok_true_iff hsuper hsub).mp hsubtype)
    hsuper hsub hinside hchoice hv

/-- A structure with one field too many and a number narrower than asked for
is a member of a choice with a further choice inside. -/
theorem isSubtype_sound_structure :
    let super := Schema.union [.null, .record
      [([0x61], .union [.number true true 8, .string charsetUtf8 none])]]
    let sub := Schema.union [.null, .record
      [([0x61], .number true true 4), ([0x62], .tensor .boolean [2])]]
    let v := Value.pointer .dynamic (.struct
      [(⟨[0x41], some [0x61]⟩, .integer .int32 7),
        (⟨[0x42], some [0x62]⟩,
          .array .boolean [.boolean true, .boolean false])])
    (super.ReferenceFree ∧ sub.ReferenceFree ∧ sub.ChoiceFreeInside ∧
      (sub.isChoice = true → super.isChoice = true) ∧
      super.isSubtype sub = .ok true ∧ sub.isInstance v = true) ∧
      super.isInstance v = true := by
  refine (fun h => And.intro h (isSubtype_sound h.1 h.2.1 h.2.2.1 h.2.2.2.1
    h.2.2.2.2.1 h.2.2.2.2.2)) ?_
  exact ⟨by decide, by decide, by decide, fun _ => rfl, rfl, rfl⟩

end Subtyping

end Schemata
