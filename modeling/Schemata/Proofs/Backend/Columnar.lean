import Schemata.Backend.Columnar
import Schemata.Proofs.Backend.Adapt
import Schemata.Proofs.Union.Coverage

/-!
# Members of columns

Columns look at the first element of a list only, ask for exact widths, and
know unions of one possibility apart from null.  Where all lists repeat one
element, the first element speaks for all of them, and what columns accept of
an adapted schema is a member of the schema itself.

Adapting changes the possibilities of a union and their order, and may leave
one where there were several.  What remains always comes from one of the
possibilities, so it is enough to follow the schemas that a union offers.
-/

namespace Schemata

namespace Value

def components : Value → List Value
  | .slice _ items => items
  | .array _ items => items
  | .map _ _ entries => entries.flatMap fun e => [e.1, e.2]
  | .struct fields => fields.map Prod.snd
  | .pointer _ target => [target]
  | .labelled _ _ content => [content]
  | _ => []

/-- Every list, at any depth, repeats one element. -/
inductive Uniform : Value → Prop
  | node {v : Value} :
      (∀ items, v.elements? = some items → ∀ x ∈ items, ∀ y ∈ items, x = y) →
      (∀ w ∈ v.components, Uniform w) → Uniform v

theorem Uniform.of_empty
    {v : Value} (helements : ∀ items, v.elements? = some items → items = [])
    (hcomponents : v.components = []) : v.Uniform := by
  constructor
  · intro items hitems x hx
    rw [helements items hitems] at hx
    cases hx
  · intro w hw
    rw [hcomponents] at hw
    cases hw

theorem uniform_emptyOf (type : ValueType) : (emptyOf type).Uniform := by
  cases type with
  | slice element =>
      rw [emptyOf]
      split
      · exact .of_empty (by simp [elements?]) rfl
      · exact .of_empty (by simp [elements?]) rfl
  | _ => exact .of_empty (by simp [emptyOf, elements?]) rfl

theorem Uniform.core {v : Value} (hv : v.Uniform) : v.core.Uniform := by
  induction hv with
  | @node v hitems hcomponents ih =>
      cases v with
      | pointer type target => exact ih target (by simp [components])
      | labelled type shown content => exact ih content (by simp [components])
      | nullPointer type =>
          exact .of_empty (by simp [Value.core, elements?]) rfl
      | unmade type => exact uniform_emptyOf type
      | _ => exact .node hitems hcomponents

/-- The elements of a list are uniform, and all of them are the first one. -/
theorem Uniform.elements
    {v first : Value} {rest : List Value} (hv : v.Uniform)
    (h : v.core.elements? = some (first :: rest)) :
    first.Uniform ∧ ∀ w ∈ first :: rest, w = first := by
  obtain ⟨hitems, hcomponents⟩ := hv.core
  have hinside : first ∈ v.core.components := by
    cases hcore : v.core <;> simp_all [elements?, components]
  exact ⟨hcomponents first hinside,
    fun w hw => hitems _ h w hw first List.mem_cons_self⟩

theorem Uniform.field
    {v w : Value} {name : Bytes} (hv : v.Uniform)
    (h : v.core.field? name = some w) : w.Uniform := by
  obtain ⟨_, hcomponents⟩ := hv.core
  apply hcomponents
  cases hcore : v.core with
  | struct fields =>
      simp only [hcore, field?, Option.map_eq_some_iff] at h
      obtain ⟨f, hf, rfl⟩ := h
      exact List.mem_map_of_mem (List.mem_of_find?_eq_some hf)
  | map key element entries =>
      simp only [hcore, field?] at h
      split at h
      · obtain ⟨e, he, rfl⟩ := Option.map_eq_some_iff.mp h
        refine List.mem_flatMap.mpr ⟨e, List.mem_of_find?_eq_some he, ?_⟩
        simp
      · cases h
  | _ => simp [hcore, field?] at h

end Value

theorem Schema.isCollectionOf_of_elements
    {test : Value → Bool} {maxLength : Option Nat} {v : Value}
    {items : List Value} (h : v.elements? = some items) :
    isCollectionOf test maxLength v =
      (withinLength maxLength items.length && items.all test) := by
  cases v <;> simp_all [Value.elements?, isCollectionOf]

namespace Columnar

open Schema

theorem adaptCharset_ne_nil
    (charset : Bytes) (h : charset ≠ []) : adaptCharset charset ≠ [] := by
  unfold adaptCharset
  split
  · decide
  · exact h

theorem stringLength?_adaptCharset
    {charset : Bytes} (hcharset : charset ≠ charsetUtf32) {v : Value}
    {length : Nat}
    (h : stringLength? (adaptCharset charset) v = some length) :
    v.stringLength? charset = some length := by
  by_cases htext : charset = charsetUtf8
  · have hne : charsetUtf32 ≠ charsetBytes := by decide
    rw [adaptCharset, if_pos htext, stringLength?, if_neg hne, if_pos rfl] at h
    rw [htext, h]
  · rw [adaptCharset, if_neg htext, stringLength?, if_neg hcharset] at h
    split at h
    · rename_i hbytes
      rw [hbytes, h]
    · cases h

theorem hasFields_iff {fields : List (Bytes × Schema)} {v : Value} :
    hasFields fields v = true ↔
      ∀ f ∈ fields, ∃ w, v.field? f.1 = some w ∧ isInstance f.2 w = true := by
  induction fields with
  | nil => simp [hasFields]
  | cons f rest ih =>
      simp only [hasFields, Bool.and_eq_true, ih, List.mem_cons,
        forall_eq_or_imp]
      cases v.field? f.1 <;> simp

/-- Lists that repeat one element have the shape that their first elements
show. -/
theorem hasShape_of_firstWithin?
    {test : Value → Bool} {dimensions : List Nat} {v w : Value}
    (hv : v.Uniform) (hw : firstWithin? dimensions v = some w)
    (htest : w.Uniform → test w = true) :
    hasShape test dimensions v = true := by
  induction dimensions generalizing v with
  | nil =>
      cases hw
      exact htest hv
  | cons d ds ih =>
      simp only [firstWithin?] at hw
      split at hw
      · rename_i first rest helements
        split at hw
        · rename_i hlength
          obtain ⟨hfirst, hsame⟩ := hv.elements helements
          have hshape := ih hfirst hw
          simp only [hasShape, helements, Bool.and_eq_true, List.all_eq_true]
          refine ⟨by simpa using hlength, ?_⟩
          intro x hx
          rw [hsame x hx, hshape]
        · cases hw
      · cases hw

/-- A value is a member in columns of something that a schema offers, where no
value may stand for null. -/
def Admits (s : Schema) (v : Value) : Prop :=
  ∃ q, s.Offers q ∧ (isInstance q v = true ∨ q = .null ∧ v.core = .absent)

theorem admits_union
    {ps : List Schema} {p : Schema} {v : Value} (hp : p ∈ ps)
    (h : Admits p v) : Admits (.union ps) v := by
  obtain ⟨q, hoffers, hq⟩ := h
  exact ⟨q, .possibility hp hoffers, hq⟩

theorem admits_of_isInstance
    {s : Schema} {v : Value} (h : isInstance s v = true) : Admits s v := by
  induction s using childrenInduction with
  | step s ih =>
      by_cases hkind : s.kind = .union
      · cases s <;> simp only [kind, reduceCtorEq] at hkind
        rename_i ps
        rcases ps with _ | ⟨p, _ | ⟨q, _ | ⟨r, rest⟩⟩⟩
        · simp [isInstance] at h
        · rw [isInstance] at h
          exact admits_union List.mem_cons_self (ih p List.mem_cons_self h)
        · have hq : q ∈ [p, q] := by simp
          rw [isInstance] at h
          split at h
          · rename_i hnull
            split at h
            · rename_i habsent
              cases p <;> simp only [kind, reduceCtorEq] at hnull
              exact admits_union List.mem_cons_self
                ⟨.null, .itself (by simp [kind]), .inr ⟨rfl, habsent⟩⟩
            · exact admits_union hq (ih q hq h)
          · cases h
        · simp [isInstance] at h
      · exact ⟨s, .itself hkind, .inl h⟩

/-- A normalised union admits only what one of the given schemas admits. -/
theorem exists_admits_of_possibilities
    {given : List Schema} {v : Value}
    (h : Admits (.union (Union.possibilities given)) v) :
    ∃ p ∈ given, Admits p v := by
  obtain ⟨q, hoffers, hq⟩ := h
  cases hoffers with
  | itself hkind => exact absurd rfl hkind
  | possibility hr hrq =>
      obtain ⟨p, hp, hpr⟩ := Union.offered_of_mem_possibilities hr
      exact ⟨p, hp, q, hpr.trans hrq, hq⟩

/-- One node: what columns accept is a member if this is so of the schemas
inside. -/
theorem isInstance_of_inside
    {s : Schema} (hkind : s.kind ≠ .union)
    (hcharset : s.charset? ≠ some charsetUtf32) {v : Value} (hv : v.Uniform)
    (hinside : ∀ c ∈ s.children, ∀ w : Value, w.Uniform →
      isInstance (c.recode adaptCharset) w = true → c.isInstance w = true)
    (h : isInstance (s.recode adaptCharset) v = true) :
    s.isInstance v = true := by
  cases s with
  | boolean =>
      simp only [recode, isInstance] at h
      simp only [Schema.isInstance]
      exact h
  | number whole signed nbytes =>
      have hnumber : v.core.number? = some (whole, signed, nbytes) := by
        simpa [recode, isInstance] using h
      simp [Schema.isInstance, hnumber, Subtyping.coversNumber_iff]
  | string charset maxLength =>
      have hne : charset ≠ charsetUtf32 := by simpa [charset?] using hcharset
      rw [recode, isInstance] at h
      split at h
      · rename_i length hlength
        rw [Schema.isInstance, stringLength?_adaptCharset hne hlength]
        exact h
      · cases h
  | tensor items dimensions =>
      rw [recode, isInstance] at h
      split at h
      · rename_i w hw
        rw [Schema.isInstance]
        exact hasShape_of_firstWithin? hv hw
          fun hwv => hinside items (by simp [children]) w hwv h
      · cases h
  | collection items ordered maxLength =>
      rw [recode, isInstance] at h
      rw [Schema.isInstance]
      split at h
      · cases h
      · rename_i helements
        rw [isCollectionOf_of_elements helements]
        cases maxLength <;> simp [withinLength]
      · rename_i first rest helements
        obtain ⟨hlength, hfirst⟩ := Bool.and_eq_true_iff.mp h
        obtain ⟨huniform, hsame⟩ := hv.elements helements
        have hmember := hinside items (by simp [children]) first huniform hfirst
        rw [isCollectionOf_of_elements helements, Bool.and_eq_true,
          List.all_eq_true]
        refine ⟨hlength, ?_⟩
        intro w hw
        rw [hsame w hw, hmember]
  | record fields =>
      rw [recode, isInstance, Bool.and_eq_true, hasFields_iff,
        recodeFields_eq] at h
      rw [Schema.isInstance, Bool.and_eq_true, Schema.hasFields_iff]
      refine ⟨?_, h.2⟩
      intro f hf
      obtain ⟨w, hw, hmember⟩ :=
        h.1 (f.1, f.2.recode adaptCharset) (List.mem_map.mpr ⟨f, hf, rfl⟩)
      exact ⟨w, hw,
        hinside f.2 (List.mem_map_of_mem hf) w (hv.field hw) hmember⟩
  | union possibilities => exact absurd rfl hkind
  | _ => simp [recode, isInstance] at h

theorem isInstance_of_admits
    {s : Schema} (hcharset : s.LacksCharset charsetUtf32) {v : Value}
    (hv : v.Uniform) (h : Admits (s.recode adaptCharset) v) :
    s.isInstance v = true := by
  induction s using childrenInduction generalizing v with
  | step s ih =>
      by_cases hkind : s.kind = .union
      -- Which possibility is left after normalising does not matter: it comes
      -- from one of the schema's own.
      · cases s <;> simp only [kind, reduceCtorEq] at hkind
        rename_i ps
        rw [recode, recodeAll_eq] at h
        obtain ⟨p, hp, hadmits⟩ := exists_admits_of_possibilities h
        obtain ⟨c, hc, rfl⟩ := List.mem_map.mp hp
        rw [Schema.isInstance, isInstanceOfAny_iff]
        exact ⟨c, hc, ih c hc (hcharset.child hc) hv hadmits⟩
      · obtain ⟨q, hoffers, hq⟩ := h
        have hkind' : (s.recode adaptCharset).kind ≠ .union := by
          rwa [kind_recode]
        rw [hoffers.eq_of_kind_ne_union hkind'] at hq
        rcases hq with hmember | ⟨hnull, habsent⟩
        · refine isInstance_of_inside hkind (hcharset s s.self_mem_parts) hv ?_
            hmember
          intro c hc w hw hcolumns
          exact ih c hc (hcharset.child hc) hw (admits_of_isInstance hcolumns)
        · cases s <;> simp only [recode, reduceCtorEq] at hnull
          rw [Schema.isInstance, habsent]

/-- A schema that was built can be adapted to columns.  If none of its strings
has the encoding of columns already, what columns accept of the adapted schema
is a member of the schema, of values whose lists repeat one element. -/
theorem isInstance_of_isInstance_adapt
    {s : Schema} (hs : s.Built) (hcharset : s.LacksCharset charsetUtf32)
    {v : Value} (hv : v.Uniform) :
    ∃ t, backend.adapt s = .ok t ∧
      (backend.isInstance t v = true → s.isInstance v = true) :=
  ⟨s.recode adaptCharset,
    Backend.adapt_eq adaptCharset_ne_nil hs.wellFormed,
    fun h => isInstance_of_admits hcharset hv (admits_of_isInstance h)⟩

set_option maxRecDepth 4000 in
/-- A table of two equal rows, whose only cell is a record with a short text
where no value would do as well. -/
theorem isInstance_of_isInstance_adapt_table :
    let cell (charset : Bytes) := Schema.union
      [.null, .record [([0x61], .string charset (some 3))]]
    let s := Schema.tensor (cell charsetUtf8) [2, 1]
    let columns := Schema.tensor (cell charsetUtf32) [2, 1]
    let row := Value.slice .dynamic
      [.map .text .text [(.text [0x61], .text [0x78, 0x79])]]
    let v := Value.array .dynamic [row, row]
    (s.Built ∧ s.LacksCharset charsetUtf32 ∧ v.Uniform) ∧
      backend.adapt s = .ok columns ∧ backend.isInstance columns v = true ∧
        s.isInstance v = true := by
  intro cell s columns row v
  have htext : Build.string charsetUtf8 3 =
      .ok (.string charsetUtf8 (some 3)) := rfl
  have hrecord : Build.record [([0x61], some (.string charsetUtf8 (some 3)))] =
      .ok (.record [([0x61], .string charsetUtf8 (some 3))]) := rfl
  have hunion : Build.union
      ([.record [([0x61], .string charsetUtf8 (some 3))], .null].map some) =
        .ok (cell charsetUtf8) := by
    rw [Union.build_union]
    rfl
  have htensor : Build.tensor (some (cell charsetUtf8)) [2, 1] = .ok s := rfl
  have hs : s.Built := by
    refine .tensor (.union ?_ hunion) htensor
    simp [Built.null, Built.record _ hrecord, Built.string htext]
  have hv : v.Uniform := by
    have hletters (b : Bytes) : (Value.text b).Uniform :=
      .of_empty (by simp [Value.elements?]) rfl
    have hmap : (Value.map .text .text
        [(.text [0x61], .text [0x78, 0x79])]).Uniform :=
      .node (by simp [Value.elements?])
        (by simp [Value.components, hletters])
    have hrow : row.Uniform :=
      .node (by simp [row, Value.elements?])
        (by simp [row, Value.components, hmap])
    exact .node (by simp [v, Value.elements?])
      (by simp [v, Value.components, hrow])
  have hcharset : s.LacksCharset charsetUtf32 := by decide
  have hadapt : backend.adapt s = .ok columns := by
    rw [Backend.adapt_eq adaptCharset_ne_nil hs.wellFormed]
    rfl
  have hcolumns : backend.isInstance columns v = true := rfl
  obtain ⟨t, ht, hmembers⟩ := isInstance_of_isInstance_adapt hs hcharset hv
  rw [hadapt] at ht
  cases ht
  exact ⟨⟨hs, hcharset, hv⟩, hadapt, hcolumns, hmembers hcolumns⟩

end Columnar

end Schemata
