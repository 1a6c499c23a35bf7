import Schemata.Proofs.Backend.Subtyping
import Schemata.Proofs.Schema.Closure

/-!
# Adapted schemas

Renaming encodings keeps the nodes of a schema but for possibilities that a
union loses.  So every encoding in the result is the new name of one that was
there, and a schema whose encodings keep their names stays as it is.

What a segment selects is still selected after the renaming.  Unions that
become smaller are never in its way: a path does not enter a union, and keys or
targets behind a union of one possibility are still behind one.
-/

namespace Schemata

namespace Union

theorem possibilities_singleton
    {p : Schema} (hp : p.kind ≠ .union) : possibilities [p] = [p] := by
  have hnormal : NormalForm [p] :=
    ⟨by simpa using hp, List.pairwise_singleton _ _,
      List.pairwise_singleton _ _⟩
  exact hnormal.possibilities_eq

end Union

namespace Schema

variable {rename : Bytes → Bytes}

/-! ## Encodings of the result -/

@[simp]
theorem charset?_recode (s : Schema) :
    (s.recode rename).charset? = s.charset?.map rename := by
  cases s <;> rfl

/-- What is directly inside a renamed schema is found in one of the schemas
inside, renamed. -/
theorem exists_child_of_mem_children_recode
    {s c : Schema} (hc : c ∈ (s.recode rename).children) :
    ∃ d ∈ s.children, c ∈ (d.recode rename).parts := by
  by_cases hkind : s.kind = .union
  · cases s with
    | union ps =>
        simp only [recode, recodeAll_eq, children] at hc
        obtain ⟨p, hp, hoffers⟩ := Union.offered_of_mem_possibilities hc
        obtain ⟨d, hd, rfl⟩ := List.mem_map.mp hp
        exact ⟨d, hd, hoffers.mem_parts⟩
    | _ => cases hkind
  · rw [recode_of_kind_ne_union hkind, children_mapNode] at hc
    obtain ⟨d, hd, rfl⟩ := List.mem_map.mp hc
    exact ⟨d, hd, self_mem_parts _⟩

theorem exists_charset?_of_mem_parts_recode
    {s p : Schema} (hp : p ∈ (s.recode rename).parts) :
    ∃ q ∈ s.parts, p.charset? = q.charset?.map rename := by
  induction s using childrenInduction generalizing p with
  | step s ih =>
      rw [parts_eq] at hp
      rcases List.mem_append.mp hp with hcut | hinside
      · refine ⟨s, self_mem_parts s, ?_⟩
        by_cases htensor : p.kind = .tensor
        · -- Only a tensor has cuts that are tensors, and none has an encoding.
          cases s with
          | tensor items dimensions =>
              obtain ⟨rest, _, rfl⟩ := List.mem_map.mp hcut
              rfl
          | _ =>
              rw [List.mem_singleton.mp hcut]
              rfl
        · rw [eq_of_mem_cuts hcut htensor, charset?_recode]
      · obtain ⟨c, hc, hpc⟩ := List.mem_flatMap.mp hinside
        obtain ⟨d, hd, hcd⟩ := exists_child_of_mem_children_recode hc
        obtain ⟨q, hq, hcharset⟩ :=
          ih d hd (parts_subset_of_mem_parts hcd hpc)
        exact ⟨q, parts_subset_of_mem_parts (mem_parts_of_mem_children hd) hq,
          hcharset⟩

theorem lacksCharset_recode
    {charset : Bytes} (hrename : ∀ c, rename c ≠ charset) (s : Schema) :
    (s.recode rename).LacksCharset charset := by
  intro p hp hcharset
  obtain ⟨q, _, hq⟩ := exists_charset?_of_mem_parts_recode hp
  rw [hq, Option.map_eq_some_iff] at hcharset
  obtain ⟨c, _, hc⟩ := hcharset
  exact hrename c hc

/-! ## Schemas that stay as they are -/

theorem renew_congr
    {g h : Schema → Schema} {s : Schema}
    (hsame : ∀ c ∈ s.children, g c = h c) : s.renew g = s.renew h := by
  cases s with
  | tensor items dimensions => simp [renew, hsame items (by simp [children])]
  | collection items ordered maxLength =>
      simp [renew, hsame items (by simp [children])]
  | mapping keys values =>
      simp [renew, hsame keys (by simp [children]),
        hsame values (by simp [children])]
  | record fields =>
      have hfields : (fields.map fun f => (f.1, g f.2)) =
          fields.map fun f => (f.1, h f.2) := by
        refine List.map_congr_left ?_
        intro f hf
        rw [hsame f.2 (List.mem_map_of_mem hf)]
      rw [renew, renew, hfields]
  | union possibilities =>
      have hps : possibilities.map g = possibilities.map h :=
        List.map_congr_left hsame
      rw [renew, renew, hps]
  | _ => rfl

theorem recodeNode_of_fixed
    {s : Schema} (hfixed : ∀ c, s.charset? = some c → rename c = c) :
    s.recodeNode rename = s := by
  cases s with
  | string charset maxLength => rw [recodeNode, hfixed charset rfl]
  | _ => rfl

/-- A well-formed schema whose encodings keep their names is not changed, not
even in the order of its possibilities. -/
theorem WellFormed.recode_of_fixed
    {s : Schema} (hs : s.WellFormed)
    (hfixed : ∀ p ∈ s.parts, ∀ c, p.charset? = some c → rename c = c) :
    s.recode rename = s := by
  induction hs with
  | @node s hnode _ ih =>
      have hchildren : ∀ c ∈ s.children, c.recode rename = id c := by
        intro c hc
        refine ih c hc ?_
        intro p hp
        exact hfixed p
          (parts_subset_of_mem_parts (mem_parts_of_mem_children hc) hp)
      calc s.recode rename
          = (s.recodeNode rename).renew (Schema.recode rename) :=
            recode_eq_renew s
        _ = s.renew (Schema.recode rename) := by
            rw [recodeNode_of_fixed (hfixed s s.self_mem_parts)]
        _ = s.renew id := renew_congr hchildren
        _ = s := hnode.renew_id

/-! ## Following paths -/

/-- What stands behind unions of one possibility, unless it is a choice, still
does. -/
theorem WellFormed.unwrap_recode
    {s : Schema} (hs : s.WellFormed) (hkind : s.unwrap.kind ≠ .union) :
    (s.recode rename).unwrap = s.unwrap.recode rename := by
  by_cases hunion : s.kind = .union
  · cases s with
    | union ps =>
        rcases ps with _ | ⟨p, _ | ⟨q, rest⟩⟩
        · exact absurd rfl hkind
        · obtain ⟨hnormal, _⟩ := hs
          have hp : p.kind ≠ .union :=
            hnormal.kind_ne_union p List.mem_cons_self
          have hp' : (p.recode rename).kind ≠ .union := by
            rwa [kind_recode]
          rw [Schema.recode, recodeAll_eq, List.map_cons, List.map_nil,
            Union.possibilities_singleton hp', unwrap, unwrap,
            unwrap_of_kind_ne_union hp, unwrap_of_kind_ne_union hp']
        · exact absurd rfl hkind
    | _ => cases hunion
  · have hunion' : (s.recode rename).kind ≠ .union := by
      rwa [kind_recode]
    rw [unwrap_of_kind_ne_union hunion, unwrap_of_kind_ne_union hunion']

theorem WellFormed.acceptsKey_recode
    {keys : Schema} {segment : Segment} (hkeys : keys.WellFormed)
    (haccepts : keys.acceptsKey segment = true) :
    (keys.recode rename).acceptsKey segment = true := by
  have hkind : keys.unwrap.kind ≠ .union := by
    intro hunion
    unfold acceptsKey at haccepts
    cases hunwrap : keys.unwrap <;> simp_all [kind]
  unfold acceptsKey at haccepts ⊢
  rw [hkeys.unwrap_recode hkind]
  cases hunwrap : keys.unwrap <;> simp_all [Schema.recode]

theorem field?_recode (name : Bytes) (fields : List (Bytes × Schema)) :
    field? name (fields.map fun f => (f.1, f.2.recode rename)) =
      (field? name fields).map (recode rename) := by
  simp only [field?, List.find?_map, Option.map_map]
  rfl

/-- A segment selects the same schema as before, renamed. -/
theorem Selects.recode
    {s t : Schema} {segment : Segment} (hs : s.WellFormed)
    (h : s.Selects segment t) :
    (s.recode rename).Selects segment (t.recode rename) := by
  obtain ⟨hnode, hchildren⟩ := hs
  cases h with
  | behind => exact absurd rfl hnode.1
  | element hlow hhigh => exact .element hlow hhigh
  | slice hlow hhigh => exact .slice hlow hhigh
  | item hlow hbound => exact .item hlow hbound
  | @value keys values _ haccepts =>
      have hkeys : keys.WellFormed := hchildren keys (by simp [children])
      exact .value (hkeys.acceptsKey_recode haccepts)
  | field hfield =>
      rw [Schema.recode, recodeFields_eq]
      refine .field ?_
      rw [field?_recode, hfield]
      rfl

theorem dereferenceFrom_recode
    {whole path : Path} {position : Nat} {s t : Schema} (hs : s.WellFormed)
    (h : dereferenceFrom whole position s path = .ok t) :
    dereferenceFrom whole position (s.recode rename) path =
      .ok (t.recode rename) := by
  induction path generalizing position s with
  | nil =>
      cases h
      rfl
  | cons segment rest ih =>
      obtain ⟨next, hselects, hrest⟩ := dereferenceFrom_cons_eq_ok_iff.mp h
      exact dereferenceFrom_cons_eq_ok_iff.mpr
        ⟨next.recode rename, hselects.recode hs,
          ih (hs.selects hselects) hrest⟩

theorem resolve_recode
    {root t : Schema} {path : Path} (hroot : root.WellFormed)
    (h : resolve (some root) path = .ok t) :
    resolve (some (root.recode rename)) path = .ok (t.recode rename) := by
  obtain ⟨hpath, hreference, hunion⟩ := resolve_eq_ok_iff.mp h
  have htarget : t.WellFormed := hroot.dereference hpath
  refine resolve_eq_ok_iff.mpr ⟨dereferenceFrom_recode hroot hpath, ?_⟩
  rw [htarget.unwrap_recode hunion, kind_recode]
  exact ⟨hreference, hunion⟩

end Schema

namespace Columnar

theorem adaptCharset_ne_utf8 (charset : Bytes) :
    adaptCharset charset ≠ charsetUtf8 := by
  unfold adaptCharset
  split
  · decide
  · assumption

theorem adaptCharset_of_ne_utf8
    {charset : Bytes} (h : charset ≠ charsetUtf8) :
    adaptCharset charset = charset :=
  if_neg h

theorem adapt_of_lacksCharset
    {s : Schema} (hs : s.WellFormed) (hcharset : s.LacksCharset charsetUtf8) :
    backend.adapt s = .ok s := by
  have hfixed : s.recode adaptCharset = s := by
    refine hs.recode_of_fixed ?_
    rintro p hp c hc
    refine adaptCharset_of_ne_utf8 ?_
    rintro rfl
    exact hcharset p hp hc
  rw [Backend.adapt_eq adaptCharset_ne_nil hs]
  exact congrArg _ hfixed

/-- A schema that was built can be adapted, to one without any text of varying
width.  Adapting that one again changes nothing, as it changes nothing about
any schema without such texts. -/
theorem adapt_idempotent {s : Schema} (hs : s.Built) :
    ∃ t, backend.adapt s = .ok t ∧ t.LacksCharset charsetUtf8 ∧
      (∃ u, backend.adapt t = .ok u ∧ u.same t = true) ∧
      (s.LacksCharset charsetUtf8 → t.same s = true) := by
  have hadapt : backend.adapt s = .ok (s.recode adaptCharset) :=
    Backend.adapt_eq adaptCharset_ne_nil hs.wellFormed
  have hlacks : (s.recode adaptCharset).LacksCharset charsetUtf8 :=
    Schema.lacksCharset_recode adaptCharset_ne_utf8 s
  have hadapted : (s.recode adaptCharset).WellFormed :=
    hs.wellFormed.recode adaptCharset_ne_nil
  refine ⟨_, hadapt, hlacks,
    ⟨_, adapt_of_lacksCharset hadapted hlacks, (Schema.same_iff _ _).mpr rfl⟩,
    ?_⟩
  intro hcharset
  rw [adapt_of_lacksCharset hs.wellFormed hcharset, Except.ok.injEq] at hadapt
  exact (Schema.same_iff _ _).mpr hadapt.symm

set_option maxRecDepth 4000 in
/-- Two texts become one, and of two lists the one of longer texts remains. -/
theorem adapt_idempotent_collapse :
    let wide := Schema.string charsetUtf32 (some 9)
    let narrow := Schema.string charsetUtf8 (some 5)
    let choice := Schema.union [wide, narrow]
    let lists := Schema.union
      [.collection wide true (some 3),
        .collection (.string charsetUtf8 (some 20)) true none]
    let s := Schema.mapping choice lists
    let t := Schema.mapping (.union [wide])
      (.union [.collection (.string charsetUtf32 (some 20)) true none])
    s.Built ∧ backend.adapt s = .ok t ∧ t.LacksCharset charsetUtf8 ∧
      ∃ u, backend.adapt t = .ok u ∧ u.same t = true := by
  intro wide narrow choice lists s t
  have htext : ∀ (charset : Bytes) (n : Nat), charset ≠ [] →
      (Schema.string charset (some n)).Built := by
    intro charset n hcharset
    exact .string (Build.string_eq_ok_iff.mpr
      ⟨hcharset, some n, rfl, rfl⟩)
  have hwide : wide.Built := htext _ _ (by decide)
  have hnarrow : narrow.Built := htext _ _ (by decide)
  have hlong : (Schema.string charsetUtf8 (some 20)).Built :=
    htext _ _ (by decide)
  have hchoice : choice.Built :=
    .union_of_kept (by simp [hwide, hnarrow]) rfl
  have hlists : lists.Built := by
    have hfirst : Build.collection (some (.string charsetUtf8 (some 20))) true
        (-1) = .ok (.collection (.string charsetUtf8 (some 20)) true none) :=
      rfl
    have hsecond : Build.collection (some wide) true 3 =
        .ok (.collection wide true (some 3)) := rfl
    refine .union_of_kept ?_ rfl
    simp [Schema.Built.collection hlong hfirst,
      Schema.Built.collection hwide hsecond]
  have hs : s.Built := .mapping hchoice hlists rfl
  have hadapt : backend.adapt s = .ok t := by
    rw [Backend.adapt_eq adaptCharset_ne_nil hs.wellFormed]
    rfl
  obtain ⟨t', ht', hlacks, hagain, _⟩ := adapt_idempotent hs
  rw [hadapt] at ht'
  cases ht'
  exact ⟨hs, hadapt, hlacks, hagain⟩

/-- Every path that leads from a schema to another one leads from the adapted
schema to the other one adapted, and so does every reference. -/
theorem dereference_adapt {s : Schema} (hs : s.Built) :
    ∃ s', backend.adapt s = .ok s' ∧
      (∀ path t, s.dereference path = .ok t →
        ∃ t' u, backend.adapt t = .ok t' ∧ s'.dereference path = .ok u ∧
          u.same t' = true) ∧
      ∀ path t, Schema.resolve (some s) path = .ok t →
        ∃ t' u, backend.adapt t = .ok t' ∧
          Schema.resolve (some s') path = .ok u ∧ u.same t' = true := by
  have hadapt : ∀ {t : Schema}, t.WellFormed →
      backend.adapt t = .ok (t.recode adaptCharset) :=
    fun ht => Backend.adapt_eq adaptCharset_ne_nil ht
  refine ⟨_, hadapt hs.wellFormed, ?_, ?_⟩
  · intro path t hpath
    exact ⟨_, _, hadapt (hs.wellFormed.dereference hpath),
      Schema.dereferenceFrom_recode hs.wellFormed hpath,
      (Schema.same_iff _ _).mpr rfl⟩
  · intro path t hresolve
    have hpath := Schema.dereference_of_resolve hresolve
    exact ⟨_, _, hadapt (hs.wellFormed.dereference hpath),
      Schema.resolve_recode hs.wellFormed hresolve,
      (Schema.same_iff _ _).mpr rfl⟩

set_option maxRecDepth 4000 in
/-- Through keys behind a union of one and half way into a tensor whose items
lose a possibility, and a reference to the elements of a list. -/
theorem dereference_adapt_columns :
    let wide := Schema.string charsetUtf32 (some 9)
    let narrow := Schema.string charsetUtf8 (some 5)
    let root (text cells : Schema) := Schema.record
      [([0x6C], .collection text true none),
        ([0x6D], .mapping (.union [text]) (.tensor cells [2, 3]))]
    let s := root narrow (.union [wide, narrow])
    let columns := root (.string charsetUtf32 (some 5)) (.union [wide])
    let path : Path := [.field [0x6D], .field [0x6B], .index 1]
    (s.Built ∧ s.dereference path = .ok (.tensor (.union [wide, narrow]) [3]) ∧
      Schema.resolve (some s) [.field [0x6C]] = .ok narrow) ∧
      backend.adapt s = .ok columns ∧
      (∃ t' u, backend.adapt (.tensor (.union [wide, narrow]) [3]) = .ok t' ∧
        columns.dereference path = .ok u ∧ u.same t' = true) ∧
      ∃ t' u, backend.adapt narrow = .ok t' ∧
        Schema.resolve (some columns) [.field [0x6C]] = .ok u ∧
          u.same t' = true := by
  intro wide narrow root s columns path
  have hwide : wide.Built :=
    .string (show Build.string charsetUtf32 9 = .ok wide from rfl)
  have hnarrow : narrow.Built :=
    .string (show Build.string charsetUtf8 5 = .ok narrow from rfl)
  have hkeys : (Schema.union [narrow]).Built :=
    .union_of_kept (by simp [hnarrow]) rfl
  have hcells : (Schema.union [wide, narrow]).Built :=
    .union_of_kept (by simp [hwide, hnarrow]) rfl
  have hs : s.Built := by
    have hlist : Build.collection (some narrow) true (-1) =
        .ok (.collection narrow true none) := rfl
    have htable : Build.tensor (some (.union [wide, narrow])) [2, 3] =
        .ok (.tensor (.union [wide, narrow]) [2, 3]) := rfl
    have hrecord : Build.record
        [([0x6C], some (.collection narrow true none)),
          ([0x6D], some (.mapping (.union [narrow])
            (.tensor (.union [wide, narrow]) [2, 3])))] = .ok s := rfl
    refine .record ?_ hrecord
    have hmapping : (Schema.mapping (.union [narrow])
        (.tensor (.union [wide, narrow]) [2, 3])).Built :=
      .mapping hkeys (.tensor hcells htable) rfl
    simp [Schema.Built.collection hnarrow hlist, hmapping]
  have hpath : s.dereference path =
      .ok (.tensor (.union [wide, narrow]) [3]) := rfl
  have hresolve : Schema.resolve (some s) [.field [0x6C]] = .ok narrow := rfl
  have hadapt : backend.adapt s = .ok columns := by
    rw [Backend.adapt_eq adaptCharset_ne_nil hs.wellFormed]
    rfl
  obtain ⟨s', hs', hpaths, hreferences⟩ := dereference_adapt hs
  rw [hadapt] at hs'
  cases hs'
  exact ⟨⟨hs, hpath, hresolve⟩, hadapt, hpaths _ _ hpath,
    hreferences _ _ hresolve⟩

end Columnar

end Schemata
