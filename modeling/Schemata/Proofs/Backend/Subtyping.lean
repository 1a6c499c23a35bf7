import Schemata.Proofs.Backend.Columnar
import Schemata.Proofs.Subtyping.Simulation

/-!
# Subtyping of adapted schemas

Encodings that are renamed one to one leave all comparisons as they are.
Possibilities that are compared when a union is built again are compared as
before, so that none of them covers another one now.  The union sorts them anew
and loses none.
-/

namespace Schemata

open Subtyping

namespace Schema

variable {rename : Bytes → Bytes} {taken : Bytes}

theorem recode_of_kind_ne_union
    {s : Schema} (hs : s.kind ≠ .union) :
    s.recode rename = s.mapNode rename (recode rename) := by
  cases s with
  | union ps => exact absurd rfl hs
  | _ => simp [recode, mapNode]

/-- The unions in a schema lose no possibility by renaming. -/
def KeepsPossibilities (rename : Bytes → Bytes) (s : Schema) : Prop :=
  ∀ ps, .union ps ∈ s.parts →
    (Union.possibilities (ps.map (recode rename))).Perm
      (ps.map (recode rename))

theorem KeepsPossibilities.part
    {s p : Schema} (hs : s.KeepsPossibilities rename) (hp : p ∈ s.parts) :
    p.KeepsPossibilities rename :=
  fun ps hps => hs ps (parts_subset_of_mem_parts hp hps)

theorem KeepsPossibilities.mem_children_recode
    {s c : Schema} (hs : s.KeepsPossibilities rename)
    (hc : c ∈ (s.recode rename).children) :
    ∃ d ∈ s.children, c = d.recode rename := by
  by_cases hkind : s.kind = .union
  · cases s with
    | union ps =>
        simp only [recode, recodeAll_eq, children] at hc
        rw [(hs ps (self_mem_parts _)).mem_iff] at hc
        obtain ⟨p, hp, rfl⟩ := List.mem_map.mp hc
        exact ⟨p, hp, rfl⟩
    | _ => cases hkind
  · rw [recode_of_kind_ne_union hkind, children_mapNode] at hc
    obtain ⟨d, hd, rfl⟩ := List.mem_map.mp hc
    exact ⟨d, hd, rfl⟩

theorem KeepsPossibilities.referenceFree_recode
    {s : Schema} (hs : s.KeepsPossibilities rename) (hfree : s.ReferenceFree) :
    (s.recode rename).ReferenceFree := by
  induction s using childrenInduction with
  | step s ih =>
      intro p hp hkind
      rw [parts_eq] at hp
      rcases List.mem_append.mp hp with hcut | hinside
      · have hself : p = s.recode rename :=
          eq_of_mem_cuts hcut (by rw [hkind]; decide)
        rw [hself, kind_recode] at hkind
        exact hfree s s.self_mem_parts hkind
      · obtain ⟨c, hc, hpc⟩ := List.mem_flatMap.mp hinside
        obtain ⟨d, hd, rfl⟩ := hs.mem_children_recode hc
        have hpart := mem_parts_of_mem_children hd
        exact ih d hd (hs.part hpart) (hfree.part hpart) p hpc hkind

/-- A union of one possibility remains one, and no other becomes one. -/
theorem KeepsPossibilities.unwrap_recode
    {s : Schema} (hs : s.KeepsPossibilities rename) :
    (s.recode rename).unwrap = s.unwrap.recode rename := by
  induction s using unwrap.induct with
  | case1 p ih =>
      have hperm := hs [p] (self_mem_parts _)
      have hone : Union.possibilities [p.recode rename] = [p.recode rename] :=
        List.perm_singleton.mp hperm
      rw [recode, recodeAll_eq, List.map_cons, List.map_nil, hone, unwrap,
        unwrap, ih (hs.part (mem_parts_of_mem_children (by simp [children])))]
  | case2 s hne =>
      have hself : s.unwrap = s := by
        rw [unwrap]
        exact hne
      rw [hself, unwrap]
      intro q hq
      cases s with
      | union ps =>
          have hperm := hs ps (self_mem_parts _)
          simp only [recode, recodeAll_eq, union.injEq] at hq
          rw [hq, List.singleton_perm] at hperm
          obtain ⟨p, rfl, _⟩ := List.map_eq_singleton_iff.mp hperm.symm
          exact hne p rfl
      | _ => simp [recode] at hq

end Schema

namespace Subtyping

open Schema

variable {rename : Bytes → Bytes} {taken : Bytes}

/-- The second of two schemas is the first one with its encodings renamed. -/
structure RecodedTo (rename : Bytes → Bytes) (taken : Bytes) (s s' : Schema) :
    Prop where
  referenceFree : s.ReferenceFree
  fieldsOrdered : s.FieldsOrdered
  lacksCharset : s.LacksCharset taken
  keepsPossibilities : s.KeepsPossibilities rename
  eq_recode : s' = s.recode rename

theorem RecodedTo.part
    {s s' p : Schema} (h : RecodedTo rename taken s s') (hp : p ∈ s.parts) :
    RecodedTo rename taken p (p.recode rename) :=
  ⟨h.referenceFree.part hp, h.fieldsOrdered.part hp, h.lacksCharset.part hp,
    h.keepsPossibilities.part hp, rfl⟩

theorem RecodedTo.corresponds
    {s s' : Schema} (h : RecodedTo rename taken s s') :
    Corresponds (fun c c' => c ≠ taken ∧ c' = rename c)
      (RecodedTo rename taken) s s' := by
  have hnode : Corresponds (fun c c' => c ≠ taken ∧ c' = rename c)
      (RecodedTo rename taken) s (s.mapNode rename (recode rename)) := by
    refine corresponds_mapNode (h.referenceFree s s.self_mem_parts)
      (h.fieldsOrdered s s.self_mem_parts) ?_ ?_
    · rintro charset maxLength rfl
      refine ⟨?_, rfl⟩
      rintro rfl
      exact h.lacksCharset _ (self_mem_parts _) rfl
    · intro c hc
      exact h.part (mem_parts_of_mem_children hc)
  rw [h.eq_recode]
  by_cases hkind : s.kind = .union
  · cases s with
    | union ps =>
        rw [recode, recodeAll_eq]
        exact hnode.perm (h.keepsPossibilities ps (self_mem_parts _))
    | _ => cases hkind
  · rw [recode_of_kind_ne_union hkind]
    exact hnode

section OneToOne

variable (hrename : Set.InjOn rename {c | c ≠ taken})
include hrename

theorem simulation_recodedTo :
    Simulation (fun c c' => c ≠ taken ∧ c' = rename c)
      (RecodedTo rename taken) := by
  have hunwrap : ∀ {s s'}, RecodedTo rename taken s s' →
      RecodedTo rename taken s.unwrap s'.unwrap := by
    intro s s' h
    rw [h.eq_recode, h.keepsPossibilities.unwrap_recode]
    exact h.part s.unwrap_mem_parts
  refine ⟨?_, hunwrap, fun h => (hunwrap h).corresponds⟩
  rintro c _ d _ ⟨hc, rfl⟩ ⟨hd, rfl⟩
  exact (hrename.eq_iff hc hd).symm

theorem RecodedTo.isSubtype_recode
    {a a' b b' : Schema} (ha : RecodedTo rename taken a a')
    (hb : RecodedTo rename taken b b') :
    a'.isSubtype b' = a.isSubtype b := by
  refine (simulation_recodedTo hrename).isSubtype_eq ha hb
    ha.referenceFree hb.referenceFree ?_ ?_
  · rw [ha.eq_recode]
    exact ha.keepsPossibilities.referenceFree_recode ha.referenceFree
  · rw [hb.eq_recode]
    exact hb.keepsPossibilities.referenceFree_recode hb.referenceFree

/-- The possibilities of a union whose members compare as before are sorted
anew. -/
theorem possibilities_recode_perm
    {ps : List Schema} (hps : Union.NormalForm ps)
    (hinside : ∀ p ∈ ps, RecodedTo rename taken p (p.recode rename)) :
    (Union.possibilities (ps.map (recode rename))).Perm
      (ps.map (recode rename)) := by
  have habsorbs : ∀ p ∈ ps, ∀ q ∈ ps,
      (p.recode rename).absorbs (q.recode rename) = p.absorbs q := by
    intro p hp q hq
    rw [absorbs, (hinside p hp).isSubtype_recode hrename (hinside q hq),
      absorbs]
  have hantichain : Union.Antichain (ps.map (recode rename)) := by
    refine List.pairwise_map.mpr (hps.antichain.imp_of_mem ?_)
    intro p q hp hq hapart
    unfold Union.Apart
    rw [habsorbs p hp q hq, habsorbs q hq p hp]
    exact hapart
  have hkinds : ∀ p ∈ ps.map (recode rename), p.kind ≠ .union := by
    refine List.forall_mem_map.mpr ?_
    intro p hp
    rw [kind_recode]
    exact hps.kind_ne_union p hp
  rw [hantichain.possibilities_eq hkinds]
  exact sortBy_perm _

theorem keepsPossibilities_of_wellFormed
    {s : Schema} (hs : s.WellFormed) (hfree : s.ReferenceFree)
    (hcharset : s.LacksCharset taken) : s.KeepsPossibilities rename := by
  -- Possibilities compare as before only if the unions inside them lose none,
  -- so the induction settles what is inside a union before the union itself.
  induction hs with
  | @node s hnode hchildren ih =>
      have hkeeps : ∀ c ∈ s.children, c.KeepsPossibilities rename :=
        fun c hc => ih c hc (hfree.part (mem_parts_of_mem_children hc))
          (hcharset.child hc)
      intro ps hps
      rw [parts_eq] at hps
      rcases List.mem_append.mp hps with hcut | hinside
      · obtain rfl : Schema.union ps = s := eq_of_mem_cuts hcut (by simp [kind])
        refine possibilities_recode_perm hrename hnode ?_
        intro p hp
        have hpart := mem_parts_of_mem_children (s := .union ps) hp
        exact ⟨hfree.part hpart, (hchildren p hp).fieldsOrdered,
          hcharset.child hp, hkeeps p hp, rfl⟩
      · obtain ⟨c, hc, hpc⟩ := List.mem_flatMap.mp hinside
        exact hkeeps c hc ps hpc

theorem recodedTo_recode
    {s : Schema} (hs : s.WellFormed) (hfree : s.ReferenceFree)
    (hcharset : s.LacksCharset taken) :
    RecodedTo rename taken s (s.recode rename) :=
  ⟨hfree, hs.fieldsOrdered, hcharset,
    keepsPossibilities_of_wellFormed hrename hs hfree hcharset, rfl⟩

end OneToOne

end Subtyping

namespace Columnar

/-- The only encoding that columns rename takes the place of none in use. -/
theorem adaptCharset_injOn : Set.InjOn adaptCharset {c | c ≠ charsetUtf32} := by
  intro c hc d hd h
  unfold adaptCharset at h
  split at h <;> split at h
  · simp_all
  · exact absurd h.symm hd
  · exact absurd h hc
  · exact h

/-- Adapting preserves and reflects subtyping. -/
theorem isSubtype_adapt
    {a b : Schema} (ha : a.Built) (hb : b.Built)
    (hafree : a.ReferenceFree) (hbfree : b.ReferenceFree)
    (hacharset : a.LacksCharset charsetUtf32)
    (hbcharset : b.LacksCharset charsetUtf32) :
    ∃ a' b', backend.adapt a = .ok a' ∧ backend.adapt b = .ok b' ∧
      a'.isSubtype b' = a.isSubtype b := by
  have hadapt : ∀ {s : Schema}, s.Built →
      backend.adapt s = .ok (s.recode adaptCharset) :=
    fun hs => Backend.adapt_eq adaptCharset_ne_nil hs.wellFormed
  refine ⟨_, _, hadapt ha, hadapt hb, ?_⟩
  exact RecodedTo.isSubtype_recode adaptCharset_injOn
    (recodedTo_recode adaptCharset_injOn ha.wellFormed hafree hacharset)
    (recodedTo_recode adaptCharset_injOn hb.wellFormed hbfree hbcharset)

/-- The union of two encodings whose order changes covers the same lists as
before. -/
theorem isSubtype_adapt_lists :
    let seven : Bytes := "utf-7"
    let texts (bound : Option Nat) := Schema.collection
      (.union [.string seven bound, .string charsetUtf8 bound]) true none
    let columns (bound : Option Nat) := Schema.collection
      (.union [.string charsetUtf32 bound, .string seven bound]) true none
    ((texts none).Built ∧ (texts (some 3)).Built ∧
      (texts none).ReferenceFree ∧ (texts (some 3)).ReferenceFree ∧
      (texts none).LacksCharset charsetUtf32 ∧
      (texts (some 3)).LacksCharset charsetUtf32) ∧
      (backend.adapt (texts none) = .ok (columns none) ∧
        backend.adapt (texts (some 3)) = .ok (columns (some 3))) ∧
      (columns none).isSubtype (columns (some 3)) =
        (texts none).isSubtype (texts (some 3)) ∧
      (texts none).isSubtype (texts (some 3)) = .ok true := by
  intro seven texts columns
  have htexts : ∀ (length : Int) (bound : Option Nat),
      Build.string seven length = .ok (.string seven bound) →
      Build.string charsetUtf8 length = .ok (.string charsetUtf8 bound) →
      Build.union ([Schema.string seven bound, .string charsetUtf8 bound].map
        some) = .ok (.union [.string seven bound, .string charsetUtf8 bound]) →
      (texts bound).Built := by
    intro length bound hseven hutf8 hunion
    refine .collection (.union ?_ hunion)
      (show Build.collection (some _) true (-1) = .ok (texts bound) from rfl)
    simp [Schema.Built.string hseven, Schema.Built.string hutf8]
  have ha : (texts none).Built :=
    htexts (-1) none rfl rfl (Union.build_union _)
  have hb : (texts (some 3)).Built :=
    htexts 3 (some 3) rfl rfl (Union.build_union _)
  have hafree : (texts none).ReferenceFree := by decide
  have hbfree : (texts (some 3)).ReferenceFree := by decide
  have hacharset : (texts none).LacksCharset charsetUtf32 := by decide
  have hbcharset : (texts (some 3)).LacksCharset charsetUtf32 := by decide
  have hadapta : backend.adapt (texts none) = .ok (columns none) := by
    rw [Backend.adapt_eq adaptCharset_ne_nil ha.wellFormed]
    rfl
  have hadaptb : backend.adapt (texts (some 3)) = .ok (columns (some 3)) := by
    rw [Backend.adapt_eq adaptCharset_ne_nil hb.wellFormed]
    rfl
  obtain ⟨a', b', ha', hb', heq⟩ :=
    isSubtype_adapt ha hb hafree hbfree hacharset hbcharset
  rw [hadapta] at ha'
  rw [hadaptb] at hb'
  cases ha'
  cases hb'
  exact ⟨⟨ha, hb, hafree, hbfree, hacharset, hbcharset⟩,
    ⟨hadapta, hadaptb⟩, heq, rfl⟩

end Columnar

end Schemata
