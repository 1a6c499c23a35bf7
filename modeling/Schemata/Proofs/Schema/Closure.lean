import Schemata.Proofs.Backend.Columnar
import Schemata.Proofs.Document.Readable
import Schemata.Proofs.Random.Perturb
import Mathlib.Logic.Relation

/-!
# Well-formed schemas stay well-formed

Schemas are got from schemas by following paths and references, by copying,
adapting and changing them, and anew from documents and by chance.  Most of
these end with the constructors at every node that they touch.  A path into a
tensor does not: what it leaves of the extents is a tensor that nobody built,
and which is well-formed because some extent is left.
-/

namespace Schemata.Schema

theorem WellFormed.selects
    {s t : Schema} {segment : Segment} (hs : s.WellFormed)
    (h : s.Selects segment t) : t.WellFormed := by
  obtain ⟨hnode, hchildren⟩ := hs
  cases h with
  | behind => exact absurd rfl hnode.1
  | element => exact hchildren _ (by simp [children])
  | slice =>
      -- The tensor that remains was never built, but has its extents from one
      -- that was.
      obtain ⟨_, hmin⟩ := hnode
      refine .node ⟨by simp, ?_⟩ hchildren
      exact fun d hd => hmin d (List.mem_cons_of_mem _ hd)
  | item => exact hchildren _ (by simp [children])
  | value => exact hchildren _ (by simp [children])
  | field hfield =>
      exact hchildren _ (List.mem_map_of_mem (mem_values_of_field? hfield))

theorem WellFormed.dereference
    {s t : Schema} {path : Path} (hs : s.WellFormed)
    (h : s.dereference path = .ok t) : t.WellFormed :=
  dereferenceFrom_preserves (fun _ _ _ hs hselects => hs.selects hselects) hs h

/-- The schemas that one operation gives for a schema.  Choices are made by any
function that changes a state, from any state, and a random change may be tried
any number of times. -/
inductive Yields (s t : Schema) : Prop
  | dereference {path : Path} : s.dereference path = .ok t → Yields s t
  | resolve {path : Path} : resolve (some s) path = .ok t → Yields s t
  | copy : s.copy = .ok t → Yields s t
  | adapt : Columnar.backend.adapt s = .ok t → Yields s t
  | read {d : Document} : d.toSchema = .ok t → Yields s t
  | random {σ : Type} [MonadChoose (StateM σ)] {depth : Int} {start : σ} :
      ((Random.schema depth : ExceptT _ (StateM σ) _).run.run start).1 =
        .ok t → Yields s t
  | perturb {σ : Type} [MonadChoose (StateM σ)] {attempts : Nat} {start : σ} :
      ((Perturb.different s attempts : ExceptT _ (StateM σ) _).run.run
        start).1 = .ok (some t) → Yields s t

theorem Yields.wellFormed
    {s t : Schema} (hs : s.WellFormed) (h : Yields s t) : t.WellFormed := by
  cases h with
  | dereference h => exact hs.dereference h
  | resolve h => exact hs.dereference (dereference_of_resolve h)
  | copy h =>
      rw [hs.copy_eq] at h
      cases h
      exact hs
  | adapt h =>
      rw [Backend.adapt_eq Columnar.adaptCharset_ne_nil hs] at h
      cases h
      exact hs.recode Columnar.adaptCharset_ne_nil
  | read h => exact (Document.readable_of_toSchema h).built.wellFormed
  | @random σ _ depth start h =>
      have hdrawn : Random.Drawn depth.toNat t :=
        Always.of_run (Random.always_schema depth : Always True _ _) h
      exact hdrawn.built.wellFormed
  | @perturb σ _ attempts start h =>
      have hbuilt : ∀ u ∈ some t, u.Built ∧ u.same s = false :=
        Always.of_run (Perturb.always_different hs (fun _ => trivial) attempts :
          Always True _ _) h
      exact (hbuilt t rfl).1.wellFormed

/-- Whatever operations follow each other, a well-formed schema gives
well-formed schemas only. -/
theorem wellFormed_of_yields
    {s t : Schema} (hs : s.WellFormed) (h : Relation.ReflTransGen Yields s t) :
    t.WellFormed := by
  induction h with
  | refl => exact hs
  | tail _ hstep ih => exact hstep.wellFormed ih

set_option maxRecDepth 4000 in
/-- Half way into a table of texts, whose two encodings become one in columns,
and on to a table that is one longer. -/
theorem wellFormed_of_yields_table :
    let wide := Schema.string charsetUtf32 (some 9)
    let narrow := Schema.string charsetUtf8 (some 5)
    let s := Schema.record [([0x74], .tensor (.union [wide, narrow]) [2, 3])]
    let t := Schema.tensor (.union [wide]) [4]
    (s.WellFormed ∧ Relation.ReflTransGen Yields s t) ∧ t.WellFormed := by
  intro wide narrow s t
  have hs : s.WellFormed := by
    have hwide : Build.string charsetUtf32 9 = .ok wide := rfl
    have hnarrow : Build.string charsetUtf8 5 = .ok narrow := rfl
    have hunion : Build.union ([narrow, wide].map some) =
        .ok (.union [wide, narrow]) := by
      rw [Union.build_union]
      rfl
    have htensor : Build.tensor (some (.union [wide, narrow])) [2, 3] =
        .ok (.tensor (.union [wide, narrow]) [2, 3]) := rfl
    have hrecord : Build.record
        [([0x74], some (.tensor (.union [wide, narrow]) [2, 3]))] = .ok s := rfl
    refine Built.wellFormed (.record ?_ hrecord)
    have hchoice : (Schema.union [wide, narrow]).Built := by
      refine .union ?_ hunion
      simp [Built.string hwide, Built.string hnarrow]
    simp [Built.tensor hchoice htensor]
  have hpath : Yields s (.tensor (.union [wide, narrow]) [3]) := by
    have h : s.dereference [.field [0x74], .index 1] =
        .ok (.tensor (.union [wide, narrow]) [3]) := rfl
    exact .dereference h
  have hcolumns : Yields (.tensor (.union [wide, narrow]) [3])
      (.tensor (.union [wide]) [3]) := by
    refine .adapt ?_
    rw [Backend.adapt_eq Columnar.adaptCharset_ne_nil (hpath.wellFormed hs)]
    rfl
  have hlonger : Yields (.tensor (.union [wide]) [3]) t := by
    let _ : MonadChoose (StateM Unit) := ⟨fun _ => pure 0⟩
    have h : ((Perturb.different (.tensor (.union [wide]) [3]) 1 :
        ExceptT _ (StateM Unit) _).run.run ()).1 = .ok (some t) := rfl
    exact .perturb h
  have hrun : Relation.ReflTransGen Yields s t :=
    ((Relation.ReflTransGen.single hpath).tail hcolumns).tail hlonger
  exact ⟨⟨hs, hrun⟩, wellFormed_of_yields hs hrun⟩

end Schemata.Schema
