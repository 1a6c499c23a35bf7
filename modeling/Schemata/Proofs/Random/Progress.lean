import Schemata.Proofs.Random.Script

/-!
# Some choices change every schema

Changing the outermost node can give an equal schema, so the change is tried
again.  For every schema there are choices that end this at the first attempt.
A node that is no union has an attribute that can be changed to another value.
A possibility added to a union may be covered by one that is there, so in a
union the first possibility is changed instead: it occurs only once, so that it
is not in the changed union.
-/

namespace Schemata.Perturb

open Schema Schemata.Random

theorem endsIn_atom_null :
    EndsIn (atom : ExceptT ConstructionError (StateM Script) Schema) [0]
      (.ok .null) :=
  fun _ => rfl

theorem endsIn_atom_boolean :
    EndsIn (atom : ExceptT ConstructionError (StateM Script) Schema) [1]
      (.ok .boolean) :=
  fun _ => rfl

theorem exists_endsIn_charset_ne (charset : Bytes) :
    ∃ i other, other ≠ [] ∧ other ≠ charset ∧
      EndsIn (Random.charset : ExceptT ConstructionError (StateM Script) Bytes)
        [i] (.ok other) := by
  by_cases hbytes : charset = charsetBytes
  · have hother : charsetUtf8 ≠ charset := by
      rw [hbytes]
      decide
    exact ⟨1, charsetUtf8, by decide, hother, fun _ => rfl⟩
  · have hother : charsetBytes ≠ charset := fun h => hbytes h.symm
    exact ⟨0, charsetBytes, by decide, hother, fun _ => rfl⟩

theorem exists_endsIn_modify_record
    {fields : List (Bytes × Schema)} (hs : (record fields).NodeWellFormed) :
    ∃ choices others, others ≠ fields ∧
      EndsIn (modify (.record fields)) choices (.ok (.record others)) := by
  obtain ⟨hnames, hincreasing⟩ := hs
  cases fields with
  | nil =>
      exact ⟨[0], [("f0", .null)], by simp, endsIn_atom_null.bind fun _ => rfl⟩
  | cons f rest =>
      have hrest : (record rest).NodeWellFormed :=
        ⟨(List.forall_mem_cons.mp hnames).2,
          (List.pairwise_cons.mp hincreasing).2⟩
      have hbuild : Build.record (rest.map fun g => (g.1, some g.2)) =
          .ok (.record rest) := hrest.build_layer
      refine ⟨[0, 0], rest, ?_, ?_⟩
      · intro h
        simpa using congrArg List.length h
      · rw [← hbuild, modify]
        apply (endsIn_chooseFirst_true).bind
        exact (endsIn_choose (Nat.succ_pos _)).bind (endsIn_constructed _)

/-- An attribute of a node that is no union can be changed. -/
theorem exists_endsIn_modify_ne
    {s : Schema} (hs : s.NodeWellFormed) (hkind : s.kind ≠ .union) :
    ∃ choices t, t ≠ s ∧ t.kind ≠ .union ∧
      EndsIn (modify s) choices (.ok t) := by
  cases s with
  | null => exact ⟨[1], .boolean, by simp, by decide, endsIn_atom_boolean⟩
  | anything | nothing | boolean | mapping =>
      exact ⟨[0], .null, by simp, by decide, endsIn_atom_null⟩
  | number whole signed nbytes =>
      have hflipped : (number (!whole) signed nbytes).NodeWellFormed := hs
      have hbuild : Build.number (!whole) signed nbytes =
          .ok (.number (!whole) signed nbytes) := hflipped.build_layer
      refine ⟨[0], .number (!whole) signed nbytes, by simp,
        by simp [kind], ?_⟩
      rw [← hbuild]
      apply (endsIn_choose (by decide : 0 < 2 + 1)).bind
      exact endsIn_constructed _
  | string charset maxLength =>
      obtain ⟨i, other, hne, hother, hchoose⟩ :=
        exists_endsIn_charset_ne charset
      have hrecoded : (string other maxLength).NodeWellFormed := hne
      have hbuild : Build.string other (Layer.lengthBound maxLength) =
          .ok (.string other maxLength) := hrecoded.build_layer
      refine ⟨[0, i], .string other maxLength, by simp [hother],
        by simp [kind], ?_⟩
      rw [← hbuild]
      apply (endsIn_chooseFirst_true).bind
      exact hchoose.bind (endsIn_constructed _)
  | tensor items dimensions =>
      obtain ⟨_, hmin⟩ := hs
      have hlonger : (tensor items (dimensions ++ [1])).NodeWellFormed := by
        refine ⟨by simp, ?_⟩
        intro d hd
        rcases List.mem_append.mp hd with hd | hd
        · exact hmin d hd
        · rw [List.mem_singleton.mp hd]
      have hbuild : Build.tensor (some items)
          (dimensions.map Int.ofNat ++ [Int.ofNat (0 + 1)]) =
            .ok (.tensor items (dimensions ++ [1])) := by
        rw [← hlonger.build_layer, ← List.map_singleton, ← List.map_append]
        rfl
      refine ⟨[1, 0], .tensor items (dimensions ++ [1]), by simp,
        by simp [kind], ?_⟩
      rw [← hbuild]
      apply (endsIn_chooseFirst_false).bind
      exact (endsIn_choose (by decide : 0 < 2 + 1)).bind (endsIn_constructed _)
  | collection items ordered maxLength =>
      have hflipped :
          (collection items (!ordered) maxLength).NodeWellFormed := trivial
      have hbuild : Build.collection (some items) (!ordered)
          (Layer.lengthBound maxLength) =
            .ok (.collection items (!ordered) maxLength) :=
        hflipped.build_layer
      refine ⟨[0], .collection items (!ordered) maxLength, by simp,
        by simp [kind], ?_⟩
      rw [← hbuild]
      exact (endsIn_chooseFirst_true).bind (endsIn_constructed _)
  | record fields =>
      obtain ⟨choices, others, hne, hends⟩ := exists_endsIn_modify_record hs
      exact ⟨choices, .record others, by simpa using hne, by simp [kind], hends⟩
  | reference path =>
      exact ⟨[], .reference (path ++ [.field "x"]), by simp, by simp [kind],
        endsIn_pure _⟩
  | union => exact absurd rfl hkind

/-- What replaces the only occurrence of a possibility leaves it out. -/
theorem not_mem_possibilities_of_replaced
    {p q : Schema} {ps : List Schema} (hps : Union.NormalForm (p :: ps))
    (hne : q ≠ p) (hkind : q.kind ≠ .union) :
    p ∉ Union.possibilities (q :: ps) := by
  intro hp
  obtain ⟨r, hr, hoffers⟩ := Union.offered_of_mem_possibilities hp
  rcases List.mem_cons.mp hr with rfl | hr
  · exact hne (hoffers.eq_of_kind_ne_union hkind).symm
  · have hrkind := hps.kind_ne_union r (List.mem_cons_of_mem p hr)
    have hnodup := List.nodup_cons.mp hps.antichain.nodup
    rw [hoffers.eq_of_kind_ne_union hrkind] at hnodup
    exact hnodup.1 hr

theorem endsIn_unionM (given : List Schema) :
    EndsIn (Build.unionM (given.map some)) []
      (.ok (.union (Union.possibilities given))) := by
  rw [unionM_eq_constructed, ← Union.build_union]
  exact endsIn_constructed _

theorem exists_endsIn_change_union_ne
    {ps : List Schema} (hps : (union ps).WellFormed) :
    ∃ choices others, others ≠ ps ∧
      EndsIn (change (.union ps)) choices (.ok (.union others)) := by
  obtain ⟨hnode, hchildren⟩ := hps
  cases ps with
  | nil =>
      have hadd : EndsIn (modify (.union [])) [0] (.ok (.union [.null])) :=
        endsIn_atom_null.bind fun _ => rfl
      obtain ⟨choices, hchange⟩ := exists_endsIn_change_of_modify hadd
      exact ⟨choices, [.null], by simp, hchange⟩
  | cons p ps =>
      have hp : p ∈ p :: ps := List.mem_cons_self
      obtain ⟨hpnode, _⟩ := hchildren p hp
      obtain ⟨_, q, hne, hkind, hmodify⟩ :=
        exists_endsIn_modify_ne hpnode (hnode.kind_ne_union p hp)
      obtain ⟨choices, hchange⟩ := exists_endsIn_change_of_modify hmodify
      have hplace : 0 < (p :: ps).length := Nat.succ_pos _
      have hfirst : EndsIn (changeAt 0 (p :: ps)) choices (.ok (q :: ps)) :=
        endsIn_changeAt hplace hchange
      obtain ⟨choices', hall⟩ :
          ∃ choices', EndsIn (change (.union (p :: ps))) choices'
            (.ok (.union (Union.possibilities (q :: ps)))) := by
        rw [change]
        apply exists_endsIn_target_some hplace
        exact hfirst.bind (endsIn_unionM (q :: ps))
      refine ⟨choices', Union.possibilities (q :: ps), ?_, hall⟩
      intro heq
      apply not_mem_possibilities_of_replaced hnode hne hkind
      rw [heq]
      exact hp

theorem exists_endsIn_change_ne {s : Schema} (hs : s.WellFormed) :
    ∃ choices t, t ≠ s ∧ EndsIn (change s) choices (.ok t) := by
  by_cases hkind : s.kind = .union
  · cases s with
    | union ps =>
        obtain ⟨choices, others, hne, hchange⟩ :=
          exists_endsIn_change_union_ne hs
        exact ⟨choices, .union others, by simpa using hne, hchange⟩
    | _ => cases hkind
  · obtain ⟨hnode, _⟩ := hs
    obtain ⟨_, t, hne, _, hmodify⟩ := exists_endsIn_modify_ne hnode hkind
    obtain ⟨choices, hchange⟩ := exists_endsIn_change_of_modify hmodify
    exact ⟨choices, t, hne, hchange⟩

/-- For every schema there are choices, each within its bound and none left
over, with which the first attempt gives a schema that is not equal, so that
there is no second one, however many are allowed. -/
theorem exists_choices_different {s : Schema} (hs : s.Built) :
    ∃ choices t, t.Built ∧ t.same s = false ∧
      (change s : ExceptT ConstructionError (StateM Script) Schema).run.run
        (.choices choices) = (.ok t, .choices []) ∧
      ∀ attempts, 0 < attempts → (Schema.perturb (some s) attempts :
        ExceptT ConstructionError (StateM Script) (Option Schema)).run.run
          (.choices choices) = (.ok (some t), .choices []) := by
  obtain ⟨choices, t, hne, hchange⟩ := exists_endsIn_change_ne hs.wellFormed
  have hdiffers : t.same s = false := by
    rw [← Bool.not_eq_true, same_iff]
    exact hne
  have hbuilt : t.Built := by
    have halways : Always True
        (change s : ExceptT ConstructionError (StateM Script) Schema) Built :=
      always_change hs.wellFormed fun _ => trivial
    exact halways.of_run (congrArg Prod.fst hchange.run_eq)
  refine ⟨choices, t, hbuilt, hdiffers, hchange.run_eq, ?_⟩
  intro attempts hattempts
  obtain ⟨later, rfl⟩ := Nat.exists_eq_add_one.mpr hattempts
  have hfound : EndsIn (Schema.perturb (some s) (later + 1)) (choices ++ [])
      (.ok (some t)) := by
    rw [Schema.perturb, different]
    apply hchange.bind
    rw [hdiffers]
    exact endsIn_pure (some t)
  rw [List.append_nil] at hfound
  exact hfound.run_eq

theorem exists_choices_different_anything :
    (union [.anything]).Built ∧
      ∃ choices t, t.Built ∧ t.same (.union [.anything]) = false ∧
        (change (.union [.anything]) :
          ExceptT ConstructionError (StateM Script) Schema).run.run
            (.choices choices) = (.ok t, .choices []) ∧
        ∀ attempts, 0 < attempts →
          (Schema.perturb (some (.union [.anything])) attempts :
            ExceptT ConstructionError (StateM Script) (Option Schema)).run.run
              (.choices choices) = (.ok (some t), .choices []) := by
  have hbuilt : (union [.anything]).Built := by
    apply Built.union_of_kept
    · simp [Built.anything]
    · rfl
  exact ⟨hbuilt, exists_choices_different hbuilt⟩

end Schemata.Perturb
