import Schemata.Random.Generator
import Schemata.Proofs.Random.Script

/-!
# When a random change fails

A width is doubled and an extent is made larger by one in 64 bits with a sign,
so beyond the limit they become negative, and their constructors refuse them.
Every node can be the one that is changed.  So a change can fail exactly if
some node of the schema, however deep, is at its limit; nothing else that the
constructors are given is ever refused.
-/

namespace Schemata

namespace Schema

/-- The width or the extents of a node have 64 bits with a sign. -/
def NodeFitsWord : Schema → Prop
  | .number _ _ nbytes => nbytes < 2 ^ 63
  | .tensor _ dimensions => ∀ d ∈ dimensions, d < 2 ^ 63
  | _ => True

/-- All widths and extents have 64 bits with a sign. -/
def FitsWord (s : Schema) : Prop := ∀ p ∈ s.postorder, p.NodeFitsWord

theorem FitsWord.node {s : Schema} (hs : s.FitsWord) : s.NodeFitsWord := by
  apply hs
  simp [postorder_eq s]

theorem FitsWord.child
    {s c : Schema} (hs : s.FitsWord) (hc : c ∈ s.children) : c.FitsWord := by
  intro p hp
  apply hs
  rw [postorder_eq]
  exact List.mem_append_left _ (List.mem_flatMap.mpr ⟨c, hc, hp⟩)

end Schema

namespace Perturb

open Schema Schemata.Random

theorem wrap_of_le {n : Int} (hlow : 2 ^ 63 ≤ n) (hhigh : n < 2 ^ 64) :
    wrap n = n - 2 ^ 64 := by
  simp only [wrap, Int.bmod_def, wordCount]
  split <;> omega

theorem number_doubled_refused
    {whole signed : Bool} {nbytes : Nat}
    (hfits : (number whole signed nbytes).NodeFitsWord)
    (hlimit : (number whole signed nbytes).NodeAtLimit) :
    ∃ e, Build.number whole signed (wrap (nbytes * 2)) = .error e := by
  rw [NodeFitsWord] at hfits
  rw [NodeAtLimit] at hlimit
  have hwrapped : wrap (nbytes * 2) ≤ 0 := by
    rw [wrap_of_le (by omega) (by omega)]
    omega
  rw [Build.number, if_pos hwrapped]
  exact ⟨_, rfl⟩

theorem tensor_larger_refused
    {items : Schema} {dimensions : List Nat} {i : Nat}
    (hi : i < dimensions.length)
    (hfits : dimensions.get ⟨i, hi⟩ < 2 ^ 63)
    (hlimit : 2 ^ 63 ≤ dimensions.get ⟨i, hi⟩ + 1) :
    ∃ e, Build.tensor (some items)
      ((dimensions.map Int.ofNat).modify i fun d => wrap (d + 1)) =
        .error e := by
  cases hbuild : Build.tensor (some items)
      ((dimensions.map Int.ofNat).modify i fun d => wrap (d + 1)) with
  | error e => exact ⟨e, rfl⟩
  | ok t =>
      exfalso
      obtain ⟨ds, _, _, hds, _⟩ := Build.tensor_eq_ok_iff.mp hbuild
      have hthere : i < ds.length := by
        have hlength := congrArg List.length hds
        simp only [List.length_modify, List.length_map] at hlength
        omega
      have hwrapped : wrap (dimensions.get ⟨i, hi⟩ + 1) =
          (ds.get ⟨i, hthere⟩ : Int) := by
        have hplace := congrArg (·[i]?) hds
        simpa [List.getElem?_modify, hi, hthere] using hplace
      rw [wrap_of_le (by omega) (by omega)] at hwrapped
      omega

theorem exists_endsIn_modify_error
    {s : Schema} (hfits : s.NodeFitsWord) (hlimit : s.NodeAtLimit) :
    ∃ choices e, EndsIn (modify s) choices (.error e) := by
  cases s with
  | number whole signed nbytes =>
      obtain ⟨e, hrefused⟩ := number_doubled_refused hfits hlimit
      have hdouble : EndsIn (modify (.number whole signed nbytes)) [2]
          (Build.number whole signed (wrap (nbytes * 2))) :=
        (endsIn_choose (by decide : 2 < 2 + 1)).bind (endsIn_constructed _)
      rw [hrefused] at hdouble
      exact ⟨[2], e, hdouble⟩
  | tensor items dimensions =>
      obtain ⟨d, hd, hat⟩ := hlimit
      obtain ⟨i, hi, rfl⟩ := List.getElem_of_mem hd
      have hplace : i < dimensions.length - 1 + 1 := by omega
      obtain ⟨e, hrefused⟩ := tensor_larger_refused hi (hfits _ hd) hat
      have hlarger : EndsIn (modify (.tensor items dimensions)) [0, i]
          (Build.tensor (some items)
            ((dimensions.map Int.ofNat).modify i fun d => wrap (d + 1))) := by
        apply (endsIn_chooseFirst_true).bind
        exact (endsIn_choose hplace).bind (endsIn_constructed _)
      rw [hrefused] at hlarger
      exact ⟨[0, i], e, hlarger⟩
  | _ => cases hlimit

/-- Some choices lead to the node that is at its limit, and make it fail. -/
theorem exists_endsIn_change_error
    {s : Schema} (hfits : s.FitsWord) (hlimit : s.AtLimit) :
    ∃ choices e, EndsIn (change s) choices (.error e) := by
  induction s using childrenInduction with
  | step s ih =>
      rcases atLimit_iff.mp hlimit with ⟨c, hc, hinside⟩ | hnode
      · obtain ⟨choices, e, hfails⟩ := ih c hc (hfits.child hc) hinside
        obtain ⟨choices', hall⟩ := exists_endsIn_change_of_child hc hfails
        exact ⟨choices', e, hall⟩
      · obtain ⟨choices, e, hfails⟩ :=
          exists_endsIn_modify_error hfits.node hnode
        obtain ⟨choices', hall⟩ := exists_endsIn_change_of_modify hfails
        exact ⟨choices', e, hall⟩

/-- Whatever is chosen in so many attempts, no constructor fails, and a copy
that is found could have been built and is not the same. -/
def NeverFails (s : Schema) (attempts : Nat) : Prop :=
  ∀ (σ : Type) [MonadChoose (StateM σ)] (start : σ),
    ∃ r, ((Schema.perturb (some s) attempts :
      ExceptT ConstructionError (StateM σ) (Option Schema)).run.run start).1 =
        .ok r ∧ ∀ t ∈ r, t.Built ∧ t.same s = false

/-- A random change never fails, however often it is tried, exactly if no width
and no extent is at its limit. -/
theorem neverFails_iff
    {s : Schema} (hs : s.Built) (hfits : s.FitsWord) {attempts : Nat}
    (hattempts : 0 < attempts) :
    NeverFails s attempts ↔ ¬ s.AtLimit := by
  constructor
  · intro hnever hlimit
    obtain ⟨choices, e, hfails⟩ := exists_endsIn_change_error hfits hlimit
    have hfirst : EndsIn (different s attempts) choices (.error e) := by
      obtain ⟨later, rfl⟩ := Nat.exists_eq_add_one.mpr hattempts
      exact hfails.bind_error
    obtain ⟨r, hok, _⟩ := hnever Script (.choices choices)
    rw [Schema.perturb, hfirst.run_eq] at hok
    cases hok
  · intro hlimit σ _ start
    have hresult : Always False (different s attempts :
        ExceptT ConstructionError (StateM σ) (Option Schema))
        fun r => ∀ t ∈ r, t.Built ∧ t.same s = false :=
      always_different hs.wellFormed hlimit attempts
    exact hresult.exists_run start

theorem neverFails_iff_largest_extent :
    NeverFails (.mapping .null (.tensor .boolean [1, 2 ^ 63 - 2])) patience ∧
      ¬ NeverFails (.mapping .null (.tensor .boolean [1, 2 ^ 63 - 1])) 1 := by
  let grid (d : Nat) : Schema := .mapping .null (.tensor .boolean [1, d])
  have hbuilt (d : Nat) (hd : 1 ≤ d) : (grid d).Built := by
    have htensor : (tensor .boolean [1, d]).WellFormed := by
      refine .node ⟨by simp, by simpa using hd⟩ ?_
      simpa [children] using Built.boolean.wellFormed
    exact .mapping .null htensor.built rfl
  have hpostorder (d : Nat) : (grid d).postorder =
      [.null, .boolean, .tensor .boolean [1, d], grid d] := by
    simp [grid, postorder_eq, children]
  have hfits (d : Nat) (hd : d < 2 ^ 63) : (grid d).FitsWord := by
    intro p hp
    rw [hpostorder] at hp
    fin_cases hp
    · trivial
    · trivial
    · simpa [NodeFitsWord] using hd
    · trivial
  have hlimit (d : Nat) : (grid d).AtLimit ↔ 2 ^ 63 ≤ d + 1 := by
    simp [AtLimit, hpostorder, NodeAtLimit, grid]
  constructor
  · rw [neverFails_iff (hbuilt _ (by decide)) (hfits _ (by decide))
      (by decide), hlimit]
    decide
  · rw [neverFails_iff (hbuilt _ (by decide)) (hfits _ (by decide))
      (by decide), hlimit]
    decide

/-- The width of a number of 2^62 bytes is doubled to a negative one. -/
theorem doubled_width_refused :
    ((Schema.perturb (some (.number true true (2 ^ 62))) :
      ExceptT ConstructionError (StateM Generator)
        (Option Schema)).run.run (Generator.ofSeeds 2 0)).1 =
      .error (.widthNotPositive (-2 ^ 63)) := by
  rfl

end Perturb

end Schemata
