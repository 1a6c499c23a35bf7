import Schemata.Diff.Compare
import Schemata.Proofs.Diff.Script

/-!
# Comparing leads from one sequence to the other

However two sequences are divided, the script that comparing them gives leads
from the first to the second.  A run that is kept between two divisions has to
be in both sequences at the places where they are divided; where the shortest
ways from both ends meet does not matter for this.
-/

namespace Schemata.Diff

variable {α : Type}

/-! ## Divisions -/

theorem sameSides_kept (run : List α) :
    SameSides (kept run) (replacing run run) := by
  unfold kept
  split
  · rename_i hrun
    rw [List.isEmpty_iff.mp hrun]
    exact ⟨rfl, rfl⟩
  · exact sameSides_keep run

/-- A division of two sequences that leaves nothing out. -/
structure Division.Divides (parts : Division α) (one two : List α) : Prop where
  one : parts.oneFirst ++ (parts.kept.getD [] ++ parts.oneSecond) = one
  two : parts.twoFirst ++ (parts.kept.getD [] ++ parts.twoSecond) = two

/-- A plan that leads from one sequence to another. -/
def Plan.LeadsTo (one two : List α) : Plan α → Prop
  | .script edits => SameSides edits (replacing one two)
  | .divided parts => parts.Divides one two

theorem divides_divisionAt
    {one two : List α} {inOne inTwo length : Nat}
    (h : (one.drop inOne).take length = (two.drop inTwo).take length) :
    (divisionAt one two inOne inTwo length).Divides one two := by
  have hparts : ∀ (xs : List α) (i : Nat),
      xs.take i ++ ((xs.drop i).take length ++ xs.drop (i + length)) = xs := by
    intro xs i
    rw [← List.drop_drop, List.take_append_drop, List.take_append_drop]
  constructor
  · exact hparts one inOne
  · change two.take inTwo ++ ((one.drop inOne).take length ++ _) = two
    rw [h]
    exact hparts two inTwo

/-- Scripts for both parts of a division, with what is kept between them. -/
theorem sameSides_divided
    {one two : List α} {parts : Division α} (hparts : parts.Divides one two)
    {first second : List (Edit α)}
    (hfirst : SameSides first (replacing parts.oneFirst parts.twoFirst))
    (hsecond : SameSides second (replacing parts.oneSecond parts.twoSecond)) :
    SameSides
      (first ++ parts.kept.toList.map (fun run => ⟨.keep, run⟩) ++ second)
      (replacing one two) := by
  have hkept : SameSides
      (parts.kept.toList.map fun run => (⟨.keep, run⟩ : Edit α))
      (replacing (parts.kept.getD []) (parts.kept.getD [])) := by
    cases parts.kept with
    | none => exact ⟨rfl, rfl⟩
    | some run => exact sameSides_keep run
  rw [← hparts.one, ← hparts.two, List.append_assoc]
  calc SameSides _ (replacing parts.oneFirst parts.twoFirst ++
        (replacing (parts.kept.getD []) (parts.kept.getD []) ++
          replacing parts.oneSecond parts.twoSecond)) :=
        hfirst.append (hkept.append hsecond)
    SameSides _ (replacing parts.oneFirst parts.twoFirst ++
        replacing (parts.kept.getD [] ++ parts.oneSecond)
          (parts.kept.getD [] ++ parts.twoSecond)) :=
        (SameSides.refl _).append (sameSides_replacing_append _ _ _ _)
    SameSides _ (replacing _ _) := sameSides_replacing_append _ _ _ _

/-! ## Occurrences -/

theorem take_drop_around
    (xs : List α) {i backward : Nat} (h : backward ≤ i) (forward : Nat) :
    (xs.drop (i - backward)).take (backward + forward) =
      (xs.take i).drop (i - backward) ++ (xs.drop i).take forward := by
  rw [List.take_add, List.drop_take, List.drop_drop,
    Nat.sub_add_cancel h, Nat.sub_sub_self h]

variable [BEq α]

theorem le_of_mem_positions
    {part xs : List α} {start j : Nat} (h : j ∈ positions part start xs) :
    j ≤ start + xs.length := by
  fun_induction positions part start xs with
  | case1 start hpart => simp_all
  | case2 start hpart => cases h
  | case3 start x xs hprefix ih =>
      rcases List.mem_cons.mp h with rfl | h
      · omega
      · have hle := ih h
        simp only [List.length_cons]
        omega
  | case4 start x xs hprefix ih =>
      have hle := ih h
      simp only [List.length_cons]
      omega

variable [LawfulBEq α]

theorem exists_of_positionFrom
    {part xs : List α} {start i : Nat}
    (h : positionFrom part start xs = some i) :
    ∃ front rest, xs = front ++ (part ++ rest) ∧ i = start + front.length := by
  fun_induction positionFrom part start xs with
  | case1 start hpart =>
      obtain rfl := Option.some.inj h
      exact ⟨[], [], by simpa using hpart.symm, rfl⟩
  | case2 start hpart => cases h
  | case3 start x xs hprefix =>
      obtain rfl := Option.some.inj h
      obtain ⟨rest, hrest⟩ := List.isPrefixOf_iff_prefix.mp hprefix
      exact ⟨[], rest, hrest.symm, rfl⟩
  | case4 start x xs hprefix ih =>
      obtain ⟨front, rest, rfl, rfl⟩ := ih h
      exact ⟨x :: front, rest, rfl, by simp; omega⟩

/-! ## Runs in common -/

/-- A run that is in both sequences where it says. -/
def CommonRun.IsCommon (r : CommonRun) (long short : List α) : Prop :=
  (long.drop r.inLong).take r.length = (short.drop r.inShort).take r.length

/-- What two sequences have in common around two positions. -/
theorem isCommon_around
    {long short : List α} {i j : Nat} (hi : i ≤ long.length)
    (hj : j ≤ short.length) :
    let forward := agreement (long.drop i) (short.drop j)
    let backward := endAgreement (long.take i) (short.take j)
    CommonRun.IsCommon ⟨i - backward, j - backward, backward + forward⟩
      long short := by
  intro forward backward
  have hforward : (long.drop i).take forward = (short.drop j).take forward :=
    take_agreement _ _
  have hbackward := drop_endAgreement (long.take i) (short.take j)
  rw [List.length_take_of_le hi, List.length_take_of_le hj] at hbackward
  have hlong : backward ≤ i := by
    have hle := (agreement_le (long.take i).reverse (short.take j).reverse).1
    rwa [List.length_reverse, List.length_take_of_le hi] at hle
  have hshort : backward ≤ j := by
    have hle := (agreement_le (long.take i).reverse (short.take j).reverse).2
    rwa [List.length_reverse, List.length_take_of_le hj] at hle
  unfold CommonRun.IsCommon
  rw [take_drop_around long hlong, take_drop_around short hshort, hforward,
    hbackward]

theorem isCommon_of_commonRunAt?
    {long short : List α} {i : Nat} (hi : i ≤ long.length) {r : CommonRun}
    (h : commonRunAt? long short i = some r) : r.IsCommon long short := by
  simp only [commonRunAt?] at h
  split at h
  · cases h
  · obtain rfl := Option.some.inj h
    -- The empty run is common, and only common runs take its place.
    refine List.foldlRecOn
      (motive := fun best : CommonRun => best.IsCommon long short) _ _ rfl ?_
    intro best hbest j hj
    have hj : j ≤ short.length := by simpa using le_of_mem_positions hj
    split
    · exact isCommon_around hi hj
    · exact hbest

theorem isCommon_of_commonRun?
    {long short : List α} {r : CommonRun} (h : commonRun? long short = some r) :
    r.IsCommon long short := by
  unfold commonRun? at h
  split at h
  · cases h
  · rename_i hlength
    have hlong : 4 ≤ long.length := by
      simp only [Bool.or_eq_true, decide_eq_true_eq, not_or] at hlength
      omega
    cases hfirst : commonRunAt? long short ((long.length + 3) / 4) with
    | none =>
        rw [hfirst] at h
        exact isCommon_of_commonRunAt? (by omega) h
    | some first =>
        have hcommon : first.IsCommon long short :=
          isCommon_of_commonRunAt? (by omega) hfirst
        cases hsecond : commonRunAt? long short ((long.length + 1) / 2) with
        | none =>
            rw [hfirst, hsecond] at h
            obtain rfl := Option.some.inj h
            exact hcommon
        | some second =>
            rw [hfirst, hsecond] at h
            obtain rfl := Option.some.inj h
            split
            · exact hcommon
            · exact isCommon_of_commonRunAt? (by omega) hsecond

/-! ## Plans -/

theorem leadsTo_plan (one two : List α) : (plan one two).LeadsTo one two := by
  fun_cases plan one two with
  | case1 hone =>
      rw [List.isEmpty_iff.mp hone]
      exact ⟨rfl, rfl⟩
  | case2 _ htwo =>
      rw [List.isEmpty_iff.mp htwo]
      constructor <;> simp [before, after, replacing]
  | case3 _ _ oneIsLonger long short action i hfound =>
      obtain ⟨front, rest, hlong, rfl⟩ := exists_of_positionFrom hfound
      have hscript : SameSides
          [⟨action, front⟩, ⟨.keep, short⟩, ⟨action, rest⟩]
          (replacing one two) := by
        by_cases hlonger : oneIsLonger = true
        · simp only [long, short, action, hlonger, if_true] at hlong ⊢
          constructor <;> simp [before, after, replacing, hlong]
        · simp only [long, short, action, hlonger, Bool.false_eq_true, if_false]
            at hlong ⊢
          constructor <;> simp [before, after, replacing, hlong]
      simpa [Plan.LeadsTo, hlong, ← List.drop_drop] using hscript
  | case4 => exact .refl _
  | case5 _ _ oneIsLonger long short _ _ r hrun hlonger =>
      have hcommon := isCommon_of_commonRun? hrun
      simp only [long, short, hlonger, if_true] at hcommon
      exact divides_divisionAt hcommon
  | case6 _ _ oneIsLonger long short _ _ r hrun hlonger =>
      have hcommon := isCommon_of_commonRun? hrun
      simp only [long, short, hlonger, Bool.false_eq_true, if_false] at hcommon
      exact divides_divisionAt hcommon.symm
  | case7 _ _ _ _ _ _ _ _ x y =>
      -- Any two places divide the sequences, not only where the ways meet.
      exact ⟨List.take_append_drop x one, List.take_append_drop y two⟩
  | case8 => exact .refl _

theorem leadsTo_of_plan
    {one two : List α} {p : Plan α} (h : plan one two = p) :
    p.LeadsTo one two := by
  rw [← h]
  exact leadsTo_plan one two

/-! ## Comparing -/

/-- Two sequences are kept if they are the same.  Otherwise a script between
their middles is put between what they have in common at both ends. -/
theorem sameSides_around
    (one two : List α) {middle : List (Edit α)} :
    let front := agreement one two
    let back := endAgreement (one.drop front) (two.drop front)
    let oneMiddle := (one.drop front).take ((one.drop front).length - back)
    let twoMiddle := (two.drop front).take ((two.drop front).length - back)
    SameSides middle (replacing oneMiddle twoMiddle) →
      SameSides
        (if one == two then kept one
          else tidy (kept (one.take front) ++ middle ++
            kept (one.drop (front + oneMiddle.length))))
        (replacing one two) := by
  intro front back oneMiddle twoMiddle hmiddle
  split
  · rename_i hsame
    rw [eq_of_beq hsame]
    exact sameSides_kept two
  have hfront : one.take front = two.take front := take_agreement one two
  have hback : (one.drop front).drop oneMiddle.length =
      (two.drop front).drop twoMiddle.length := by
    have h := drop_endAgreement (one.drop front) (two.drop front)
    simpa [oneMiddle, twoMiddle, back] using h
  have hparts : ∀ (xs : List α) (n : Nat), xs.take front ++
      ((xs.drop front).take n ++
        (xs.drop front).drop ((xs.drop front).take n).length) = xs := by
    intro xs n
    rw [List.prefix_iff_eq_append.mp (List.take_prefix n _),
      List.take_append_drop]
  rw [← List.drop_drop]
  have hscript := ((sameSides_kept (one.take front)).append hmiddle).append
    (sameSides_kept ((one.drop front).drop oneMiddle.length))
  refine (sameSides_tidy _).trans
    (hscript.trans (sameSides_replacing_iff.mpr ⟨?_, ?_⟩))
  · have hone := hparts one ((one.drop front).length - back)
    simpa only [before, replacing, List.flatMap_append, List.flatMap_cons,
      List.flatMap_nil, reduceCtorEq, if_true, if_false, List.append_nil,
      List.append_assoc] using hone
  · have htwo := hparts two ((two.drop front).length - back)
    rw [← hback, ← hfront] at htwo
    simpa only [after, replacing, List.flatMap_append, List.flatMap_cons,
      List.flatMap_nil, reduceCtorEq, if_true, if_false, List.nil_append,
      List.append_nil, List.append_assoc] using htwo

theorem sameSides_compareWith (depth : Nat) (one two : List α) :
    SameSides (compareWith depth one two) (replacing one two) := by
  induction depth generalizing one two with
  | zero =>
      rw [compareWith]
      refine sameSides_around one two ?_
      split
      · rename_i hplan
        exact leadsTo_of_plan hplan
      · exact .refl _
      · rename_i hdepth _
        cases hdepth
  | succ depth ih =>
      rw [compareWith]
      refine sameSides_around one two ?_
      split
      · rename_i hplan
        exact leadsTo_of_plan hplan
      · exact .refl _
      · rename_i hdepth hplan
        obtain rfl := Nat.succ.inj hdepth
        exact sameSides_divided (leadsTo_of_plan hplan) (ih _ _) (ih _ _)

/-- Comparing two sequences gives a script from the first to the second. -/
theorem sameSides_compare (one two : List α) :
    SameSides (compare one two) (replacing one two) :=
  sameSides_compareWith _ one two

end Schemata.Diff
