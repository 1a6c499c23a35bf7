import Schemata.Text.Width
import Schemata.Proofs.Text.Symbol

/-!
# The width of spaces

A space is a cluster of its own and takes one cell.  So spaces are cut and
filled to a column of spaces, whatever their number.  A text that fits is
filled, and its column is blank only if the text is.
-/

namespace Schemata.Text

def space : Symbol := .code 0x20 [byte ' ']

theorem symbols_spaces (n : Nat) :
    symbols (Bytes.spaces n) = List.replicate n space := by
  have hascii : ∀ b ∈ Bytes.spaces n, b.toNat < 0x80 := by
    intro b hb
    rw [List.eq_of_mem_replicate hb]
    decide
  have h := symbols_ascii_append hascii []
  rw [List.append_nil, Bytes.spaces, List.map_replicate] at h
  rw [Bytes.spaces, h]
  exact List.append_nil _

theorem clustersFrom_spaces
    {context : ClusterContext} (hcontext : context.last = .other)
    (cluster : List Symbol) (n : Nat) :
    clustersFrom context cluster (List.replicate n space) =
      cluster :: List.replicate n [space] := by
  induction n generalizing context cluster with
  | zero => rfl
  | succ n ih =>
      have hclass : clusterClass space.point = .other := rfl
      have hjoins : context.joins .other = false := by
        simp [ClusterContext.joins, ClusterContext.isBreak, hcontext]
      rw [List.replicate_succ, clustersFrom, hclass, hjoins]
      simp only [Bool.false_eq_true, if_false]
      rw [ih rfl, List.replicate_succ]

theorem clusters_spaces (n : Nat) :
    clusters (symbols (Bytes.spaces n)) = List.replicate n [space] := by
  rw [symbols_spaces]
  cases n with
  | zero => rfl
  | succ n =>
      rw [List.replicate_succ, clusters, clustersFrom_spaces rfl,
        List.replicate_succ]

theorem displayWidth_spaces (n : Nat) : displayWidth (Bytes.spaces n) = n := by
  have hwidth : clusterWidth [space] = 1 := rfl
  have hsum : ∀ start : Nat, (List.replicate n [space]).foldl
      (fun width c => width + clusterWidth c) start = start + n := by
    induction n with
    | zero => simp
    | succ n ih =>
        intro start
        rw [List.replicate_succ, List.foldl_cons, hwidth, ih]
        omega
  rw [displayWidth, clusters_spaces, hsum, Nat.zero_add]

theorem takeWidth_spaces {width n : Nat} (h : width ≤ n) :
    takeWidth width (List.replicate n [space]) = Bytes.spaces width := by
  have hwidth : clusterWidth [space] = 1 := rfl
  induction n generalizing width with
  | zero =>
      obtain rfl : width = 0 := by omega
      rfl
  | succ n ih =>
      cases width with
      | zero => rfl
      | succ width =>
          rw [List.replicate_succ, takeWidth, hwidth, if_neg (by omega),
            Nat.add_sub_cancel, ih (by omega)]
          rfl

/-- Spaces are cut or filled to a blank column. -/
theorem column_spaces (n width : Nat) :
    column (Bytes.spaces n) width = Bytes.spaces width := by
  unfold column
  rw [displayWidth_spaces, clusters_spaces]
  by_cases hfits : n ≤ width
  · simp only [hfits, if_true, displayWidth_spaces]
    rw [Bytes.spaces, Bytes.spaces, List.replicate_append_replicate,
      Nat.add_sub_cancel' hfits, Bytes.spaces]
  · simp only [hfits, if_false]
    rw [takeWidth_spaces (by omega), displayWidth_spaces, Nat.sub_self]
    exact List.append_nil _

theorem column_of_fits
    {text : Bytes} {width : Nat} (h : displayWidth text ≤ width) :
    column text width = text ++ Bytes.spaces (width - displayWidth text) := by
  unfold column
  rw [if_pos h]

end Schemata.Text
