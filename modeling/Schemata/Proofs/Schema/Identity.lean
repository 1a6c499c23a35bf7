import Schemata.Proofs.Schema.TotalOrder
import Mathlib.Data.List.Forall2
import Mathlib.Data.Option.Basic

/-!
# Identity of schemas

Two schemas are identical if they are of one kind, have the same attributes and
have identical schemas inside, position by position.  The order tells apart all
schemas that are not identical, and it is a total order, also where a schema may
be missing.
-/

namespace Schemata.Schema

/-- Node by node the same: attributes are equal, and children are identical at
every position.  Fields go by their names. -/
inductive Identical : Schema → Schema → Prop
  | anything : Identical .anything .anything
  | nothing : Identical .nothing .nothing
  | null : Identical .null .null
  | boolean : Identical .boolean .boolean
  | number (whole signed : Bool) (nbytes : Nat) :
      Identical (.number whole signed nbytes) (.number whole signed nbytes)
  | string (charset : Bytes) (maxLength : Option Nat) :
      Identical (.string charset maxLength) (.string charset maxLength)
  | tensor {items items' : Schema} (dimensions : List Nat) :
      Identical items items' →
      Identical (.tensor items dimensions) (.tensor items' dimensions)
  | collection {items items' : Schema} (ordered : Bool)
      (maxLength : Option Nat) :
      Identical items items' →
      Identical (.collection items ordered maxLength)
        (.collection items' ordered maxLength)
  | mapping {keys keys' values values' : Schema} :
      Identical keys keys' → Identical values values' →
      Identical (.mapping keys values) (.mapping keys' values')
  | record {fields fields' : List (Bytes × Schema)} :
      fields.map Prod.fst = fields'.map Prod.fst →
      List.Forall₂ Identical (fields.map Prod.snd) (fields'.map Prod.snd) →
      Identical (.record fields) (.record fields')
  | union {ps ps' : List Schema} :
      List.Forall₂ Identical ps ps' → Identical (.union ps) (.union ps')
  | reference (path : Path) : Identical (.reference path) (.reference path)

theorem Identical.refl (s : Schema) : Identical s s := by
  induction s using childrenInduction with
  | step s ih =>
      cases s with
      | tensor items dimensions => exact .tensor _ (ih _ (by simp [children]))
      | collection items ordered maxLength =>
          exact .collection _ _ (ih _ (by simp [children]))
      | mapping keys values =>
          exact .mapping (ih _ (by simp [children])) (ih _ (by simp [children]))
      | record fields => exact .record rfl (List.forall₂_same.mpr ih)
      | union ps => exact .union (List.forall₂_same.mpr ih)
      | _ => constructor

theorem eq_of_forall₂_identical
    {as bs : List Schema} (h : List.Forall₂ Identical as bs)
    (ih : ∀ a ∈ as, ∀ b, Identical a b → a = b) : as = bs := by
  induction h with
  | nil => rfl
  | cons hab _ ihtail =>
      rw [ih _ List.mem_cons_self _ hab,
        ihtail fun a ha => ih a (List.mem_cons_of_mem _ ha)]

theorem fields_ext
    {fs gs : List (Bytes × Schema)}
    (hnames : fs.map Prod.fst = gs.map Prod.fst)
    (hschemas : fs.map Prod.snd = gs.map Prod.snd) : fs = gs := by
  rw [← List.zip_unzip fs, ← List.zip_unzip gs, List.unzip_fst, List.unzip_snd,
    List.unzip_fst, List.unzip_snd, hnames, hschemas]

theorem Identical.eq {a b : Schema} (h : Identical a b) : a = b := by
  induction a using childrenInduction generalizing b with
  | step a ih =>
      cases h with
      | tensor dimensions hitems => rw [ih _ (by simp [children]) hitems]
      | collection ordered maxLength hitems =>
          rw [ih _ (by simp [children]) hitems]
      | mapping hkeys hvalues =>
          rw [ih _ (by simp [children]) hkeys, ih _ (by simp [children]) hvalues]
      | record hnames hschemas =>
          rw [fields_ext hnames (eq_of_forall₂_identical hschemas
            fun a ha b hab => ih a ha hab)]
      | union hps =>
          rw [eq_of_forall₂_identical hps fun a ha b hab => ih a ha hab]
      | _ => rfl

theorem identical_iff_eq (a b : Schema) : Identical a b ↔ a = b := by
  constructor
  · exact Identical.eq
  · rintro rfl
    exact .refl a

theorem compareOptional_swap (a b : Option Schema) :
    compareOptional b a = (compareOptional a b).swap := by
  cases a <;> cases b <;> simp only [compareOptional, Ordering.swap]
  exact compare_swap _ _

theorem compareOptional_isLE_trans
    {a b c : Option Schema} (hab : (compareOptional a b).isLE = true)
    (hbc : (compareOptional b c).isLE = true) :
    (compareOptional a c).isLE = true := by
  cases a <;> cases b <;> cases c <;> simp_all [compareOptional]
  exact Std.TransCmp.isLE_trans hab hbc

theorem compareOptional_eq_eq_iff (a b : Option Schema) :
    compareOptional a b = .eq ↔ Option.Rel Identical a b := by
  cases a <;> cases b <;> simp [compareOptional, identical_iff_eq]

/-- The order of schemas that may be missing is total, with the missing one
first, and what it does not tell apart is identical. -/
theorem compareOptional_total_order (a b c : Option Schema) :
    compareOptional b a = (compareOptional a b).swap ∧
      ((compareOptional a b).isLE = true → (compareOptional b c).isLE = true →
        (compareOptional a c).isLE = true) ∧
      (compareOptional a b = .eq ↔ Option.Rel Identical a b) ∧
      (compareOptional a b = .lt ∨ Option.Rel Identical a b ∨
        compareOptional b a = .lt) ∧
      (∀ s, compareOptional none (some s) = .lt) ∧
      ∀ s t : Schema, s.same t = true ↔ Identical s t := by
  refine ⟨compareOptional_swap a b, compareOptional_isLE_trans,
    compareOptional_eq_eq_iff a b, ?_, fun _ => rfl, ?_⟩
  · rw [← compareOptional_eq_eq_iff, compareOptional_swap a b]
    cases compareOptional a b <;> simp
  · intro s t
    rw [same_iff, identical_iff_eq]

end Schemata.Schema
