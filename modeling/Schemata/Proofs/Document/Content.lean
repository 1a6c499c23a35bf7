import Schemata.Document.ToSchema
import Mathlib.Tactic

/-!
# Documents with the same content

Documents come from several formats.  An object has names or arbitrary keys, an
integer has one of many types, what is absent may be there as null, and a node
may have members that its kind does not read.

What may differ depends on what a document is read as: a member that is not read
may be added to a node, but not to the fields of a record.  So documents are
compared along with their roles.
-/

namespace Schemata

namespace Floating

/-- The number that a finite floating point number stands for. -/
def value? : Floating → Option ℚ
  | .finite negative significand exponent =>
    some ((if negative then -1 else 1) * significand * 2 ^ exponent)
  | _ => none

theorem magnitude_and_sign
    {negative : Bool} {significand k : Nat} {n : Int}
    (h : (if negative then -1 else 1) * significand = n * 2 ^ k) :
    significand = n.natAbs * 2 ^ k ∧
      (if negative then -(n.natAbs : Int) else n.natAbs) = n := by
  have hpos : (0 : Int) < 2 ^ k := by positivity
  have habs := congrArg Int.natAbs h
  cases negative with
  | false =>
      have hprod : (significand : Int) = n * 2 ^ k := by simpa using h
      have hn : 0 ≤ n := nonneg_of_mul_nonneg_left (by omega) hpos
      refine ⟨by simpa [Int.natAbs_mul, Int.natAbs_pow] using habs, ?_⟩
      simp [abs_of_nonneg hn]
  | true =>
      have hprod : -(significand : Int) = n * 2 ^ k := by simpa using h
      have hn : n ≤ 0 := nonpos_of_mul_nonpos_left (by omega) hpos
      refine ⟨by simpa [Int.natAbs_mul, Int.natAbs_pow] using habs, ?_⟩
      simp [abs_of_nonpos hn]

theorem toInt?_of_value?
    {x : Floating} {n : Int} (h : x.value? = some (n : ℚ)) :
    x.toInt? = some n := by
  cases x with
  | finite negative significand exponent =>
      simp only [value?, Option.some.injEq] at h
      by_cases hexponent : 0 ≤ exponent
      · obtain ⟨k, rfl⟩ := Int.eq_ofNat_of_zero_le hexponent
        rw [zpow_natCast] at h
        have hn : (if negative then -1 else 1) * significand * 2 ^ k = n := by
          exact_mod_cast h
        cases negative <;> simp_all [toInt?]
      · obtain ⟨k, rfl⟩ : ∃ k : Nat, exponent = -k :=
          ⟨exponent.natAbs, by omega⟩
        have hscale : (2 : ℚ) ^ k ≠ 0 := by positivity
        rw [zpow_neg, zpow_natCast, ← div_eq_mul_inv, div_eq_iff hscale] at h
        obtain ⟨hmagnitude, hsign⟩ := magnitude_and_sign (by exact_mod_cast h)
        simp only [toInt?, if_neg hexponent, Int.natAbs_neg, Int.natAbs_natCast,
          Nat.pow_eq, hmagnitude, Nat.mul_mod_left, if_true,
          Nat.mul_div_cancel _ (Nat.two_pow_pos k)]
        exact congrArg some hsign
  | _ => cases h

end Floating

namespace Document

/-- A document is an integer, of whatever type it is. -/
inductive Holds : Document → Int → Prop
  | integer {type : IntegerType} {n : Int} :
      type ≠ .uintptr → n < 2 ^ 63 → Holds (.integer type n) n
  | float {type : FloatType} {x : Floating} {n : Int} :
      x.value? = some (n : ℚ) → n.natAbs ≤ 2 ^ 53 → Holds (.float type x) n

/-- A document is an object with the members, in one of its two forms. -/
inductive HasMembers : Document → List (Bytes × Document) → Prop
  | object (ms : List (Bytes × Document)) : HasMembers (.object ms) ms
  | table (ms : List (Bytes × Document)) :
      HasMembers (.table (ms.map fun e => (.text e.1, e.2))) ms

/-- What a document is read as. -/
inductive Role
  | schema
  | fields
  | possibilities
  /-- A string, a truth value, an integer or a list of integers. -/
  | plain

/-- What the elements of a list are read as. -/
def Role.item : Role → Role
  | .possibilities => .schema
  | _ => .plain

/-- The attribute of a name; null counts as none. -/
def attribute? (ms : List (Bytes × Document)) (name : Bytes) :
    Option Document :=
  (ms.lookup name).filter fun d => match d with
    | .null => false
    | _ => true

/-- The attributes of a kind and what they are read as. -/
def attributes : Kind → List (Bytes × Role)
  | .number => [("whole", .plain), ("signed", .plain), ("nbytes", .plain)]
  | .string => [("charset", .plain), ("maxlength", .plain)]
  | .tensor => [("items", .schema), ("dimensions", .plain)]
  | .collection =>
    [("items", .schema), ("ordered", .plain), ("maxlength", .plain)]
  | .mapping => [("keys", .schema), ("values", .schema)]
  | .record => [("fields", .fields)]
  | .union => [("possibilities", .possibilities)]
  | .reference => [("path", .plain)]
  | .anything | .nothing | .null | .boolean => []

/-- The kind that the members of a node name. -/
def kind? (ms : List (Bytes × Document)) : Option Kind :=
  match attribute? ms "kind" with
  | some (.text name) => Kind.parse? name
  | _ => none

/-- The attributes that are read of a node. -/
def attributesRead (ms : List (Bytes × Document)) : List (Bytes × Role) :=
  ("kind", .plain) :: (kind? ms).elim [] attributes

/-- What is never read: values that no document is made of, objects with other
keys than strings, and objects where there should be none. -/
inductive Unread : Role → Document → Prop
  | other (role : Role) (v : Value) : Unread role (.other v)
  | key (role : Role) {entries : List (Value × Document)}
      {e : Value × Document} :
      e ∈ entries → (∀ name, e.1 ≠ .text name) → Unread role (.table entries)
  | possibilities {d : Document} {ms : List (Bytes × Document)} :
      HasMembers d ms → Unread .possibilities d
  | plain {d : Document} {ms : List (Bytes × Document)} :
      HasMembers d ms → Unread .plain d

/-- Documents that differ, at any depth, in nothing but the form of objects, the
types of integers, the members of nodes that their kinds do not read, and null
in place of what is absent. -/
inductive Rewritten : Role → Document → Document → Prop
  | refl (role : Role) (d : Document) : Rewritten role d d
  | number (role : Role) {d d' : Document} {n : Int} :
      Holds d n → Holds d' n → Rewritten role d d'
  | list (role : Role) {items items' : List Document} :
      items.length = items'.length →
      (∀ i (h : i < items.length) (h' : i < items'.length),
        Rewritten role.item (items.get ⟨i, h⟩) (items'.get ⟨i, h'⟩)) →
      Rewritten role (.list items) (.list items')
  | fields {d d' : Document} {ms ms' : List (Bytes × Document)} :
      HasMembers d ms → HasMembers d' ms' →
      (∀ name, name ∈ ms.map Prod.fst ↔ name ∈ ms'.map Prod.fst) →
      (∀ name x x', (name, x) ∈ ms → (name, x') ∈ ms' →
        Rewritten .schema x x') →
      Rewritten .fields d d'
  | node {d d' : Document} {ms ms' : List (Bytes × Document)} :
      HasMembers d ms → HasMembers d' ms' →
      (∀ a ∈ attributesRead ms,
        (attribute? ms a.1).isSome = (attribute? ms' a.1).isSome) →
      (∀ a ∈ attributesRead ms, ∀ x x', attribute? ms a.1 = some x →
        attribute? ms' a.1 = some x' → Rewritten a.2 x x') →
      Rewritten .schema d d'
  | unread (role : Role) {d d' : Document} :
      Unread role d → Unread role d' → Rewritten role d d'

end Document

end Schemata
