import Schemata.Number.Decimal
import Mathlib.Tactic

/-!
# Numerals

A numeral is worth what its digits add up to in its base.  Numbers are written
with digits worth that number, in base ten as short as they can be and in base
sixteen filled up with zeros.  Reading within a limit gives the worth of a
numeral if it does not pass the limit: while digits are read the value never
falls, so no value on the way passes it either.
-/

namespace Schemata

/-- The value of digits read onto the value of the digits before them, if all
of them are digits. -/
def digitsOnto? (digitOf : UInt8 → Option Nat) (base : Nat) :
    Nat → Bytes → Option Nat :=
  List.foldlM fun value b => (digitOf b).map (value * base + ·)

/-- What a numeral is worth. -/
def worth? (digitOf : UInt8 → Option Nat) (base : Nat) (digits : Bytes) :
    Option Nat :=
  digitsOnto? digitOf base 0 digits

section Digits

variable {digitOf : UInt8 → Option Nat} {base value n : Nat} {digits : Bytes}

theorem digitsOnto?_cons (b : UInt8) :
    digitsOnto? digitOf base value (b :: digits) =
      (digitOf b).bind fun d =>
        digitsOnto? digitOf base (value * base + d) digits := by
  simp [digitsOnto?, Option.bind_map]

theorem worth?_toDigits
    (hbase : 1 < base)
    (hdigit : ∀ d < base, digitOf (byte d.digitChar) = some d) (n : Nat) :
    worth? digitOf base ((Nat.toDigits base n).map byte) = some n := by
  induction n using Nat.strong_induction_on with
  | _ n ih =>
      rw [Nat.toDigits_eq_if hbase]
      split
      · rename_i hn
        simp [worth?, digitsOnto?, hdigit n hn]
      · rename_i hn
        have hlast : n % base < base := Nat.mod_lt n (by omega)
        have hfront : worth? digitOf base
            ((Nat.toDigits base (n / base)).map byte) = some (n / base) :=
          ih _ (Nat.div_lt_self (by omega) hbase)
        unfold worth? digitsOnto? at hfront ⊢
        rw [List.map_append, List.foldlM_append, hfront]
        simp [hdigit _ hlast, Nat.div_add_mod']

theorem worth?_replicate_zero
    (hzero : digitOf (byte '0') = some 0) (count : Nat) (digits : Bytes) :
    worth? digitOf base (List.replicate count (byte '0') ++ digits) =
      worth? digitOf base digits := by
  induction count with
  | zero => simp
  | succ count ih =>
      rw [← ih]
      simp [worth?, digitsOnto?_cons, List.replicate_succ, hzero]

/-- Every byte of a numeral is a digit. -/
theorem digit_of_digitsOnto?
    (h : digitsOnto? digitOf base value digits = some n) :
    ∀ b ∈ digits, ∃ d, digitOf b = some d := by
  induction digits generalizing value with
  | nil => simp
  | cons b rest ih =>
      rw [digitsOnto?_cons, Option.bind_eq_some_iff] at h
      obtain ⟨d, hd, hrest⟩ := h
      intro c hc
      rcases List.mem_cons.mp hc with rfl | hc
      · exact ⟨d, hd⟩
      · exact ih hrest c hc

theorem le_of_digitsOnto?
    (hbase : 0 < base) (h : digitsOnto? digitOf base value digits = some n) :
    value ≤ n := by
  induction digits generalizing value with
  | nil =>
      obtain rfl : value = n := by simpa [digitsOnto?] using h
      exact le_rfl
  | cons b rest ih =>
      rw [digitsOnto?_cons, Option.bind_eq_some_iff] at h
      obtain ⟨d, _, hrest⟩ := h
      have hgrows : value ≤ value * base := Nat.le_mul_of_pos_right _ hbase
      have hle := ih hrest
      omega

end Digits

theorem digit?_digitChar {d : Nat} (hd : d < 10) :
    digit? (byte d.digitChar) = some d := by
  interval_cases d <;> decide

theorem hexDigit?_digitChar {d : Nat} (hd : d < 16) :
    hexDigit? (byte d.digitChar) = some d := by
  interval_cases d <;> decide

theorem worth?_decimal (n : Nat) : worth? digit? 10 (decimal n) = some n :=
  worth?_toDigits (by decide) (fun _ => digit?_digitChar) n

theorem worth?_hexadecimal (width n : Nat) :
    worth? hexDigit? 16 (hexadecimal width n) = some n := by
  rw [hexadecimal, worth?_replicate_zero (by decide)]
  exact worth?_toDigits (by decide) (fun _ => hexDigit?_digitChar) n

theorem length_hexadecimal
    {width n : Nat} (hwidth : 0 < width) (hn : n < 16 ^ width) :
    (hexadecimal width n).length = width := by
  have hdigits : (Nat.toDigits 16 n).length ≤ width :=
    (Nat.length_toDigits_le_iff (by decide) hwidth).mpr hn
  simp only [hexadecimal, List.length_append, List.length_replicate,
    List.length_map]
  omega

theorem decimal_ne_nil (n : Nat) : decimal n ≠ [] := by
  simp [decimal, Nat.toDigits_ne_nil]

theorem readDigits_eq_ok_iff
    {limit value n : Nat} {digits : Bytes} (hvalue : value ≤ limit) :
    readDigits limit value digits = .ok n ↔
      digitsOnto? digit? 10 value digits = some n ∧ n ≤ limit := by
  induction digits generalizing value with
  | nil =>
      simp only [readDigits, digitsOnto?, List.foldlM_nil, Except.ok.injEq,
        Option.pure_def, Option.some.injEq]
      constructor
      · rintro rfl
        exact ⟨rfl, hvalue⟩
      · exact And.left
  | cons b rest ih =>
      rw [readDigits, digitsOnto?_cons]
      cases digit? b with
      | none => simp
      | some d =>
          simp only [Option.bind_some]
          split
          · rename_i hpassed
            constructor
            · intro h
              cases h
            · rintro ⟨hrest, hn⟩
              have hle := le_of_digitsOnto? (by decide) hrest
              omega
          · exact ih (by omega)

/-- A number within a limit is read exactly from the numerals worth it. -/
theorem readNat_eq_ok_iff {limit n : Nat} {digits : Bytes} :
    readNat limit digits = .ok n ↔
      digits ≠ [] ∧ worth? digit? 10 digits = some n ∧ n ≤ limit := by
  cases digits with
  | nil => simp [readNat]
  | cons b rest =>
      rw [readNat, readDigits_eq_ok_iff (Nat.zero_le limit)]
      simp [worth?]

theorem readNat_decimal_eq_ok_iff {limit n m : Nat} :
    readNat limit (decimal n) = .ok m ↔ m = n ∧ n ≤ limit := by
  rw [readNat_eq_ok_iff, worth?_decimal]
  constructor
  · rintro ⟨_, hworth, hle⟩
    cases hworth
    exact ⟨rfl, hle⟩
  · rintro ⟨rfl, hle⟩
    exact ⟨decimal_ne_nil m, rfl, hle⟩

end Schemata
