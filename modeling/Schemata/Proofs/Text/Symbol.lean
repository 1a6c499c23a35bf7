import Schemata.Text.Symbol
import Mathlib.Tactic

/-!
# Spellings of code points

A code point has one spelling, which is read as that code point whatever stands
behind it.  A byte string is therefore read symbol by symbol: its symbols spell
it, and those of a spelling with more behind it are the code point and the
symbols of the rest.
-/

namespace Schemata.Text

/-- The bytes that spell a code point. -/
inductive Spells : Nat → Bytes → Prop
  | one {a : UInt8} : a.toNat < 0x80 → Spells a.toNat [a]
  | two {a b : UInt8} {n : Nat} : twoBytes? a b = some n → Spells n [a, b]
  | three {a b c : UInt8} {n : Nat} :
      threeBytes? a b c = some n → Spells n [a, b, c]
  | four {a b c d : UInt8} {n : Nat} :
      fourBytes? a b c d = some n → Spells n [a, b, c, d]

theorem isTail_iff (b : UInt8) :
    isTail b = true ↔ 0x80 ≤ b.toNat ∧ b.toNat ≤ 0xBF := by
  simp [isTail, UInt8.le_iff_toNat_le]

theorem twoBytes?_eq_some {a b : UInt8} {n : Nat} (h : twoBytes? a b = some n) :
    (0xC2 ≤ a.toNat ∧ a.toNat ≤ 0xDF) ∧ (0x80 ≤ b.toNat ∧ b.toNat ≤ 0xBF) ∧
      (a.toNat - 0xC0) * 64 + (b.toNat - 0x80) = n := by
  simpa [twoBytes?, isTail_iff, UInt8.le_iff_toNat_le, and_assoc] using h

theorem threeBytes?_eq_some
    {a b c : UInt8} {n : Nat} (h : threeBytes? a b c = some n) :
    (0xE0 ≤ a.toNat ∧ a.toNat ≤ 0xEF) ∧
      (0x80 ≤ b.toNat ∧ b.toNat ≤ 0xBF ∧ (a.toNat = 0xE0 → 0xA0 ≤ b.toNat) ∧
        (a.toNat = 0xED → b.toNat ≤ 0x9F)) ∧
      (0x80 ≤ c.toNat ∧ c.toNat ≤ 0xBF) ∧
      (a.toNat - 0xE0) * 4096 + (b.toNat - 0x80) * 64 + (c.toNat - 0x80) = n := by
  simp only [threeBytes?, Option.ite_none_right_eq_some, Bool.and_eq_true,
    decide_eq_true_eq, isTail_iff, UInt8.le_iff_toNat_le,
    ← UInt8.toNat_inj] at h
  obtain ⟨⟨⟨⟨hlow, hhigh⟩, hsecond⟩, htail⟩, hvalue⟩ := h
  refine ⟨⟨hlow, hhigh⟩, ?_, htail, Option.some.inj hvalue⟩
  clear hvalue
  split_ifs at hsecond <;> simp [isTail_iff] at * <;> omega

theorem fourBytes?_eq_some
    {a b c d : UInt8} {n : Nat} (h : fourBytes? a b c d = some n) :
    (0xF0 ≤ a.toNat ∧ a.toNat ≤ 0xF4) ∧
      (0x80 ≤ b.toNat ∧ b.toNat ≤ 0xBF ∧ (a.toNat = 0xF0 → 0x90 ≤ b.toNat) ∧
        (a.toNat = 0xF4 → b.toNat ≤ 0x8F)) ∧
      (0x80 ≤ c.toNat ∧ c.toNat ≤ 0xBF) ∧ (0x80 ≤ d.toNat ∧ d.toNat ≤ 0xBF) ∧
      (a.toNat - 0xF0) * 262144 + (b.toNat - 0x80) * 4096 +
        (c.toNat - 0x80) * 64 + (d.toNat - 0x80) = n := by
  simp only [fourBytes?, Option.ite_none_right_eq_some, Bool.and_eq_true,
    decide_eq_true_eq, isTail_iff, UInt8.le_iff_toNat_le,
    ← UInt8.toNat_inj] at h
  obtain ⟨⟨⟨⟨⟨hlow, hhigh⟩, hsecond⟩, hthird⟩, hfourth⟩, hvalue⟩ := h
  refine ⟨⟨hlow, hhigh⟩, ?_, hthird, hfourth, Option.some.inj hvalue⟩
  clear hvalue
  split_ifs at hsecond <;> simp [isTail_iff] at * <;> omega

theorem toUInt8_eq {n : Nat} {b : UInt8} (h : n = b.toNat) : n.toUInt8 = b := by
  rw [h]
  exact UInt8.ofNat_toNat

theorem Spells.ascii_or_high
    {n : Nat} {spelling : Bytes} (h : Spells n spelling) :
    n < 0x80 ∧ spelling = [n.toUInt8] ∨
      0x80 ≤ n ∧ ∀ b ∈ spelling, 0x80 ≤ b.toNat := by
  cases h with
  | one ha => exact .inl ⟨ha, by rw [toUInt8_eq rfl]⟩
  | two h =>
      have hbytes := twoBytes?_eq_some h
      grind
  | three h =>
      have hbytes := threeBytes?_eq_some h
      grind
  | four h =>
      have hbytes := fourBytes?_eq_some h
      grind

/-- What is spelled is neither a surrogate nor too large. -/
theorem Spells.isPoint {n : Nat} {spelling : Bytes} (h : Spells n spelling) :
    (n < 0xD800 ∨ 0xDFFF < n) ∧ n ≤ 0x10FFFF := by
  cases h with
  | one ha => omega
  | two h =>
      have hbytes := twoBytes?_eq_some h
      omega
  | three h =>
      have hbytes := threeBytes?_eq_some h
      omega
  | four h =>
      have hbytes := fourBytes?_eq_some h
      omega

theorem Spells.encode_eq
    {n : Nat} {spelling : Bytes} (h : Spells n spelling) :
    encode n = spelling := by
  cases h with
  | one ha => rw [encode, if_pos ha, toUInt8_eq rfl]
  | @two a b _ h =>
      obtain ⟨ha, hb, hn⟩ := twoBytes?_eq_some h
      rw [encode, if_neg (by omega), if_pos (by omega),
        toUInt8_eq (b := a) (by omega), toUInt8_eq (b := b) (by omega)]
  | @three a b c _ h =>
      obtain ⟨ha, hb, hc, hn⟩ := threeBytes?_eq_some h
      rw [encode, if_neg (by omega), if_neg (by omega),
        if_neg (by simp; omega), if_pos (by omega),
        toUInt8_eq (b := a) (by omega), toUInt8_eq (b := b) (by omega),
        toUInt8_eq (b := c) (by omega)]
  | @four a b c d _ h =>
      obtain ⟨ha, hb, hc, hd, hn⟩ := fourBytes?_eq_some h
      rw [encode, if_neg (by omega), if_neg (by omega),
        if_neg (by simp; omega), if_neg (by omega),
        toUInt8_eq (b := a) (by omega), toUInt8_eq (b := b) (by omega),
        toUInt8_eq (b := c) (by omega), toUInt8_eq (b := d) (by omega)]

theorem twoBytes?_eq_none {a b : UInt8} (ha : 0xE0 ≤ a.toNat) :
    twoBytes? a b = none := by
  cases h : twoBytes? a b with
  | none => rfl
  | some n =>
      have hbytes := twoBytes?_eq_some h
      omega

theorem threeBytes?_eq_none {a b c : UInt8} (ha : 0xF0 ≤ a.toNat) :
    threeBytes? a b c = none := by
  cases h : threeBytes? a b c with
  | none => rfl
  | some n =>
      have hbytes := threeBytes?_eq_some h
      omega

/-- A spelling is read as its code point whatever follows. -/
theorem Spells.firstSymbol_eq
    {n : Nat} {a : UInt8} {tail : Bytes} (h : Spells n (a :: tail))
    (rest : Bytes) : firstSymbol a (tail ++ rest) = .code n (a :: tail) := by
  cases h with
  | one ha => simp [firstSymbol, UInt8.lt_iff_toNat_lt, ha]
  | two h =>
      have hbytes := twoBytes?_eq_some h
      unfold firstSymbol
      rw [if_neg (by simp [UInt8.lt_iff_toNat_lt]; omega)]
      simp [h]
  | three h =>
      have hbytes := threeBytes?_eq_some h
      unfold firstSymbol
      rw [if_neg (by simp [UInt8.lt_iff_toNat_lt]; omega)]
      simp [h, twoBytes?_eq_none hbytes.1.1]
  | four h =>
      have hbytes := fourBytes?_eq_some h
      unfold firstSymbol
      rw [if_neg (by simp [UInt8.lt_iff_toNat_lt]; omega)]
      simp [h, threeBytes?_eq_none hbytes.1.1,
        twoBytes?_eq_none (b := _) (le_trans (by decide) hbytes.1.1)]

/-- A byte string starts with a spelling or with a stray byte. -/
theorem firstSymbol_cases (a : UInt8) (rest : Bytes) :
    firstSymbol a rest = .stray a ∨ ∃ n tail more, rest = tail ++ more ∧
      Spells n (a :: tail) ∧ firstSymbol a rest = .code n (a :: tail) := by
  unfold firstSymbol
  split
  · rename_i ha
    have hone : Spells a.toNat [a] :=
      .one (by simpa [UInt8.lt_iff_toNat_lt] using ha)
    exact .inr ⟨a.toNat, [], rest, rfl, hone, rfl⟩
  · cases rest with
    | nil => exact .inl rfl
    | cons b rest =>
        cases htwo : twoBytes? a b with
        | some n => exact .inr ⟨n, [b], rest, rfl, .two htwo, by simp [htwo]⟩
        | none =>
            cases rest with
            | nil => exact .inl (by simp [htwo])
            | cons c rest =>
                cases hthree : threeBytes? a b c with
                | some n =>
                    exact .inr ⟨n, [b, c], rest, rfl, .three hthree,
                      by simp [htwo, hthree]⟩
                | none =>
                    cases rest with
                    | nil => exact .inl (by simp [htwo, hthree])
                    | cons d rest =>
                        cases hfour : fourBytes? a b c d with
                        | some n =>
                            exact .inr ⟨n, [b, c, d], rest, rfl, .four hfour,
                              by simp [htwo, hthree, hfour]⟩
                        | none =>
                            exact .inl (by simp [htwo, hthree, hfour])

/-- A symbol that can come up: its bytes spell its code point. -/
def Symbol.IsSpelled : Symbol → Prop
  | .code point spelling => Spells point spelling
  | .stray _ => True

theorem symbolsFrom_eq (skip : Nat) (text : Bytes) :
    symbolsFrom skip text = symbols (text.drop skip) := by
  induction text generalizing skip with
  | nil => simp [symbols, symbolsFrom]
  | cons a rest ih =>
      cases skip with
      | zero => rfl
      | succ skip => rw [symbolsFrom, ih, List.drop_succ_cons]

theorem symbols_cons (a : UInt8) (rest : Bytes) :
    symbols (a :: rest) = firstSymbol a rest ::
      symbols (rest.drop ((firstSymbol a rest).spelling.length - 1)) := by
  rw [symbols, symbolsFrom, symbolsFrom_eq]

theorem Spells.symbols_append
    {n : Nat} {spelling : Bytes} (h : Spells n spelling) (rest : Bytes) :
    symbols (spelling ++ rest) = .code n spelling :: symbols rest := by
  obtain ⟨a, tail, rfl⟩ : ∃ a tail, spelling = a :: tail := by
    cases h <;> exact ⟨_, _, rfl⟩
  rw [List.cons_append, symbols_cons, h.firstSymbol_eq]
  simp [Symbol.spelling]

theorem symbols_ascii_cons {b : UInt8} (hb : b.toNat < 0x80) (rest : Bytes) :
    symbols (b :: rest) = .code b.toNat [b] :: symbols rest :=
  (Spells.one hb).symbols_append rest

theorem symbols_ascii_append
    {ascii : Bytes} (hascii : ∀ b ∈ ascii, b.toNat < 0x80) (rest : Bytes) :
    symbols (ascii ++ rest) =
      ascii.map (fun b => .code b.toNat [b]) ++ symbols rest := by
  induction ascii with
  | nil => rfl
  | cons b ascii ih =>
      rw [List.map_cons, List.cons_append, List.cons_append,
        ← ih fun c hc => hascii c (List.mem_cons_of_mem b hc),
        symbols_ascii_cons (hascii b List.mem_cons_self)]

/-- The symbols of a byte string come one after another. -/
theorem symbols_cases (text : Bytes) :
    text = [] ∨ ∃ s rest, s.IsSpelled ∧ text = s.spelling ++ rest ∧
      symbols text = s :: symbols rest ∧ rest.length < text.length := by
  cases text with
  | nil => exact .inl rfl
  | cons a rest =>
      right
      rw [symbols_cons]
      rcases firstSymbol_cases a rest with hstray | ⟨n, tail, more, rfl, h, hfirst⟩
      · refine ⟨.stray a, rest, trivial, rfl, ?_, by simp⟩
        rw [hstray]
        rfl
      · refine ⟨.code n (a :: tail), more, h, rfl, ?_, ?_⟩
        · rw [hfirst]
          simp [Symbol.spelling]
        · simp only [List.length_cons, List.length_append]
          omega

/-- The symbols of a byte string spell it. -/
theorem flatMap_spelling_symbols (text : Bytes) :
    (symbols text).flatMap Symbol.spelling = text := by
  induction hn : text.length using Nat.strong_induction_on generalizing text with
  | _ n ih =>
      rcases symbols_cases text with rfl | ⟨s, rest, _, htext, hsymbols, hlt⟩
      · rfl
      · rw [hsymbols, List.flatMap_cons, ih _ (hn ▸ hlt) rest rfl, ← htext]

theorem isSpelled_of_mem_symbols
    {text : Bytes} {s : Symbol} (hs : s ∈ symbols text) : s.IsSpelled := by
  induction hn : text.length using Nat.strong_induction_on generalizing text with
  | _ n ih =>
      rcases symbols_cases text with rfl | ⟨t, rest, ht, _, hsymbols, hlt⟩
      · cases hs
      · rw [hsymbols] at hs
        rcases List.mem_cons.mp hs with rfl | hs
        · exact ht
        · exact ih _ (hn ▸ hlt) hs rfl

end Schemata.Text
