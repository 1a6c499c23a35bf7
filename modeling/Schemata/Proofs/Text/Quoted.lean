import Schemata.Text.Quoted
import Schemata.Proofs.Number.Digits
import Schemata.Proofs.Text.Symbol

/-!
# Quoting and unquoting

Quoting escapes a byte string symbol by symbol.  Each escaped symbol is read
back as the bytes of the symbol, whatever stands behind it, so what stands
between the quotes means the byte string that was quoted.  A quote between them
follows a backslash.
-/

namespace Schemata.Text

/-- Texts in which every quote is escaped by a backslash, as every backslash is
followed by what it escapes. -/
inductive NoBareQuote : Bytes → Prop
  | nil : NoBareQuote []
  | plain {b : UInt8} {rest : Bytes} :
      b ≠ 0x22 → b ≠ 0x5C → NoBareQuote rest → NoBareQuote (b :: rest)
  | escaped {c : UInt8} {rest : Bytes} :
      NoBareQuote rest → NoBareQuote (0x5C :: c :: rest)

theorem NoBareQuote.append
    {text rest : Bytes} (htext : NoBareQuote text) (hrest : NoBareQuote rest) :
    NoBareQuote (text ++ rest) := by
  induction htext with
  | nil => exact hrest
  | plain hquote hbackslash _ ih => exact .plain hquote hbackslash ih
  | escaped _ ih => exact .escaped ih

theorem noBareQuote_of_forall
    {text : Bytes} (h : ∀ b ∈ text, b ≠ 0x22 ∧ b ≠ 0x5C) : NoBareQuote text := by
  induction text with
  | nil => exact .nil
  | cons b rest ih =>
      obtain ⟨hquote, hbackslash⟩ := h b List.mem_cons_self
      exact .plain hquote hbackslash
        (ih fun c hc => h c (List.mem_cons_of_mem b hc))

/-! ## Hexadecimal digits -/

theorem hexDigit?_eq_some
    {b : UInt8} {d : Nat} (h : hexDigit? b = some d) :
    b.toNat < 0x80 ∧ b ≠ 0x22 ∧ b ≠ 0x5C := by
  unfold hexDigit? at h
  simp only [UInt8.le_iff_toNat_le, Bool.and_eq_true, decide_eq_true_eq,
    ne_eq, ← UInt8.toNat_inj] at h ⊢
  split_ifs at h <;> simp at * <;> omega

theorem mem_hexadecimal
    {width n : Nat} {b : UInt8} (hb : b ∈ hexadecimal width n) :
    b.toNat < 0x80 ∧ b ≠ 0x22 ∧ b ≠ 0x5C := by
  obtain ⟨d, hd⟩ := digit_of_digitsOnto? (worth?_hexadecimal width n) b hb
  exact hexDigit?_eq_some hd

theorem fixedDigits?_ascii
    {digitOf : UInt8 → Option Nat} {base : Nat} {digits : Bytes}
    (hascii : ∀ b ∈ digits, b.toNat < 0x80) (more : List Symbol) :
    fixedDigits? digitOf base digits.length
        (digits.map (fun b => .code b.toNat [b]) ++ more) =
      worth? digitOf base digits := by
  unfold fixedDigits? worth?
  rw [if_neg (by simp), List.take_left' (by simp), List.foldlM_map]
  generalize 0 = value
  induction digits generalizing value with
  | nil => rfl
  | cons b digits ih =>
      have htail := ih fun c hc => hascii c (List.mem_cons_of_mem b hc)
      have hb : b.toNat < 0x80 := hascii b List.mem_cons_self
      have hbyte : b.toNat.toUInt8 = b := toUInt8_eq rfl
      rw [digitsOnto?_cons, List.foldlM_cons]
      simp only [hb, hbyte, ↓reduceIte]
      cases digitOf b with
      | none => rfl
      | some d => exact htail (value * base + d)

theorem fixedDigits?_hexadecimal
    {width n : Nat} (hwidth : 0 < width) (hn : n < 16 ^ width) (rest : Bytes) :
    fixedDigits? hexDigit? 16 width (symbols (hexadecimal width n ++ rest)) =
      some n := by
  have hascii : ∀ b ∈ hexadecimal width n, b.toNat < 0x80 :=
    fun b hb => (mem_hexadecimal hb).1
  have hlength := length_hexadecimal hwidth hn
  rw [symbols_ascii_append hascii, ← worth?_hexadecimal width n,
    ← fixedDigits?_ascii hascii (symbols rest), hlength]

/-! ## Escapes are read back -/

theorem unescapeFrom_drop (skip : Nat) (ss : List Symbol) :
    unescapeFrom skip ss = unescapeFrom 0 (ss.drop skip) := by
  induction ss generalizing skip with
  | nil => simp [unescapeFrom]
  | cons s ss ih =>
      cases skip with
      | zero => rfl
      | succ skip => rw [unescapeFrom, ih, List.drop_succ_cons]

/-- What may follow a backslash to mean a text, whatever stands behind it. -/
structure Escapes (body text : Bytes) : Prop where
  ascii : ∀ b ∈ body, b.toNat < 0x80
  noBareQuote : NoBareQuote (0x5C :: body)
  escape?_eq : ∀ rest,
    escape? (symbols (body ++ rest)) = some (text, body.length)

theorem Escapes.unescapeFrom_eq
    {body text : Bytes} (h : Escapes body text) (rest : Bytes) :
    unescapeFrom 0 (symbols (0x5C :: body ++ rest)) =
      (unescapeFrom 0 (symbols rest)).map (text ++ ·) := by
  rw [List.cons_append, symbols_ascii_cons (by decide), unescapeFrom,
    if_neg (by decide), if_pos (by decide), h.escape?_eq]
  simp only
  rw [unescapeFrom_drop, symbols_ascii_append h.ascii,
    List.drop_left' (by simp)]

theorem escapes_letter
    {letter : UInt8} {text : Bytes} (hletter : letter.toNat < 0x80)
    (h : ∀ ss, escape? (.code letter.toNat [letter] :: ss) = some (text, 1)) :
    Escapes [letter] text where
  ascii := by simpa using hletter
  noBareQuote := .escaped .nil
  escape?_eq := by
    intro rest
    rw [List.singleton_append, symbols_ascii_cons hletter, h]
    rfl

theorem escapes_hexadecimal
    {letter : UInt8} {width n : Nat} {text : Bytes}
    (hletter : letter.toNat < 0x80) (hwidth : 0 < width) (hn : n < 16 ^ width)
    (h : ∀ ss, fixedDigits? hexDigit? 16 width ss = some n →
      escape? (.code letter.toNat [letter] :: ss) = some (text, width + 1)) :
    Escapes (letter :: hexadecimal width n) text where
  ascii := by
    intro b hb
    rcases List.mem_cons.mp hb with rfl | hb
    · exact hletter
    · exact (mem_hexadecimal hb).1
  noBareQuote :=
    .escaped (noBareQuote_of_forall fun _ hb => (mem_hexadecimal hb).2)
  escape?_eq := by
    intro rest
    rw [List.cons_append, symbols_ascii_cons hletter, List.length_cons,
      length_hexadecimal hwidth hn]
    exact h _ (fixedDigits?_hexadecimal hwidth hn rest)

theorem escapes_byte {n : Nat} (hn : n < 16 ^ 2) :
    Escapes (0x78 :: hexadecimal 2 n) [n.toUInt8] := by
  refine escapes_hexadecimal (by decide) (by decide) hn ?_
  intro ss hdigits
  simp [escape?, hdigits]

theorem escapedPoint?_of_spells
    {n : Nat} {spelling : Bytes} (h : Spells n spelling) :
    escapedPoint? n = some spelling := by
  have hpoint := h.isPoint
  rw [escapedPoint?, if_neg (by simp; omega), h.encode_eq]

theorem escapes_short
    {n : Nat} {spelling : Bytes} (h : Spells n spelling) (hn : n < 16 ^ 4) :
    Escapes (0x75 :: hexadecimal 4 n) spelling := by
  refine escapes_hexadecimal (by decide) (by decide) hn ?_
  intro ss hdigits
  simp [escape?, hdigits, escapedPoint?_of_spells h]

theorem escapes_long
    {n : Nat} {spelling : Bytes} (h : Spells n spelling) :
    Escapes (0x55 :: hexadecimal 8 n) spelling := by
  have hn : n < 16 ^ 8 := by
    have hpoint := h.isPoint
    omega
  refine escapes_hexadecimal (by decide) (by decide) hn ?_
  intro ss hdigits
  simp [escape?, hdigits, escapedPoint?_of_spells h]

theorem escapes_shortEscape
    {n : Nat} {letter : Char} (h : shortEscape? n = some letter) :
    n < 0x80 ∧ Escapes [byte letter] [n.toUInt8] := by
  unfold shortEscape? at h
  split at h
  all_goals first
    | cases h
      exact ⟨by decide, escapes_letter (by decide) fun ss => rfl⟩
    | cases h

theorem utf8_x : utf8 "\\x" = [0x5C, 0x78] := by decide

theorem utf8_u : utf8 "\\u" = [0x5C, 0x75] := by decide

theorem utf8_U : utf8 "\\U" = [0x5C, 0x55] := by decide

/-- A code point stands between quotes as it is spelled, or as a backslash and
an escape that means it. -/
theorem escapePoint_cases
    {n : Nat} {spelling : Bytes} (h : Spells n spelling) :
    escapePoint 0x22 n spelling = spelling ∧
        n ≠ 0x0A ∧ n ≠ 0x22 ∧ n ≠ 0x5C ∨
      ∃ body, escapePoint 0x22 n spelling = 0x5C :: body ∧
        Escapes body spelling := by
  have hascii : n < 0x80 → spelling = [n.toUInt8] := by
    intro hn
    rcases h.ascii_or_high with ⟨_, hspelling⟩ | ⟨hhigh, _⟩
    · exact hspelling
    · omega
  unfold escapePoint
  split
  · rename_i hmark
    right
    refine ⟨spelling, rfl, ?_⟩
    simp at hmark
    rcases hmark with rfl | rfl
    · rw [hascii (by decide)]
      exact escapes_letter (by decide) fun ss => rfl
    · rw [hascii (by decide)]
      exact escapes_letter (by decide) fun ss => rfl
  · rename_i hmark
    simp at hmark
    split
    · rename_i hprintable
      left
      refine ⟨rfl, ?_, hmark⟩
      rintro rfl
      cases hprintable
    · right
      split
      · rename_i letter hletter
        obtain ⟨hn, hescapes⟩ := escapes_shortEscape hletter
        rw [hascii hn]
        exact ⟨[byte letter], rfl, hescapes⟩
      · split
        · rename_i hcontrol
          have hn : n < 0x80 := by
            simp at hcontrol
            omega
          rw [hascii hn, utf8_x]
          exact ⟨_, rfl, escapes_byte (by omega)⟩
        · split
          · rename_i hn
            rw [utf8_u]
            exact ⟨_, rfl, escapes_short h hn⟩
          · rw [utf8_U]
            exact ⟨_, rfl, escapes_long h⟩

theorem escapeSymbol_cases {s : Symbol} (hs : s.IsSpelled) :
    (∃ n spelling, s = .code n spelling ∧ escapeSymbol s = spelling ∧
        n ≠ 0x0A ∧ n ≠ 0x22 ∧ n ≠ 0x5C) ∨
      ∃ body, escapeSymbol s = 0x5C :: body ∧ Escapes body s.spelling := by
  cases s with
  | code n spelling =>
      rcases escapePoint_cases hs with hself | hescape
      · exact .inl ⟨n, spelling, rfl, hself⟩
      · exact .inr hescape
  | stray b =>
      have hbyte : Escapes (0x78 :: hexadecimal 2 b.toNat) [b] := by
        have h := escapes_byte b.toNat_lt
        rwa [toUInt8_eq rfl] at h
      exact .inr ⟨_, by rw [escapeSymbol, utf8_x]; rfl, hbyte⟩

theorem unescapeFrom_escapeSymbol
    {s : Symbol} (hs : s.IsSpelled) (rest : Bytes) :
    unescapeFrom 0 (symbols (escapeSymbol s ++ rest)) =
      (unescapeFrom 0 (symbols rest)).map (s.spelling ++ ·) := by
  rcases escapeSymbol_cases hs with
    ⟨n, spelling, rfl, hself, hnewline, hquote, hbackslash⟩ | ⟨body, heq, h⟩
  · have hspells : Spells n spelling := hs
    rw [hself, hspells.symbols_append, unescapeFrom,
      if_neg (by simp [hnewline, hquote]), if_neg hbackslash]
    rfl
  · rw [heq]
    exact h.unescapeFrom_eq rest

theorem noBareQuote_escapeSymbol {s : Symbol} (hs : s.IsSpelled) :
    NoBareQuote (escapeSymbol s) := by
  rcases escapeSymbol_cases hs with
    ⟨n, spelling, rfl, hself, _, hquote, hbackslash⟩ | ⟨body, heq, h⟩
  · rw [hself]
    apply noBareQuote_of_forall
    have hspells : Spells n spelling := hs
    rcases hspells.ascii_or_high with ⟨hn, rfl⟩ | ⟨_, hhigh⟩
    · simp only [List.mem_singleton, ne_eq, ← UInt8.toNat_inj]
      simp
      omega
    · intro b hb
      have hlow := hhigh b hb
      constructor <;> rintro rfl <;> revert hlow <;> decide
  · rw [heq]
    exact h.noBareQuote

theorem noBareQuote_escaped
    {ss : List Symbol} (h : ∀ s ∈ ss, s.IsSpelled) :
    NoBareQuote (ss.flatMap escapeSymbol) := by
  induction ss with
  | nil => exact .nil
  | cons s ss ih =>
      obtain ⟨hs, hss⟩ := List.forall_mem_cons.mp h
      exact (noBareQuote_escapeSymbol hs).append (ih hss)

theorem unquote_escaped
    {ss : List Symbol} (h : ∀ s ∈ ss, s.IsSpelled) :
    unquote (ss.flatMap escapeSymbol) = some (ss.flatMap Symbol.spelling) := by
  unfold unquote
  induction ss with
  | nil => rfl
  | cons s ss ih =>
      obtain ⟨hs, hss⟩ := List.forall_mem_cons.mp h
      rw [List.flatMap_cons, unescapeFrom_escapeSymbol hs, ih hss]
      rfl

/-- Quoted text stands between two quotes, every quote in between is escaped,
and what stands in between means the text. -/
theorem quote_eq (text : Bytes) :
    ∃ inner, quote text = 0x22 :: (inner ++ [0x22]) ∧ NoBareQuote inner ∧
      unquote inner = some text := by
  have hspelled : ∀ s ∈ symbols text, s.IsSpelled :=
    fun s hs => isSpelled_of_mem_symbols hs
  refine ⟨_, rfl, noBareQuote_escaped hspelled, ?_⟩
  rw [unquote_escaped hspelled, flatMap_spelling_symbols]

end Schemata.Text
