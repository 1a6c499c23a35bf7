import Schemata.Path.Text
import Schemata.Proofs.Text.Quoted
import Mathlib.Data.List.TakeWhile

/-!
# The grammar of path texts

A path text is a row of segment texts.  A position is a decimal numeral below
2 ^ 31 in brackets, and a name follows a dot, which only the first segment may
lack.  A name is quoted or bare: a quoted one ends at its first quote that is
not escaped, a bare one is not empty, holds neither a dot nor an opening bracket
and does not start with a quote.

Where one segment text ends depends on what is read and on nothing before it: a
bare name goes on until a dot or an opening bracket, with which every segment
text but the first starts.  So a text splits into segment texts in one way at
most, and reading finds it.
-/

namespace Schemata.Path

open Text

/-- A text of a name. -/
inductive IsName : Bytes → Bytes → Prop
  | quoted {inner name : Bytes} :
      NoBareQuote inner → unquote inner = some name →
      IsName (0x22 :: (inner ++ [0x22])) name
  | bare {name : Bytes} :
      name ≠ [] → (∀ b ∈ name, b ≠ byte '.' ∧ b ≠ byte '[') →
      name.head? ≠ some 0x22 → IsName name name

/-- A text of a segment, which is the first one or not. -/
inductive IsSegment : Bool → Bytes → Segment → Prop
  | index {isFirst : Bool} {digits : Bytes} {n : Nat} :
      digits ≠ [] → worth? digit? 10 digits = some n → n < 2 ^ 31 →
      IsSegment isFirst (byte '[' :: (digits ++ [byte ']'])) (.index n)
  | dotted {isFirst : Bool} {text name : Bytes} :
      IsName text name → IsSegment isFirst (byte '.' :: text) (.field name)
  | leading {text name : Bytes} :
      IsName text name → IsSegment true text (.field name)

/-- Texts of the segments of a path. -/
inductive Splits : Bool → List Bytes → Path → Prop
  | nil {isFirst : Bool} : Splits isFirst [] []
  | cons {isFirst : Bool} {text : Bytes} {texts : List Bytes}
      {segment : Segment} {path : Path} :
      IsSegment isFirst text segment → Splits false texts path →
      Splits isFirst (text :: texts) (segment :: path)

/-- A bare name ends in front of this. -/
def EndsName (rest : Bytes) : Prop :=
  ∀ b ∈ rest.head?, b = byte '.' ∨ b = byte '['

theorem IsName.ne_nil {text name : Bytes} (h : IsName text name) :
    text ≠ [] := by
  cases h with
  | quoted => exact List.cons_ne_nil _ _
  | bare hne => exact hne

theorem IsSegment.ne_nil
    {isFirst : Bool} {text : Bytes} {segment : Segment}
    (h : IsSegment isFirst text segment) : text ≠ [] := by
  cases h with
  | leading hname => exact hname.ne_nil
  | _ => exact List.cons_ne_nil _ _

theorem Splits.endsName
    {texts : List Bytes} {path : Path} (h : Splits false texts path) :
    EndsName texts.flatten := by
  cases h with
  | nil => simp [EndsName]
  | cons hsegment _ => cases hsegment <;> simp [EndsName]

/-! ## Quoted names -/

theorem quotedInner_plain
    {b : UInt8} (hquote : b ≠ 0x22) (hbackslash : b ≠ 0x5C) (rest : Bytes) :
    quotedInner (b :: rest) = (quotedInner rest).map (b :: ·) := by
  cases rest <;> simp [quotedInner, hquote, hbackslash]

theorem quotedInner_quote (rest : Bytes) :
    quotedInner (0x22 :: rest) = some [] := by
  cases rest <;> rfl

theorem quotedInner_escaped (c : UInt8) (rest : Bytes) :
    quotedInner (0x5C :: c :: rest) =
      (quotedInner rest).map (0x5C :: c :: ·) := by
  rw [quotedInner, if_neg (by decide), if_pos rfl]

theorem quotedInner_of_noBareQuote
    {inner : Bytes} (h : NoBareQuote inner) (rest : Bytes) :
    quotedInner (inner ++ 0x22 :: rest) = some inner := by
  induction h with
  | nil => exact quotedInner_quote rest
  | plain hquote hbackslash _ ih =>
      rw [List.cons_append, quotedInner_plain hquote hbackslash, ih]
      rfl
  | escaped _ ih =>
      rw [List.cons_append, List.cons_append, quotedInner_escaped, ih]
      rfl

theorem quotedInner_eq_some
    {text inner : Bytes} (h : quotedInner text = some inner) :
    NoBareQuote inner ∧ ∃ rest, text = inner ++ 0x22 :: rest := by
  induction text using quotedInner.induct generalizing inner with
  | case1 => cases h
  | case2 =>
      cases h
      exact ⟨.nil, [], rfl⟩
  | case3 b hb => simp [quotedInner, hb] at h
  | case4 c rest =>
      cases h
      exact ⟨.nil, c :: rest, rfl⟩
  | case5 c rest _ ih =>
      rw [quotedInner_escaped, Option.map_eq_some_iff] at h
      obtain ⟨more, hmore, rfl⟩ := h
      obtain ⟨hno, after, rfl⟩ := ih hmore
      exact ⟨.escaped hno, after, rfl⟩
  | case6 b c rest hquote hbackslash ih =>
      rw [quotedInner_plain hquote hbackslash, Option.map_eq_some_iff] at h
      obtain ⟨more, hmore, rfl⟩ := h
      obtain ⟨hno, after, heq⟩ := ih hmore
      exact ⟨.plain hquote hbackslash hno, after, by rw [heq]; rfl⟩

/-! ## Reading one segment -/

theorem takeWhile_append_of_ends
    {p : UInt8 → Bool} {run rest : Bytes} (hrun : ∀ b ∈ run, p b = true)
    (hrest : ∀ b ∈ rest.head?, p b = false) :
    (run ++ rest).takeWhile p = run := by
  rw [List.takeWhile_append_of_pos hrun]
  cases rest with
  | nil => simp
  | cons b rest => simp [hrest b rfl]

theorem readName_of_isName
    {b : UInt8} {tail name rest : Bytes} (h : IsName (b :: tail) name)
    (hrest : EndsName rest) :
    readName b (tail ++ rest) = .ok (name, tail.length + 1) := by
  cases h with
  | @quoted inner _ hno hname =>
      have hinner := quotedInner_of_noBareQuote hno rest
      rw [readName, if_pos rfl, List.append_assoc, List.singleton_append, hinner]
      simp [hname]
  | bare _ hbytes hhead =>
      have hquote : b ≠ 0x22 := fun hb => hhead (congrArg some hb)
      have hrun : (b :: tail ++ rest).takeWhile
          (fun c => c ≠ byte '.' && c ≠ byte '[') = b :: tail := by
        apply takeWhile_append_of_ends
        · simpa using hbytes
        · intro c hc
          rcases hrest c hc with rfl | rfl <;> rfl
      rw [List.cons_append] at hrun
      rw [readName, if_neg hquote, hrun]
      rfl

theorem isName_of_readName
    {b : UInt8} {rest name : Bytes} {length : Nat}
    (h : readName b rest = .ok (name, length)) :
    ∃ text more, b :: rest = text ++ more ∧ text.length = length ∧
      IsName text name := by
  unfold readName at h
  split at h
  · rename_i hb
    subst hb
    split at h
    · cases h
    · rename_i inner hinner
      obtain ⟨hno, more, rfl⟩ := quotedInner_eq_some hinner
      split at h
      · cases h
      · rename_i name' hname
        cases h
        exact ⟨0x22 :: (inner ++ [0x22]), more, by simp, by simp,
          .quoted hno hname⟩
  · rename_i hb
    simp only at h
    split at h
    · cases h
    · rename_i hempty
      cases h
      refine ⟨_, _, (List.takeWhile_append_dropWhile).symm, rfl, .bare ?_ ?_ ?_⟩
      · simpa using hempty
      · intro c hc
        simpa using List.mem_takeWhile_imp hc
      · intro hhead
        rw [List.head?_takeWhile] at hhead
        simp at hhead
        exact hb hhead.1

/-- A position is read from the numeral in front of the closing bracket. -/
theorem readSegment_bracket
    (whole : Bytes) (isFirst : Bool) {digits : Bytes}
    (hdigits : ∀ b ∈ digits, b ≠ byte ']') (rest : Bytes) :
    readSegment whole isFirst (byte '[') (digits ++ byte ']' :: rest) =
      match readNat maxIndex digits with
      | .error cause => .error (.invalidIndex digits cause)
      | .ok i => .ok (.index i, digits.length + 2) := by
  have hrun : (digits ++ byte ']' :: rest).takeWhile (fun c => c ≠ byte ']') =
      digits := by
    apply takeWhile_append_of_ends
    · simpa using hdigits
    · intro c hc
      cases hc
      rfl
  have hclosed : digits.length ≠ (digits ++ byte ']' :: rest).length := by simp
  unfold readSegment
  rewrite [if_pos rfl, hrun, if_neg hclosed]
  rfl

theorem readSegment_dot
    (whole : Bytes) (isFirst : Bool) (c : UInt8) (rest : Bytes) :
    readSegment whole isFirst (byte '.') (c :: rest) =
      match readName c rest with
      | .error e => .error e
      | .ok (name, length) => .ok (.field name, length + 1) := by
  unfold readSegment
  rewrite [if_neg (by decide), if_pos rfl]
  rfl

theorem IsName.head_ne
    {b : UInt8} {tail name : Bytes} (h : IsName (b :: tail) name) :
    b ≠ byte '[' ∧ b ≠ byte '.' := by
  cases h with
  | quoted => decide
  | bare _ hbytes _ => exact (hbytes b List.mem_cons_self).symm

theorem ne_bracket_of_worth?
    {digits : Bytes} {n : Nat} (h : worth? digit? 10 digits = some n) :
    ∀ b ∈ digits, b ≠ byte ']' := by
  rintro b hb rfl
  obtain ⟨d, hd⟩ := digit_of_digitsOnto? h _ hb
  cases hd

theorem readSegment_of_isSegment
    (whole : Bytes) {isFirst : Bool} {b : UInt8} {tail rest : Bytes}
    {segment : Segment} (h : IsSegment isFirst (b :: tail) segment)
    (hrest : EndsName rest) :
    readSegment whole isFirst b (tail ++ rest) =
      .ok (segment, tail.length + 1) := by
  cases h with
  | @index _ digits n hne hworth hn =>
      have hread : readNat maxIndex digits = .ok n :=
        readNat_eq_ok_iff.mpr ⟨hne, hworth, Nat.le_of_lt_succ hn⟩
      rw [List.append_assoc, List.singleton_append,
        readSegment_bracket whole _ (ne_bracket_of_worth? hworth), hread]
      simp
  | dotted hname =>
      obtain ⟨c, tail, rfl⟩ := List.exists_cons_of_ne_nil hname.ne_nil
      rw [List.cons_append, readSegment_dot, readName_of_isName hname hrest]
      rfl
  | leading hname =>
      obtain ⟨hbracket, hdot⟩ := hname.head_ne
      unfold readSegment
      rw [if_neg hbracket, if_neg hdot, if_pos rfl,
        readName_of_isName hname hrest]

theorem exists_of_takeWhile_ne
    {c : UInt8} {text : Bytes}
    (h : (text.takeWhile fun b => b ≠ c).length ≠ text.length) :
    ∃ rest, text = (text.takeWhile fun b => b ≠ c) ++ c :: rest := by
  have hsplit := List.takeWhile_append_dropWhile
    (p := fun b => decide (b ≠ c)) (l := text)
  have hstop := List.head?_dropWhile_not (fun b => decide (b ≠ c)) text
  cases hdrop : text.dropWhile fun b => b ≠ c with
  | nil =>
      rw [hdrop, List.append_nil] at hsplit
      exact absurd (congrArg List.length hsplit) h
  | cons b rest =>
      rw [hdrop] at hstop hsplit
      obtain rfl : b = c := by simpa using hstop
      exact ⟨rest, hsplit.symm⟩

theorem isSegment_of_readSegment
    {whole : Bytes} {isFirst : Bool} {b : UInt8} {rest : Bytes}
    {segment : Segment} {length : Nat}
    (h : readSegment whole isFirst b rest = .ok (segment, length)) :
    ∃ text more, b :: rest = text ++ more ∧ text.length = length ∧
      IsSegment isFirst text segment := by
  unfold readSegment at h
  split at h
  · rename_i hb
    subst hb
    simp only at h
    split at h
    · cases h
    · rename_i hclosed
      split at h
      · cases h
      · rename_i n hread
        cases h
        obtain ⟨hne, hworth, hle⟩ := readNat_eq_ok_iff.mp hread
        obtain ⟨more, hrest⟩ := exists_of_takeWhile_ne hclosed
        refine ⟨_, more, ?_, ?_, .index hne hworth (Nat.lt_succ_of_le hle)⟩
        · rw [List.cons_append, List.append_assoc, List.singleton_append,
            ← hrest]
        · simp
  · split at h
    · rename_i hb
      subst hb
      split at h
      · cases h
      · split at h
        · cases h
        · rename_i hread
          cases h
          obtain ⟨text, more, heq, rfl, hname⟩ := isName_of_readName hread
          exact ⟨byte '.' :: text, more, by rw [heq]; rfl, rfl, .dotted hname⟩
    · split at h
      · rename_i hfirst
        subst hfirst
        split at h
        · cases h
        · rename_i hread
          cases h
          obtain ⟨text, more, heq, rfl, hname⟩ := isName_of_readName hread
          exact ⟨text, more, heq, rfl, .leading hname⟩
      · cases h

/-! ## Reading a path -/

theorem readFrom_drop
    (whole : Bytes) (isFirst : Bool) (skip : Nat) (text : Bytes) :
    readFrom whole isFirst skip text =
      readFrom whole isFirst 0 (text.drop skip) := by
  induction text generalizing skip with
  | nil => simp [readFrom]
  | cons b rest ih =>
      cases skip with
      | zero => rfl
      | succ skip => rw [readFrom, ih, List.drop_succ_cons]

/-- After a segment the rest of the text is read. -/
theorem readFrom_of_isSegment
    (whole : Bytes) {isFirst : Bool} {text rest : Bytes} {segment : Segment}
    (h : IsSegment isFirst text segment) (hrest : EndsName rest) :
    readFrom whole isFirst 0 (text ++ rest) =
      (readFrom whole false 0 rest).map (segment :: ·) := by
  obtain ⟨b, tail, rfl⟩ := List.exists_cons_of_ne_nil h.ne_nil
  rw [List.cons_append, readFrom, readSegment_of_isSegment whole h hrest]
  simp only [Nat.add_sub_cancel]
  rw [readFrom_drop, List.drop_left]
  cases readFrom whole false 0 rest <;> rfl

theorem readFrom_of_splits
    (whole : Bytes) {isFirst : Bool} {texts : List Bytes} {path : Path}
    (h : Splits isFirst texts path) :
    readFrom whole isFirst 0 texts.flatten = .ok path := by
  induction h with
  | nil => rw [List.flatten_nil, readFrom]
  | cons hsegment hrest ih =>
      rw [List.flatten_cons,
        readFrom_of_isSegment whole hsegment hrest.endsName, ih]
      rfl

theorem splits_of_readFrom
    {whole : Bytes} {isFirst : Bool} {text : Bytes} {path : Path}
    (h : readFrom whole isFirst 0 text = .ok path) :
    ∃ texts, texts.flatten = text ∧ Splits isFirst texts path := by
  induction hn : text.length using Nat.strong_induction_on
    generalizing isFirst text path with
  | _ n ih =>
      cases text with
      | nil =>
          rw [readFrom] at h
          cases h
          exact ⟨[], rfl, .nil⟩
      | cons b rest =>
          rw [readFrom] at h
          split at h
          · cases h
          · rename_i segment length hread
            split at h
            · cases h
            · rename_i path hpath
              cases h
              obtain ⟨text, more, heq, rfl, hsegment⟩ :=
                isSegment_of_readSegment hread
              obtain ⟨c, tail, rfl⟩ :=
                List.exists_cons_of_ne_nil hsegment.ne_nil
              rw [List.cons_append] at heq
              obtain ⟨rfl, rfl⟩ := List.cons.inj heq
              rw [List.length_cons, Nat.add_sub_cancel, readFrom_drop,
                List.drop_left] at hpath
              obtain ⟨texts, rfl, hsplits⟩ := ih _ (by
                rw [← hn, List.length_cons, List.length_append]
                omega) hpath rfl
              exact ⟨(b :: tail) :: texts, rfl, .cons hsegment hsplits⟩

theorem parse_eq_ok_iff {text : Bytes} {path : Path} :
    parse text = .ok path ↔
      ∃ texts, texts.flatten = text ∧ Splits true texts path := by
  constructor
  · exact splits_of_readFrom
  · rintro ⟨texts, rfl, hsplits⟩
    exact readFrom_of_splits _ hsplits

/-- Two segment texts at the front of one text are the same. -/
theorem IsSegment.eq_of_append_eq
    {isFirst : Bool} {text text' rest rest' : Bytes} {segment segment' : Segment}
    (h : IsSegment isFirst text segment) (h' : IsSegment isFirst text' segment')
    (hrest : EndsName rest) (hrest' : EndsName rest')
    (heq : text ++ rest = text' ++ rest') :
    text = text' ∧ rest = rest' ∧ segment = segment' := by
  obtain ⟨b, tail, rfl⟩ := List.exists_cons_of_ne_nil h.ne_nil
  obtain ⟨b', tail', rfl⟩ := List.exists_cons_of_ne_nil h'.ne_nil
  rw [List.cons_append, List.cons_append] at heq
  obtain ⟨rfl, htails⟩ := List.cons.inj heq
  have hread := readSegment_of_isSegment [] h hrest
  have hread' := readSegment_of_isSegment [] h' hrest'
  rw [htails, hread', Except.ok.injEq, Prod.mk.injEq] at hread
  obtain ⟨rfl, hlength⟩ := hread
  obtain ⟨rfl, rfl⟩ := List.append_inj htails (by omega)
  exact ⟨rfl, rfl, rfl⟩

theorem Splits.unique
    {isFirst : Bool} {texts texts' : List Bytes} {path path' : Path}
    (h : Splits isFirst texts path) (h' : Splits isFirst texts' path')
    (heq : texts.flatten = texts'.flatten) : texts = texts' ∧ path = path' := by
  induction h generalizing texts' path' with
  | nil =>
      cases h' with
      | nil => exact ⟨rfl, rfl⟩
      | cons hsegment _ =>
          exact absurd (List.append_eq_nil_iff.mp heq.symm).1 hsegment.ne_nil
  | cons hsegment hrest ih =>
      cases h' with
      | nil => exact absurd (List.append_eq_nil_iff.mp heq).1 hsegment.ne_nil
      | cons hsegment' hrest' =>
          obtain ⟨rfl, hflatten, rfl⟩ := hsegment.eq_of_append_eq hsegment'
            hrest.endsName hrest'.endsName heq
          obtain ⟨rfl, rfl⟩ := ih hrest' hflatten
          exact ⟨rfl, rfl⟩

theorem Splits.length_le
    {isFirst : Bool} {texts : List Bytes} {path : Path}
    (h : Splits isFirst texts path) : path.length ≤ texts.flatten.length := by
  induction h with
  | nil => exact Nat.le_refl _
  | cons hsegment _ ih =>
      have hpos := List.length_pos_of_ne_nil hsegment.ne_nil
      rw [List.length_cons, List.flatten_cons, List.length_append]
      omega

/-- Reading a text gives the path it splits into, in one way only, and fails if
there is none.  Every segment takes at least one byte. -/
theorem parse_grammar (text : Bytes) :
    (∀ path, parse text = .ok path ↔
      ∃ texts, texts.flatten = text ∧ Splits true texts path) ∧
      (∀ texts texts' path path', texts.flatten = text →
        texts'.flatten = text → Splits true texts path →
          Splits true texts' path' → texts = texts' ∧ path = path') ∧
      (∀ path, parse text = .ok path → path.length ≤ text.length) ∧
      ((¬ ∃ texts path, texts.flatten = text ∧ Splits true texts path) →
        ∃ e, parse text = .error e) := by
  refine ⟨fun path => parse_eq_ok_iff, ?_, ?_, ?_⟩
  · intro texts texts' path path' htext htext' h h'
    exact h.unique h' (htext.trans htext'.symm)
  · intro path hparse
    obtain ⟨texts, rfl, h⟩ := parse_eq_ok_iff.mp hparse
    exact h.length_le
  · intro hnone
    cases hparse : parse text with
    | error e => exact ⟨e, rfl⟩
    | ok path =>
        obtain ⟨texts, htext, h⟩ := parse_eq_ok_iff.mp hparse
        exact absurd ⟨texts, path, htext, h⟩ hnone

end Schemata.Path
