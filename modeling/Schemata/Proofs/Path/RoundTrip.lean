import Schemata.Proofs.Path.Grammar

/-!
# Paths are read back from their texts

The text of a path is a row of segment texts of the path: a name that would not
stand by itself is quoted, and a position is a numeral.  Only positions of at
least 0 and below 2 ^ 31 can be read, so exactly the paths that have no other
positions are read back.
-/

namespace Schemata

/-- Positions have at most 31 bits. -/
def Segment.InRange : Segment → Prop
  | .index i => 0 ≤ i ∧ i < 2 ^ 31
  | .field _ => True

namespace Path

open Text

def InRange (path : Path) : Prop :=
  ∀ segment ∈ path, segment.InRange

theorem IsSegment.inRange
    {isFirst : Bool} {text : Bytes} {segment : Segment}
    (h : IsSegment isFirst text segment) : segment.InRange := by
  cases h with
  | index _ _ hn =>
      unfold Segment.InRange
      omega
  | dotted => trivial
  | leading => trivial

theorem Splits.inRange
    {isFirst : Bool} {texts : List Bytes} {path : Path}
    (h : Splits isFirst texts path) : path.InRange := by
  induction h with
  | nil => simp [InRange]
  | cons hsegment _ ih =>
      exact List.forall_mem_cons.mpr ⟨hsegment.inRange, ih⟩

theorem inRange_of_parse
    {text : Bytes} {path : Path} (h : parse text = .ok path) :
    path.InRange := by
  obtain ⟨_, _, hsplits⟩ := parse_eq_ok_iff.mp h
  exact hsplits.inRange

/-! ## Segment texts as they are written -/

theorem isDelimiter_iff (b : UInt8) :
    isDelimiter b = true ↔
      b ∈ ([0x2E, 0x5B, 0x5D, 0x22, 0x5C, 0x20, 0x09, 0x0A] : Bytes) := by
  have hlist : utf8 ".[]\"\\ \t\n" =
      [0x2E, 0x5B, 0x5D, 0x22, 0x5C, 0x20, 0x09, 0x0A] := by decide
  rw [isDelimiter, hlist, List.contains_iff_mem]

theorem isName_nameText (name : Bytes) : IsName (nameText name) name := by
  unfold nameText
  split
  · obtain ⟨inner, heq, hno, hname⟩ := quote_eq name
    rw [heq]
    exact .quoted hno hname
  · rename_i hbare
    simp only [Bool.or_eq_true, List.isEmpty_iff, List.any_eq_true, not_or,
      not_exists, not_and, isDelimiter_iff] at hbare
    obtain ⟨hne, hdelimiter⟩ := hbare
    refine .bare hne ?_ ?_
    · intro b hb
      constructor <;> rintro rfl <;> exact hdelimiter _ hb (by decide)
    · intro hhead
      exact hdelimiter _ (List.mem_of_mem_head? hhead) (by decide)

theorem text_index (i : Int) :
    Segment.text (.index i) = byte '[' :: (decimalInt i ++ [byte ']']) := by
  have hopen : utf8 "[" = [byte '['] := by decide
  have hclose : utf8 "]" = [byte ']'] := by decide
  rw [Segment.text, hopen, hclose]
  rfl

theorem isSegment_index
    {i : Int} (h : (Segment.index i).InRange) (isFirst : Bool) :
    IsSegment isFirst (Segment.text (.index i)) (.index i) := by
  obtain ⟨hnonneg, hlt⟩ := h
  obtain ⟨n, rfl⟩ := Int.eq_ofNat_of_zero_le hnonneg
  rw [text_index]
  exact .index (decimal_ne_nil n) (worth?_decimal n) (by omega)

/-- A segment as it is written as the first one or not. -/
def written (isFirst : Bool) (segment : Segment) : Bytes :=
  if isFirst then segment.text else segment.suffix

theorem written_index (isFirst : Bool) (i : Int) :
    written isFirst (.index i) = Segment.text (.index i) := by
  cases isFirst <;> rfl

theorem isSegment_written
    {segment : Segment} (h : segment.InRange) (isFirst : Bool) :
    IsSegment isFirst (written isFirst segment) segment := by
  cases segment with
  | index i =>
      rw [written_index]
      exact isSegment_index h isFirst
  | field name =>
      cases isFirst with
      | false => exact .dotted (isName_nameText name)
      | true => exact .leading (isName_nameText name)

theorem endsName_suffixes (path : Path) :
    EndsName (path.flatMap Segment.suffix) := by
  cases path with
  | nil => simp [EndsName]
  | cons segment path =>
      cases segment with
      | index i => simp [EndsName, Segment.suffix, text_index]
      | field name => simp [EndsName, Segment.suffix]

/-! ## Positions that cannot be read -/

theorem ne_close_of_mem_decimalInt
    {i : Int} {b : UInt8} (hb : b ∈ decimalInt i) : b ≠ byte ']' := by
  cases i with
  | ofNat n => exact ne_bracket_of_worth? (worth?_decimal n) b hb
  | negSucc n =>
      rcases List.mem_cons.mp hb with rfl | hb
      · decide
      · exact ne_bracket_of_worth? (worth?_decimal (n + 1)) b hb

theorem exists_readNat_error
    {i : Int} (h : ¬ (Segment.index i).InRange) :
    ∃ cause, readNat maxIndex (decimalInt i) = .error cause := by
  cases hread : readNat maxIndex (decimalInt i) with
  | error cause => exact ⟨cause, rfl⟩
  | ok m =>
      cases i with
      | ofNat n =>
          obtain ⟨_, hle⟩ := readNat_decimal_eq_ok_iff.mp hread
          have hin : (Segment.index (Int.ofNat n)).InRange := by
            unfold maxIndex at hle
            simp only [Segment.InRange, Int.ofNat_eq_natCast]
            omega
          exact absurd hin h
      | negSucc n => cases hread

theorem readFrom_index_fails
    (whole : Bytes) (isFirst : Bool) {i : Int}
    (h : ¬ (Segment.index i).InRange) (rest : Bytes) :
    ∃ e, readFrom whole isFirst 0 (Segment.text (.index i) ++ rest) =
      .error e := by
  obtain ⟨cause, hcause⟩ := exists_readNat_error h
  have hdigits : ∀ b ∈ decimalInt i, b ≠ byte ']' :=
    fun b => ne_close_of_mem_decimalInt
  have hsegment := readSegment_bracket whole isFirst hdigits rest
  rw [hcause] at hsegment
  refine ⟨.invalidIndex (decimalInt i) cause, ?_⟩
  rw [text_index, List.cons_append, List.append_assoc, List.singleton_append,
    readFrom, hsegment]

theorem readFrom_written_fails
    (whole : Bytes) (isFirst : Bool) {segment : Segment} {path : Path}
    (h : ¬ InRange (segment :: path))
    (hpath : ¬ InRange path →
      ∃ e, readFrom whole false 0 (path.flatMap Segment.suffix) = .error e) :
    ∃ e, readFrom whole isFirst 0
      (written isFirst segment ++ path.flatMap Segment.suffix) = .error e := by
  by_cases hsegment : segment.InRange
  · obtain ⟨e, he⟩ := hpath fun hrange =>
      h (List.forall_mem_cons.mpr ⟨hsegment, hrange⟩)
    refine ⟨e, ?_⟩
    rw [readFrom_of_isSegment whole (isSegment_written hsegment isFirst)
      (endsName_suffixes path), he]
    rfl
  · cases segment with
    | index i =>
        rw [written_index]
        exact readFrom_index_fails whole isFirst hsegment _
    | field name => exact absurd trivial hsegment

theorem readFrom_suffixes_fails
    (whole : Bytes) {path : Path} (h : ¬ path.InRange) :
    ∃ e, readFrom whole false 0 (path.flatMap Segment.suffix) = .error e := by
  induction path with
  | nil => simp [InRange] at h
  | cons segment path ih => exact readFrom_written_fails whole false h ih

theorem parse_text_fails {path : Path} (h : ¬ path.InRange) :
    ∃ e, parse path.text = .error e := by
  cases path with
  | nil => simp [InRange] at h
  | cons segment path =>
      exact readFrom_written_fails _ true h (readFrom_suffixes_fails _)

theorem splits_suffixes {path : Path} (h : path.InRange) :
    Splits false (path.map Segment.suffix) path := by
  induction path with
  | nil => exact .nil
  | cons segment path ih =>
      obtain ⟨hsegment, hpath⟩ := List.forall_mem_cons.mp h
      exact .cons (isSegment_written hsegment false) (ih hpath)

theorem parse_text_of_inRange {path : Path} (h : path.InRange) :
    parse path.text = .ok path := by
  rw [parse_eq_ok_iff]
  cases path with
  | nil => exact ⟨[], rfl, .nil⟩
  | cons segment path =>
      obtain ⟨hsegment, hpath⟩ := List.forall_mem_cons.mp h
      refine ⟨segment.text :: path.map Segment.suffix, ?_,
        .cons (isSegment_written hsegment true) (splits_suffixes hpath)⟩
      rw [Path.text, List.flatten_cons, List.flatMap_def]

/-- A path is read back from its text if its positions are in range, and
nothing is read if they are not.  What is read from any text has its positions
in range. -/
theorem parse_text_iff (path : Path) :
    (parse path.text = .ok path ↔ path.InRange) ∧
      (¬ path.InRange → ∃ e, parse path.text = .error e) ∧
      ∀ text, parse text = .ok path →
        path.InRange ∧ parse path.text = .ok path := by
  refine ⟨⟨inRange_of_parse, parse_text_of_inRange⟩, parse_text_fails, ?_⟩
  intro text hparse
  have hrange := inRange_of_parse hparse
  exact ⟨hrange, parse_text_of_inRange hrange⟩

end Path

end Schemata
