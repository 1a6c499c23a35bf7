import Schemata.Proofs.Outline.Levels

/-!
# Outlines on one line

The lines of an outline, written one after another with a space wherever a comma
ends a line, are the schema on one line.  Together with the levels of the lines
this is all there is to an outline: the same text, broken before every member
and before the attributes.
-/

namespace Schemata

/-- A text with a space after it if it ends in a comma. -/
def spaced (text : Bytes) : Bytes :=
  if text.getLast? = some (byte ',') then text ++ " " else text

def oneLine (lines : List Line) : Bytes := lines.flatMap fun l => spaced l.text

theorem spaced_of_getLast?
    {text : Bytes} (h : text.getLast? ≠ some (byte ',')) :
    spaced text = text := if_neg h

/-- A closing parenthesis hides what stands before it from the space. -/
theorem spaced_closing
    {trail : Bytes} (htrail : Trails trail) (start : Bytes) :
    spaced (start ++ ")" ++ trail) = start ++ ")" ++ spaced trail := by
  rcases htrail with rfl | rfl
  · have hlast : (start ++ ")").getLast? = some (byte ')') := by
      rw [List.getLast?_append]
      rfl
    rw [List.append_nil, spaced_of_getLast? (by rw [hlast]; decide)]
    exact (List.append_nil _).symm
  · have hlast : (start ++ ")" ++ ",").getLast? = some (byte ',') := by
      rw [List.getLast?_append]
      rfl
    rw [spaced, if_pos hlast, List.append_assoc]
    rfl

namespace Schema

def Member.text (m : Member) : Bytes :=
  m.lead ++ m.schema.text ++ spaced m.trail

theorem allText_eq (ps : List Schema) :
    allText ps =
      (separated (ps.map fun p => ([], p))).flatMap Member.text := by
  induction ps with
  | nil => simp [allText, separated]
  | cons p ps ih =>
      cases ps with
      | nil => simp [allText, separated, Member.text, spaced]
      | cons q rest =>
          rewrite [allText, ih]
          rfl

theorem fieldsText_eq (fields : List (Bytes × Schema)) :
    fieldsText fields =
      (separated (fields.map fun f => (f.1 ++ "=", f.2))).flatMap
        Member.text := by
  induction fields with
  | nil => simp [fieldsText, separated]
  | cons f fields ih =>
      cases fields with
      | nil => simp [fieldsText, separated, Member.text, spaced]
      | cons next rest =>
          rewrite [fieldsText, ih]
          rfl

theorem text_composite {s : Schema} (hs : s.kind.isAtomic = false) :
    s.text = s.kind.name ++ "(" ++
      (s.members.flatMap Member.text ++ (s.attributes ++ ")")) := by
  cases s with
  | tensor items dimensions =>
      rewrite [text, members, List.flatMap_singleton]
      simp only [Member.text, List.append_assoc]
      rfl
  | collection items ordered maxLength =>
      rewrite [text, members, List.flatMap_singleton]
      simp only [Member.text, List.append_assoc]
      rfl
  | mapping keys values =>
      rewrite [text, members, List.flatMap_cons, List.flatMap_singleton]
      simp only [Member.text, List.append_assoc]
      rfl
  | record fields =>
      rewrite [text, fieldsText_eq, List.append_assoc]
      rfl
  | union possibilities =>
      rewrite [text, allText_eq, List.append_assoc]
      rfl
  | _ => cases hs

theorem exists_text_atomic
    {s : Schema} (hs : s.kind.isAtomic = true) :
    ∃ start, s.text = start ++ ")" := by
  cases s with
  | anything => exact ⟨"Anything(", rfl⟩
  | nothing => exact ⟨"Nothing(", rfl⟩
  | null => exact ⟨"Null(", rfl⟩
  | boolean => exact ⟨"Boolean(", rfl⟩
  | number whole signed nbytes => exact ⟨_, rfl⟩
  | string charset maxLength => exact ⟨_, rfl⟩
  | reference path => exact ⟨_, rfl⟩
  | _ => cases hs

theorem oneLine_linesAt
    (s : Schema) (depth : Nat) (lead : Bytes) {trail : Bytes}
    (htrail : Trails trail) :
    oneLine (s.linesAt depth lead trail) = lead ++ s.text ++ spaced trail := by
  induction s using childrenInduction generalizing depth lead trail with
  | step s ih =>
      cases hs : s.kind.isAtomic with
      | true =>
          obtain ⟨start, hstart⟩ := exists_text_atomic hs
          have hspaced := spaced_closing htrail (lead ++ start)
          rw [linesAt_atomic hs, oneLine, List.flatMap_singleton, hstart,
            ← List.append_assoc, hspaced]
      | false =>
          have hopening : spaced (lead ++ (s.kind.name ++ "(")) =
              lead ++ (s.kind.name ++ "(") := by
            apply spaced_of_getLast?
            rw [List.getLast?_append, s.getLast?_opening, Option.some_or]
            decide
          have hmembers : oneLine
              (s.members.flatMap (Member.lines (depth + 1))) =
                s.members.flatMap Member.text := by
            rw [oneLine, List.flatMap_assoc]
            apply List.flatMap_congr
            intro m hm
            exact ih m.schema (schema_mem_children hm) _ m.lead
              (trails_members hm)
          calc oneLine (s.linesAt depth lead trail)
              = spaced (lead ++ (s.kind.name ++ "(")) ++
                  (oneLine (s.members.flatMap (Member.lines (depth + 1))) ++
                    spaced (s.attributes ++ ")" ++ trail)) := by
                rw [linesAt_composite hs, oneLine, List.flatMap_cons,
                  List.flatMap_append, List.flatMap_singleton]
                rfl
            _ = lead ++ s.text ++ spaced trail := by
                rw [hopening, hmembers, spaced_closing htrail,
                  text_composite hs]
                simp only [List.append_assoc]

/-- An outline is the schema on one line, broken into lines: put together, with
a space after every comma that ends a line, they are its text.  The first line
is at level 0, and from one line to the next the level changes by one at most.
Every node that is not atomic has a line that opens it, and this is followed by
deeper lines up to the one that closes the node. -/
theorem outline_text_levels (s : Schema) :
    oneLine s.outline = s.text ∧
      (∃ first rest, s.outline = first :: rest ∧ first.depth = 0) ∧
      s.outline.IsChain Line.Near ∧
      (s.outline.filter Line.encloses).map Line.node =
        (s.occurrences.map Occurrence.node).filter (!·.kind.isAtomic) ∧
      ∀ before opening after, s.outline = before ++ opening :: after →
        opening.encloses = true →
          ∃ inside closing rest, after = inside ++ closing :: rest ∧
            ClosedBy opening after inside closing := by
  refine ⟨?_, ?_, ?_, s.enclosingNodes_outline, ?_⟩
  · rw [outline, oneLine_linesAt s 0 [] trails_nil]
    exact List.append_nil _
  · obtain ⟨first, rest, houtline, hdepth, _⟩ := s.exists_outline_eq
    exact ⟨first, rest, houtline, hdepth⟩
  · exact (level_linesAt s 0 [] []).steps
  · intro before opening after houtline hopening
    have hclosed : Closed s.outline :=
      (bracketed_linesAt s 0 [] trails_nil).closed
    obtain ⟨inside, closing, h⟩ :=
      hclosed opening after ⟨before, houtline.symm⟩ hopening
    obtain ⟨rest, hafter⟩ := exists_eq_of_upToClosing h.found
    exact ⟨inside, closing, rest, hafter, h⟩

end Schema

end Schemata
