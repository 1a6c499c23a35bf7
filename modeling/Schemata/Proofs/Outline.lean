import Schemata.Proofs.Outline.Members

/-!
# The nodes of an outline

An outline has one line for each atomic node of a schema and two for each other
node, of which one opens it.  The lines that open nodes, or are their only
lines, so show all nodes, each before those inside it.
-/

namespace Schemata

/-- A node somewhere in a schema. -/
structure Occurrence where
  node : Schema
  possibility : Bool

/-- Whether the node is the null that makes a union nullable. -/
def Occurrence.isNullability (o : Occurrence) : Bool :=
  o.possibility && o.node.kind == .null

theorem Occurrence.isNullability_iff {o : Occurrence} :
    o.isNullability = true ↔ o.possibility = true ∧ o.node = .null := by
  obtain ⟨node, possibility⟩ := o
  cases node <;> simp [isNullability, Schema.kind]

namespace Schema

mutual

/-- All nodes of a schema that may be a possibility itself, each before those
inside it. -/
def occurrencesAt (possibility : Bool) : Schema → List Occurrence
  | .tensor items dimensions =>
    ⟨.tensor items dimensions, possibility⟩ :: items.occurrencesAt false
  | .collection items ordered maxLength =>
    ⟨.collection items ordered maxLength, possibility⟩ ::
      items.occurrencesAt false
  | .mapping keys values =>
    ⟨.mapping keys values, possibility⟩ ::
      (keys.occurrencesAt false ++ values.occurrencesAt false)
  | .record fields =>
    ⟨.record fields, possibility⟩ :: fieldsOccurrences fields
  | .union possibilities =>
    ⟨.union possibilities, possibility⟩ :: unionOccurrences possibilities
  | s => [⟨s, possibility⟩]

def unionOccurrences : List Schema → List Occurrence
  | [] => []
  | p :: ps => p.occurrencesAt true ++ unionOccurrences ps

def fieldsOccurrences : List (Bytes × Schema) → List Occurrence
  | [] => []
  | (_, f) :: rest => f.occurrencesAt false ++ fieldsOccurrences rest

end

def occurrences (s : Schema) : List Occurrence := s.occurrencesAt false

theorem unionOccurrences_eq (ps : List Schema) :
    unionOccurrences ps = ps.flatMap (occurrencesAt true) := by
  induction ps with
  | nil => rfl
  | cons p ps ih => rw [unionOccurrences, ih, List.flatMap_cons]

theorem fieldsOccurrences_eq (fields : List (Bytes × Schema)) :
    fieldsOccurrences fields =
      (fields.map Prod.snd).flatMap (occurrencesAt false) := by
  induction fields with
  | nil => rfl
  | cons f rest ih =>
      rw [fieldsOccurrences, ih, List.map_cons, List.flatMap_cons]

theorem occurrencesAt_eq (possibility : Bool) (s : Schema) :
    s.occurrencesAt possibility =
      ⟨s, possibility⟩ ::
        s.children.flatMap (occurrencesAt (s.kind == .union)) := by
  cases s <;>
    simp [occurrencesAt, children, unionOccurrences_eq, fieldsOccurrences_eq,
      kind] <;>
    rfl

end Schema

/-- Whether a line opens a node or is its only line. -/
def Line.opens (l : Line) : Bool :=
  l.node.kind.isAtomic || l.text.getLast? == some (byte '(')

theorem Line.opens_of_getLast?
    {l : Line} (h : l.text.getLast? = some (byte '(')) : l.opens = true := by
  simp [opens, h]

theorem Line.not_opens_of_getLast?
    {l : Line} (hl : l.node.kind.isAtomic = false)
    (h : l.text.getLast? ≠ some (byte '(')) : l.opens = false := by
  simp [opens, hl, h]

def openedNodes (lines : List Line) : List Schema :=
  (lines.filter Line.opens).map Line.node

@[simp]
theorem openedNodes_append (first second : List Line) :
    openedNodes (first ++ second) = openedNodes first ++ openedNodes second := by
  simp [openedNodes]

theorem getLast?_closing
    {trail : Bytes} (htrail : Trails trail) (attributes : Bytes) :
    (attributes ++ ")" ++ trail).getLast? ≠ some (byte '(') := by
  obtain ⟨last, hlast, hne⟩ : ∃ last,
      ((")" : Bytes) ++ trail).getLast? = some last ∧ last ≠ byte '(' := by
    rcases htrail with rfl | rfl
    · exact ⟨byte ')', rfl, by decide⟩
    · exact ⟨byte ',', rfl, by decide⟩
  rw [List.append_assoc, List.getLast?_append, hlast, Option.some_or]
  simpa using hne

/-- Of the two lines around what is inside a node the first one opens it. -/
theorem openedNodes_enclosed
    {s : Schema} (hs : s.kind.isAtomic = false) {opening closing : Bytes}
    (hopening : opening.getLast? = some (byte '('))
    (hclosing : closing.getLast? ≠ some (byte '('))
    (depth depth' : Nat) (lead : Bytes) (inside : List Line) :
    openedNodes (⟨depth, lead ++ opening, s⟩ ::
        (inside ++ [⟨depth', closing, s⟩])) =
      s :: openedNodes inside := by
  have hfirst : (Line.mk depth (lead ++ opening) s).opens = true :=
    Line.opens_of_getLast? (by simp [List.getLast?_append, hopening])
  have hlast : (Line.mk depth' closing s).opens = false :=
    Line.not_opens_of_getLast? hs hclosing
  simp [openedNodes, hfirst, hlast]

namespace Schema

theorem children_of_isAtomic
    {s : Schema} (hs : s.kind.isAtomic = true) : s.children = [] := by
  cases s with
  | tensor items dimensions => cases hs
  | collection items ordered maxLength => cases hs
  | mapping keys values => cases hs
  | record fields => cases hs
  | union possibilities => cases hs
  | _ => rfl

theorem getLast?_opening (s : Schema) :
    (s.kind.name ++ "(" : Bytes).getLast? = some (byte '(') := by
  rw [List.getLast?_append]
  rfl

def Outlines (s : Schema) : Prop :=
  ∀ (possibility : Bool) (depth : Nat) (lead trail : Bytes), Trails trail →
    openedNodes (s.linesAt depth lead trail) =
      (s.occurrencesAt possibility).map Occurrence.node

theorem openedNodes_members
    {s : Schema} (h : ∀ c ∈ s.children, c.Outlines) (possibility : Bool)
    (depth : Nat) :
    openedNodes (s.members.flatMap (Member.lines depth)) =
      (s.children.flatMap (occurrencesAt possibility)).map Occurrence.node := by
  have hmember : ∀ m ∈ s.members, openedNodes (m.lines depth) =
      (m.schema.occurrencesAt possibility).map Occurrence.node := by
    intro m hm
    exact h m.schema (schema_mem_children hm) possibility depth m.lead m.trail
      (trails_members hm)
  rw [← schema_members, List.flatMap_map, List.map_flatMap,
    ← List.flatMap_congr hmember]
  simp [openedNodes, List.filter_flatMap, List.map_flatMap]

theorem outlines_all (s : Schema) : s.Outlines := by
  induction s using childrenInduction with
  | step s ih =>
      intro possibility depth lead trail htrail
      rw [occurrencesAt_eq, List.map_cons]
      cases hs : s.kind.isAtomic with
      | true =>
          rw [linesAt_atomic hs, children_of_isAtomic hs]
          simp [openedNodes, Line.opens, hs]
      | false =>
          rw [linesAt_composite hs, openedNodes_enclosed hs s.getLast?_opening
            (getLast?_closing htrail _), openedNodes_members ih]

/-- The lines of an outline that open nodes show all nodes in order. -/
theorem openedNodes_outline (s : Schema) :
    openedNodes s.outline = s.occurrences.map Occurrence.node :=
  outlines_all s false 0 [] [] trails_nil

end Schema

end Schemata
