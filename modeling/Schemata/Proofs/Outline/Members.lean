import Schemata.Outline
import Schemata.Proofs.Schema.Parts

/-!
# The members of an outline

A schema that is not atomic stands on one line that opens it, on the lines of
its members and on one line that closes it.  The kinds differ only in what the
members are and in what follows them, so whatever is to be known of an outline
is shown for atomic schemas and once for all others.
-/

namespace Schemata

/-- What may follow the last line of a schema. -/
def Trails (trail : Bytes) : Prop := trail = [] ∨ trail = ","

theorem trails_nil : Trails [] := .inl rfl

theorem trails_comma : Trails "," := .inr rfl

namespace Schema

/-- A schema inside another one, with what stands before its first line and
after its last one. -/
structure Member where
  lead : Bytes
  schema : Schema
  trail : Bytes

def Member.lines (depth : Nat) (m : Member) : List Line :=
  m.schema.linesAt depth m.lead m.trail

/-- Members in a row, with a comma after all but the last. -/
def separated : List (Bytes × Schema) → List Member
  | [] => []
  | [(lead, s)] => [⟨lead, s, []⟩]
  | (lead, s) :: next :: rest => ⟨lead, s, ","⟩ :: separated (next :: rest)

def members : Schema → List Member
  | .tensor items _ => [⟨[], items, ","⟩]
  | .collection items _ _ => [⟨[], items, ","⟩]
  | .mapping keys values => [⟨"keys=", keys, ","⟩, ⟨"values=", values, []⟩]
  | .record fields => separated (fields.map fun f => (f.1 ++ "=", f.2))
  | .union possibilities => separated (possibilities.map fun p => ([], p))
  | _ => []

/-- What follows the members. -/
def attributes : Schema → Bytes
  | .tensor _ dimensions => dimensionsText dimensions
  | .collection _ ordered maxLength => collectionText ordered maxLength
  | _ => []

theorem schema_separated (entries : List (Bytes × Schema)) :
    (separated entries).map Member.schema = entries.map Prod.snd := by
  fun_induction separated entries with
  | case1 => rfl
  | case2 lead s => rfl
  | case3 lead s next rest ih => simp [ih]

/-- The members are the children, in order. -/
theorem schema_members (s : Schema) :
    s.members.map Member.schema = s.children := by
  cases s <;> simp [members, children, schema_separated, Function.comp_def]

theorem schema_mem_children
    {s : Schema} {m : Member} (hm : m ∈ s.members) :
    m.schema ∈ s.children := by
  rw [← schema_members]
  exact List.mem_map_of_mem hm

theorem trails_separated
    {entries : List (Bytes × Schema)} {m : Member}
    (hm : m ∈ separated entries) : Trails m.trail := by
  fun_induction separated entries with
  | case1 => cases hm
  | case2 lead s =>
      rw [List.mem_singleton.mp hm]
      exact trails_nil
  | case3 lead s next rest ih =>
      rcases List.mem_cons.mp hm with rfl | hm
      · exact trails_comma
      · exact ih hm

theorem trails_members
    {s : Schema} {m : Member} (hm : m ∈ s.members) : Trails m.trail := by
  cases s with
  | record fields => exact trails_separated hm
  | union possibilities => exact trails_separated hm
  | tensor items dimensions =>
      rw [List.mem_singleton.mp hm]
      exact trails_comma
  | collection items ordered maxLength =>
      rw [List.mem_singleton.mp hm]
      exact trails_comma
  | mapping keys values =>
      rcases List.mem_pair.mp hm with rfl | rfl
      · exact trails_comma
      · exact trails_nil
  | _ => cases hm

theorem allLines_eq (depth : Nat) (ps : List Schema) :
    allLines depth ps =
      (separated (ps.map fun p => ([], p))).flatMap (Member.lines depth) := by
  induction ps with
  | nil => simp [allLines, separated]
  | cons p ps ih =>
      cases ps with
      | nil => simp [allLines, separated, Member.lines]
      | cons q rest =>
          rewrite [allLines, ih]
          rfl

theorem fieldLines_eq (depth : Nat) (fields : List (Bytes × Schema)) :
    fieldLines depth fields =
      (separated (fields.map fun f => (f.1 ++ "=", f.2))).flatMap
        (Member.lines depth) := by
  induction fields with
  | nil => simp [fieldLines, separated]
  | cons f fields ih =>
      cases fields with
      | nil => simp [fieldLines, separated, Member.lines]
      | cons next rest =>
          rewrite [fieldLines, ih]
          rfl

theorem linesAt_atomic
    {s : Schema} (hs : s.kind.isAtomic = true) (depth : Nat)
    (lead trail : Bytes) :
    s.linesAt depth lead trail = [⟨depth, lead ++ s.text ++ trail, s⟩] := by
  cases s with
  | tensor items dimensions => cases hs
  | collection items ordered maxLength => cases hs
  | mapping keys values => cases hs
  | record fields => cases hs
  | union possibilities => cases hs
  | _ => rfl

/-- The lines of a schema with members: one that opens it, those of its members,
and one that closes it. -/
theorem linesAt_composite
    {s : Schema} (hs : s.kind.isAtomic = false) (depth : Nat)
    (lead trail : Bytes) :
    s.linesAt depth lead trail =
      ⟨depth, lead ++ (s.kind.name ++ "("), s⟩ ::
        (s.members.flatMap (Member.lines (depth + 1)) ++
          [⟨depth + 1, s.attributes ++ ")" ++ trail, s⟩]) := by
  cases s with
  | tensor items dimensions =>
      rewrite [linesAt, members, List.flatMap_singleton]
      rfl
  | collection items ordered maxLength =>
      rewrite [linesAt, members, List.flatMap_singleton]
      rfl
  | mapping keys values =>
      rewrite [linesAt, members, List.flatMap_cons, List.flatMap_singleton]
      rfl
  | record fields =>
      rewrite [linesAt, fieldLines_eq]
      rfl
  | union possibilities =>
      rewrite [linesAt, allLines_eq]
      rfl
  | _ => cases hs

end Schema

end Schemata
