import Schemata.Document.OfSchema
import Schemata.Proofs.Document.Readable

/-!
# Schemas are read back from their documents

The document of a schema has the attributes of every node, from which the
constructors build the node again: a length bound that is left out is no bound,
fields stand in order already, and possibilities are kept as they are.  Only
the path of a reference is read from a text, which succeeds if its positions
are in range.  So a schema is read back unless one of its references has a
position that is not, and then reading fails at such a reference.
-/

namespace Schemata.Document

open Schema

/-- Reading gives `a` if `ok` holds and fails to build a reference if not. -/
structure Reads {α : Type} (r : DecodeT Id α) (ok : Prop) (a : α) : Prop where
  gives : ok → r = pure a
  fails : ¬ ok → ∃ e, r = throw (.construction e) ∧ e.kind = .reference

section Reads

variable {α β : Type} {r : DecodeT Id α} {ok ok' : Prop} {a : α}

theorem reads_of_eq (h : r = pure a) (hok : ok) : Reads r ok a :=
  ⟨fun _ => h, fun hnot => absurd hok hnot⟩

theorem Reads.congr (h : Reads r ok a) (hiff : ok ↔ ok') : Reads r ok' a := by
  rwa [← hiff]

theorem Reads.bind
    {f : α → DecodeT Id β} {b : β} (hr : Reads r ok a)
    (hf : Reads (f a) ok' b) : Reads (r >>= f) (ok ∧ ok') b := by
  constructor
  · rintro ⟨hok, hok'⟩
    rw [hr.gives hok, pure_bind, hf.gives hok']
  · intro hnot
    by_cases hok : ok
    · obtain ⟨e, he, hkind⟩ := hf.fails fun hok' => hnot ⟨hok, hok'⟩
      refine ⟨e, ?_, hkind⟩
      rw [hr.gives hok, pure_bind, he]
    · obtain ⟨e, he, hkind⟩ := hr.fails hok
      refine ⟨e, ?_, hkind⟩
      rw [he]
      rfl

theorem Reads.map
    {f : α → DecodeT Id β} {b : β} (hr : Reads r ok a) (hf : f a = pure b) :
    Reads (r >>= f) ok b := by
  have hlast : Reads (f a) True b := reads_of_eq hf trivial
  exact (hr.bind hlast).congr (and_iff_left trivial)

end Reads

/-! ## Attributes -/

theorem constructed_of_eq
    {result : Except ConstructionError Schema} {s : Schema}
    (h : result = .ok s) : (constructed result : DecodeT Id Schema) = pure s := by
  rw [h]
  rfl

theorem Members.maxLength_of_integer?
    {ms : Members Id} {bound : Option Nat} (kind : Kind)
    (h : ms.integer? "maxlength" = pure (bound.map Int.ofNat)) :
    ms.maxLength kind = pure (Layer.lengthBound bound) := by
  rw [Members.maxLength, h, pure_bind]
  cases bound with
  | none => rfl
  | some n =>
      have hn : ¬ Int.ofNat n < 0 := Int.not_lt.mpr (Int.natCast_nonneg n)
      simp only [Option.map_some]
      rw [if_neg hn]
      rfl

theorem Members.integersFrom_map
    (ms : Members Id) (name : Bytes) (position : Nat) (dims : List Nat) :
    ms.integersFrom name position
        (dims.map fun d : Nat => .integer .int d) =
      pure (dims.map Int.ofNat) := by
  induction dims generalizing position with
  | nil => rfl
  | cons d dims ih =>
      have hd : (Document.integer .int d).integer? = some (Int.ofNat d) := rfl
      simp only [List.map_cons, Members.integersFrom, hd, ih, pure_bind]

theorem exists_toDocument_eq_object (s : Schema) :
    ∃ members, s.toDocument = .object members := by
  cases s <;> exact ⟨_, rfl⟩

/-! ## Fields and possibilities -/

theorem map_fst_memberReaders (members : List (Bytes × Document)) :
    (memberReaders members : List (Bytes × Member Id)).map Prod.fst =
      members.map Prod.fst := by
  induction members with
  | nil => rfl
  | cons member rest ih => rw [memberReaders, List.map_cons, ih, List.map_cons]

theorem map_fst_fieldDocuments (fields : List (Bytes × Schema)) :
    (fieldDocuments fields).map Prod.fst = fields.map Prod.fst := by
  induction fields with
  | nil => rfl
  | cons f rest ih => rw [fieldDocuments, List.map_cons, ih, List.map_cons]

theorem sortEntries_fieldDocuments
    {fields : List (Bytes × Schema)}
    (h : fields.Pairwise fun f g => compare f.1 g.1 = .lt) :
    sortEntries (memberReaders (fieldDocuments fields)) =
      (memberReaders (fieldDocuments fields) : List (Bytes × Member Id)) := by
  have hnames : (fields.map Prod.fst).Pairwise fun a b => compare a b = .lt :=
    List.pairwise_map.mpr h
  rw [← map_fst_fieldDocuments, ← map_fst_memberReaders,
    List.pairwise_map] at hnames
  exact sortEntries_of_increasing hnames

theorem reads_fields
    {fields : List (Bytes × Schema)}
    (h : ∀ f ∈ fields, ∀ place,
      Reads (schemaAt f.2.toDocument place) f.2.PathsInRange f.2)
    (place : Bytes) :
    Reads (readFields place (memberReaders (fieldDocuments fields)))
      (∀ f ∈ fields, f.2.PathsInRange)
      (fields.map fun f => (f.1, some f.2)) := by
  induction fields with
  | nil => exact reads_of_eq rfl (List.forall_mem_nil _)
  | cons f rest ih =>
      obtain ⟨name, f⟩ := f
      obtain ⟨hf, hrest⟩ := List.forall_mem_cons.mp h
      rw [fieldDocuments, memberReaders, readFields]
      refine Reads.congr ?_ List.forall_mem_cons.symm
      refine (hf _).bind ?_
      exact (ih hrest).map rfl

theorem reads_items
    {ps : List Schema}
    (h : ∀ p ∈ ps, ∀ place,
      Reads (schemaAt p.toDocument place) p.PathsInRange p)
    (position : Nat) (place : Bytes) :
    Reads (itemsAt position (allDocuments ps) place)
      (∀ p ∈ ps, p.PathsInRange) (ps.map some) := by
  induction ps generalizing position with
  | nil => exact reads_of_eq rfl (List.forall_mem_nil _)
  | cons p rest ih =>
      obtain ⟨hp, hrest⟩ := List.forall_mem_cons.mp h
      rw [allDocuments, itemsAt]
      refine Reads.congr ?_ List.forall_mem_cons.symm
      refine (hp _).bind ?_
      exact (ih hrest (position + 1)).map rfl

/-! ## Nodes -/

-- The attributes of a node are found among the members of its document by
-- evaluation, since all names are fixed.
section Nodes

variable (place : Bytes)

theorem schemaAt_number (whole signed : Bool) (nbytes : Nat) :
    (schemaAt (Schema.number whole signed nbytes).toDocument place :
        DecodeT Id Schema) =
      constructed (Build.number whole signed nbytes) :=
  rfl

theorem schemaAt_string (charset : Bytes) (bound : Option Nat) :
    (schemaAt (Schema.string charset bound).toDocument place :
        DecodeT Id Schema) =
      constructed (Build.string charset (Layer.lengthBound bound)) := by
  let ms : Members Id := ⟨place, memberReaders
    (("charset", .text charset) :: ("kind", .text "string") ::
      maxLengthMember bound)⟩
  have hlength : ms.maxLength .string = pure (Layer.lengthBound bound) :=
    Members.maxLength_of_integer? .string (by cases bound <;> rfl)
  change (ms.maxLength .string >>= fun length =>
    constructed (Build.string charset length)) = _
  rw [hlength, pure_bind]

theorem schemaAt_tensor (items : Schema) (dims : List Nat) :
    (schemaAt (Schema.tensor items dims).toDocument place :
        DecodeT Id Schema) = (do
      let items ← schemaAt items.toDocument (place ++ "." ++ "items")
      constructed (Build.tensor (some items) (dims.map Int.ofNat))) := by
  obtain ⟨members, hitems⟩ := exists_toDocument_eq_object items
  rw [toDocument, hitems]
  let ms : Members Id := ⟨place, memberReaders
    [("dimensions", .list (dims.map fun d : Nat => .integer .int d)),
      ("items", .object members), ("kind", .text "tensor")]⟩
  have hdims : ms.integers "dimensions" = pure (dims.map Int.ofNat) :=
    ms.integersFrom_map "dimensions" 0 dims
  change (ms.schema "items" >>= fun items =>
    ms.integers "dimensions" >>= fun dims =>
      constructed (Build.tensor (some items) dims)) = _
  simp only [hdims, pure_bind]
  rfl

theorem schemaAt_collection
    (items : Schema) (ordered : Bool) (bound : Option Nat) :
    (schemaAt (Schema.collection items ordered bound).toDocument place :
        DecodeT Id Schema) = (do
      let items ← schemaAt items.toDocument (place ++ "." ++ "items")
      constructed (Build.collection (some items) ordered
        (Layer.lengthBound bound))) := by
  obtain ⟨members, hitems⟩ := exists_toDocument_eq_object items
  rw [toDocument, hitems]
  let ms : Members Id := ⟨place, memberReaders
    (("items", .object members) :: ("kind", .text "collection") ::
      (maxLengthMember bound ++
        [((("ordered" : Bytes), .boolean ordered) : Bytes × Document)]))⟩
  have hordered : ms.boolean "ordered" = pure ordered := by
    cases bound <;> rfl
  have hlength : ms.maxLength .collection = pure (Layer.lengthBound bound) :=
    Members.maxLength_of_integer? .collection (by cases bound <;> rfl)
  change (ms.schema "items" >>= fun items =>
    ms.boolean "ordered" >>= fun ordered =>
      ms.maxLength .collection >>= fun length =>
        constructed (Build.collection (some items) ordered length)) = _
  simp only [hordered, hlength, pure_bind]
  rfl

theorem schemaAt_mapping (keys values : Schema) :
    (schemaAt (Schema.mapping keys values).toDocument place :
        DecodeT Id Schema) = (do
      let keys ← schemaAt keys.toDocument (place ++ "." ++ "keys")
      let values ← schemaAt values.toDocument (place ++ "." ++ "values")
      constructed (Build.mapping (some keys) (some values))) := by
  obtain ⟨members, hkeys⟩ := exists_toDocument_eq_object keys
  obtain ⟨members', hvalues⟩ := exists_toDocument_eq_object values
  rw [toDocument, hkeys, hvalues]
  rfl

theorem schemaAt_record (fields : List (Bytes × Schema)) :
    (schemaAt (Schema.record fields).toDocument place : DecodeT Id Schema) = (do
      let entries ← readFields (place ++ "." ++ "fields")
        (sortEntries (memberReaders (fieldDocuments fields)))
      constructed (Build.record entries)) :=
  rfl

theorem schemaAt_union (ps : List Schema) :
    (schemaAt (Schema.union ps).toDocument place : DecodeT Id Schema) = (do
      let given ← itemsAt 0 (allDocuments ps) (place ++ "." ++ "possibilities")
      constructed (Build.union given)) :=
  rfl

theorem schemaAt_reference (path : Path) :
    (schemaAt (Schema.reference path).toDocument place : DecodeT Id Schema) =
      constructed (Build.reference path.text) :=
  rfl

end Nodes

theorem reads_reference (path : Path) :
    Reads (constructed (Build.reference path.text)) path.InRange
      (.reference path) := by
  constructor
  · intro hrange
    rw [Build.reference, Path.parse_text_of_inRange hrange]
    rfl
  · intro hrange
    obtain ⟨cause, hparse⟩ := Path.parse_text_fails hrange
    refine ⟨.invalidPath cause, ?_, rfl⟩
    rw [Build.reference, hparse]
    rfl

theorem reads_record
    {fields : List (Bytes × Schema)} (hnode : (record fields).NodeWellFormed)
    (h : ∀ f ∈ fields, ∀ place,
      Reads (schemaAt f.2.toDocument place) f.2.PathsInRange f.2)
    (place : Bytes) :
    Reads (schemaAt (record fields).toDocument place)
      (∀ c ∈ (record fields).children, c.PathsInRange) (record fields) := by
  obtain ⟨hnames, hincreasing⟩ := hnode
  have hentries :
      (fields.map fun f => (f.1, some f.2)).Pairwise
        fun e e' => compare e.1 e'.1 = .lt :=
    List.pairwise_map.mpr hincreasing
  rw [schemaAt_record, sortEntries_fieldDocuments hincreasing]
  refine Reads.congr ?_ List.forall_mem_map.symm
  refine (reads_fields h _).map (constructed_of_eq ?_)
  exact Build.record_eq_ok_iff.mpr
    ⟨fields, sortEntries_of_increasing hentries, hnames, rfl⟩

/-- The document of a well-formed schema is read as the schema itself, if its
paths are in range, and not at all because of a reference, if they are not. -/
theorem reads_toDocument {s : Schema} (hs : s.WellFormed) (place : Bytes) :
    Reads (schemaAt s.toDocument place) s.PathsInRange s := by
  induction hs generalizing place with
  | @node s hnode _ ih =>
      by_cases hkind : s.kind = .reference
      · cases s with
        | reference path =>
            rw [schemaAt_reference, pathsInRange_reference]
            exact reads_reference path
        | _ => cases hkind
      · rw [pathsInRange_iff_children hkind]
        cases s with
        | number whole signed nbytes =>
            rw [schemaAt_number]
            refine reads_of_eq (constructed_of_eq ?_) (List.forall_mem_nil _)
            exact Build.number_eq_ok_iff.mpr ⟨nbytes, hnode, rfl, rfl⟩
        | string charset bound =>
            rw [schemaAt_string]
            refine reads_of_eq (constructed_of_eq ?_) (List.forall_mem_nil _)
            exact Build.string_eq_ok_iff.mpr ⟨hnode, bound, rfl, rfl⟩
        | tensor items dims =>
            have hitems := ih items List.mem_cons_self
            rw [schemaAt_tensor]
            refine Reads.congr ?_ List.forall_mem_singleton.symm
            refine (hitems _).map (constructed_of_eq ?_)
            exact Build.tensor_eq_ok_iff.mpr
              ⟨dims, hnode.1, hnode.2, rfl, rfl⟩
        | collection items ordered bound =>
            have hitems := ih items List.mem_cons_self
            rw [schemaAt_collection]
            refine Reads.congr ?_ List.forall_mem_singleton.symm
            refine (hitems _).map (constructed_of_eq ?_)
            exact Build.collection_eq_ok_iff.mpr ⟨bound, rfl, rfl⟩
        | mapping keys values =>
            have hkeys := ih keys (by simp [children])
            have hvalues := ih values (by simp [children])
            have hchildren :
                keys.PathsInRange ∧ values.PathsInRange ↔
                  ∀ c ∈ (mapping keys values).children, c.PathsInRange := by
              simp [children]
            rw [schemaAt_mapping]
            refine Reads.congr ?_ hchildren
            refine (hkeys _).bind ?_
            exact (hvalues _).map rfl
        | record fields =>
            refine reads_record hnode ?_ place
            intro f hf
            exact ih f.2 (List.mem_map_of_mem hf)
        | union ps =>
            rw [schemaAt_union]
            refine (reads_items ih 0 _).map (constructed_of_eq ?_)
            exact Build.union_eq_ok_iff.mpr
              ⟨ps, rfl, by rw [Union.NormalForm.possibilities_eq hnode]⟩
        | reference path => exact absurd rfl hkind
        | _ => exact reads_of_eq rfl (List.forall_mem_nil _)

theorem toSchema_toDocument_of_readable
    {s : Schema} (hs : s.Readable) : s.toDocument.toSchema = .ok s :=
  (reads_toDocument hs.built.wellFormed _).gives hs.pathsInRange

/-- A schema that can be built is read back from its document if all positions
in its paths have at most 31 bits; if not, reading fails to build a reference.
A schema that was read from any document is read back from its own. -/
theorem toSchema_toDocument (s : Schema) :
    (s.Built →
      (s.PathsInRange →
        ∃ t, s.toDocument.toSchema = .ok t ∧ t.same s = true) ∧
      (¬ s.PathsInRange →
        ∃ e, s.toDocument.toSchema = .error (.construction e) ∧
          e.kind = .reference)) ∧
      ∀ d : Document, d.toSchema = .ok s →
        ∃ t, s.toDocument.toSchema = .ok t ∧ t.same s = true := by
  have hself : s.same s = true := (same_iff s s).mpr rfl
  refine ⟨?_, ?_⟩
  · intro hbuilt
    refine ⟨?_, ?_⟩
    · intro hpaths
      exact ⟨s, toSchema_toDocument_of_readable ⟨hbuilt, hpaths⟩, hself⟩
    · exact (reads_toDocument hbuilt.wellFormed _).fails
  · intro d hd
    have hs := readable_of_toSchema hd
    exact ⟨s, toSchema_toDocument_of_readable hs, hself⟩

end Schemata.Document
