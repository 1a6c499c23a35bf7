import Schemata.Document.ToSchema
import Schemata.Proofs.Path.RoundTrip
import Schemata.Proofs.Schema.Built

/-!
# What documents describe

Reading a document ends with a constructor at every node, and a path comes from
a text.  So whatever is read is a schema that can be built, and no path inside
it has a position that a text could not give.  Nothing is assumed of the
document: members may be of any type, repeated, or not be looked at.
-/

namespace Schemata

namespace Schema

/-- All positions of all paths inside have at most 31 bits. -/
def PathsInRange (s : Schema) : Prop :=
  ∀ path, .reference path ∈ s.parts → path.InRange

theorem reference_mem_parts_iff {s : Schema} {path : Path} :
    .reference path ∈ s.parts ↔
      s = .reference path ∨ ∃ c ∈ s.children, .reference path ∈ c.parts := by
  rw [parts_eq, List.mem_append, List.mem_flatMap]
  refine or_congr_left ?_
  cases s <;> simp [cuts, eq_comm]

@[simp]
theorem pathsInRange_reference {path : Path} :
    (Schema.reference path).PathsInRange ↔ path.InRange := by
  simp [PathsInRange, parts]

/-- Apart from references, the paths inside are those of the children. -/
theorem pathsInRange_iff_children
    {s : Schema} (hs : s.kind ≠ .reference) :
    s.PathsInRange ↔ ∀ c ∈ s.children, c.PathsInRange := by
  have hne : ∀ path, s ≠ .reference path := by
    rintro path rfl
    exact hs rfl
  constructor
  · intro h c hc path hpath
    exact h path (reference_mem_parts_iff.mpr (.inr ⟨c, hc, hpath⟩))
  · intro h path hpath
    rcases reference_mem_parts_iff.mp hpath with hself | ⟨c, hc, hpath⟩
    · exact absurd hself (hne path)
    · exact h c hc path hpath

/-- The schemas that can be built with paths that can be read. -/
structure Readable (s : Schema) : Prop where
  built : s.Built
  pathsInRange : s.PathsInRange

def FieldsReadable (entries : List (Bytes × Option Schema)) : Prop :=
  ∀ e ∈ entries, ∀ f ∈ e.2, f.Readable

def PossibilitiesReadable (given : List (Option Schema)) : Prop :=
  ∀ p ∈ given, ∀ q ∈ p, q.Readable

theorem Readable.of_children
    {s : Schema} (hbuilt : s.Built) (hkind : s.kind ≠ .reference)
    (hchildren : ∀ c ∈ s.children, c.PathsInRange) : s.Readable :=
  ⟨hbuilt, (pathsInRange_iff_children hkind).mpr hchildren⟩

theorem Readable.of_childless
    {s : Schema} (hbuilt : s.Built) (hkind : s.kind ≠ .reference)
    (hchildren : s.children = []) : s.Readable := by
  refine .of_children hbuilt hkind ?_
  rw [hchildren]
  intro c hc
  cases hc

theorem readable_number
    {whole signed : Bool} {nbytes : Int} {s : Schema}
    (h : Build.number whole signed nbytes = .ok s) : s.Readable := by
  obtain ⟨n, _, _, rfl⟩ := Build.number_eq_ok_iff.mp h
  exact .of_childless (.number h) (by simp [kind]) rfl

theorem readable_string
    {charset : Bytes} {length : Int} {s : Schema}
    (h : Build.string charset length = .ok s) : s.Readable := by
  obtain ⟨_, _, _, rfl⟩ := Build.string_eq_ok_iff.mp h
  exact .of_childless (.string h) (by simp [kind]) rfl

theorem readable_tensor
    {items s : Schema} {extents : List Int} (hitems : items.Readable)
    (h : Build.tensor (some items) extents = .ok s) : s.Readable := by
  obtain ⟨_, _, _, _, rfl⟩ := Build.tensor_eq_ok_iff.mp h
  refine .of_children (.tensor hitems.built h) (by simp [kind]) ?_
  simpa [children] using hitems.pathsInRange

theorem readable_collection
    {items s : Schema} {ordered : Bool} {length : Int}
    (hitems : items.Readable)
    (h : Build.collection (some items) ordered length = .ok s) :
    s.Readable := by
  obtain ⟨_, _, rfl⟩ := Build.collection_eq_ok_iff.mp h
  refine .of_children (.collection hitems.built h) (by simp [kind]) ?_
  simpa [children] using hitems.pathsInRange

theorem readable_mapping
    {keys values s : Schema} (hkeys : keys.Readable) (hvalues : values.Readable)
    (h : Build.mapping (some keys) (some values) = .ok s) : s.Readable := by
  cases h
  refine .of_children (.mapping hkeys.built hvalues.built rfl)
    (by simp [kind]) ?_
  simp [children, hkeys.pathsInRange, hvalues.pathsInRange]

theorem readable_record
    {entries : List (Bytes × Option Schema)} {s : Schema}
    (hentries : FieldsReadable entries)
    (h : Build.record entries = .ok s) : s.Readable := by
  obtain ⟨fs, hsorted, _, rfl⟩ := Build.record_eq_ok_iff.mp h
  have hbuilt : (Schema.record fs).Built :=
    .record (fun e he f hf => (hentries e he f hf).built) h
  refine .of_children hbuilt (by simp [kind]) ?_
  intro c hc
  obtain ⟨f, hf, rfl⟩ := List.mem_map.mp hc
  have hmem := Build.mem_entries_of_mem_fields hsorted hf
  exact (hentries _ hmem f.2 rfl).pathsInRange

theorem readable_union
    {given : List (Option Schema)} {s : Schema}
    (hgiven : PossibilitiesReadable given)
    (h : Build.union given = .ok s) : s.Readable := by
  obtain ⟨ps, rfl, rfl⟩ := Build.union_eq_ok_iff.mp h
  have hps : ∀ p ∈ ps, p.Readable := by
    intro p hp
    exact hgiven (some p) (List.mem_map_of_mem hp) p rfl
  refine .of_children (.union (fun p hp => (hps p hp).built) h)
    (by simp [kind]) ?_
  -- A possibility is a part of one of the schemas given.
  intro r hr path hpath
  obtain ⟨p, hp, hoffers⟩ := Union.offered_of_mem_possibilities hr
  exact (hps p hp).pathsInRange path
    (parts_subset_of_mem_parts hoffers.mem_parts hpath)

theorem readable_reference
    {text : Bytes} {s : Schema} (h : Build.reference text = .ok s) :
    s.Readable := by
  obtain ⟨path, hparse, rfl⟩ := Build.reference_eq_ok_iff.mp h
  exact ⟨.reference path,
    pathsInRange_reference.mpr (Path.inRange_of_parse hparse)⟩

end Schema

namespace Document

/-! ## Results of reading -/

/-- What is read, if anything is, has a property. -/
def Ensures {α : Type} (r : DecodeT Id α) (post : α → Prop) : Prop :=
  ∀ a, r = pure a → post a

section Ensures

variable {α β : Type} {post : α → Prop} {post' : β → Prop}

theorem ensures_pure {a : α} (h : post a) :
    Ensures (pure a : DecodeT Id α) post := by
  intro b hb
  cases hb
  exact h

theorem ensures_throw {e : DecodeError} :
    Ensures (throw e : DecodeT Id α) post := by
  intro b hb
  cases hb

theorem Ensures.bind
    {r : DecodeT Id α} {f : α → DecodeT Id β} (hr : Ensures r post)
    (hf : ∀ a, post a → Ensures (f a) post') : Ensures (r >>= f) post' := by
  intro b hb
  cases r with
  | error e => cases hb
  | ok a => exact hf a (hr a rfl) b hb

theorem ensures_bind
    {r : DecodeT Id α} {f : α → DecodeT Id β}
    (hf : ∀ a, Ensures (f a) post') : Ensures (r >>= f) post' := by
  have hr : Ensures r fun _ => True := fun _ _ => trivial
  exact hr.bind fun a _ => hf a

theorem ensures_constructed
    {result : Except ConstructionError Schema} {post : Schema → Prop}
    (h : ∀ s, result = .ok s → post s) :
    Ensures (constructed result : DecodeT Id Schema) post := by
  cases result with
  | error e => exact ensures_throw
  | ok s => exact ensures_pure (h s rfl)

end Ensures

/-- All readings of a member give schemas that can be built. -/
structure Member.Sound (x : Member Id) : Prop where
  schema : ∀ place, Ensures (x.schema place) Schema.Readable
  fields : ∀ place, Ensures (x.fields place) Schema.FieldsReadable
  possibilities :
    ∀ place, Ensures (x.possibilities place) Schema.PossibilitiesReadable

namespace Members

variable {ms : Members Id} (hms : ∀ x ∈ ms.members, x.2.Sound)

include hms

theorem sound_of_get?
    {name : Bytes} {x : Member Id} (h : ms.get? name = some x) : x.Sound := by
  obtain ⟨hlookup, _⟩ := Option.filter_eq_some_iff.mp h
  obtain ⟨l, l', hmembers, _⟩ := List.lookup_eq_some_iff.mp hlookup
  have hmem : (name, x) ∈ ms.members := by
    rw [hmembers]
    simp
  exact hms _ hmem

theorem ensures_schema (name : Bytes) :
    Ensures (ms.schema name) Schema.Readable := by
  unfold schema
  split
  · exact ensures_throw
  · rename_i x hx
    exact (sound_of_get? hms hx).schema _

theorem ensures_fields (name : Bytes) :
    Ensures (ms.fields name) Schema.FieldsReadable := by
  unfold fields
  split
  · exact ensures_pure (List.forall_mem_nil _)
  · rename_i x hx
    exact (sound_of_get? hms hx).fields _

theorem ensures_possibilities (name : Bytes) :
    Ensures (ms.possibilities name) Schema.PossibilitiesReadable := by
  unfold possibilities
  split
  · exact ensures_pure (List.forall_mem_nil _)
  · rename_i x hx
    exact (sound_of_get? hms hx).possibilities _

end Members

theorem ensures_readNode
    {ms : Members Id} (hms : ∀ x ∈ ms.members, x.2.Sound) :
    Ensures (readNode ms) Schema.Readable := by
  unfold readNode
  apply ensures_bind
  intro name
  cases hkind : Kind.parse? name with
  | none => exact ensures_throw
  | some kind =>
      cases kind with
      | anything => exact ensures_pure (.of_childless .anything (by decide) rfl)
      | nothing => exact ensures_pure (.of_childless .nothing (by decide) rfl)
      | null => exact ensures_pure (.of_childless .null (by decide) rfl)
      | boolean => exact ensures_pure (.of_childless .boolean (by decide) rfl)
      | number =>
          refine ensures_bind fun whole => ensures_bind fun signed =>
            ensures_bind fun nbytes => ensures_constructed ?_
          intro s hs
          exact Schema.readable_number hs
      | string =>
          refine ensures_bind fun charset => ensures_bind fun length =>
            ensures_constructed ?_
          intro s hs
          exact Schema.readable_string hs
      | tensor =>
          refine (Members.ensures_schema hms _).bind fun items hitems =>
            ensures_bind fun dimensions => ensures_constructed ?_
          intro s hs
          exact Schema.readable_tensor hitems hs
      | collection =>
          refine (Members.ensures_schema hms _).bind fun items hitems =>
            ensures_bind fun ordered => ensures_bind fun length =>
              ensures_constructed ?_
          intro s hs
          exact Schema.readable_collection hitems hs
      | mapping =>
          refine (Members.ensures_schema hms _).bind fun keys hkeys =>
            (Members.ensures_schema hms _).bind fun values hvalues =>
              ensures_constructed ?_
          intro s hs
          exact Schema.readable_mapping hkeys hvalues hs
      | record =>
          refine (Members.ensures_fields hms _).bind fun entries hentries =>
            ensures_constructed ?_
          intro s hs
          exact Schema.readable_record hentries hs
      | union =>
          refine (Members.ensures_possibilities hms _).bind
            fun given hgiven => ?_
          -- The reports that a union makes are lost here, and what is left is
          -- the union itself.
          change Ensures (constructed (Build.union given)) _
          refine ensures_constructed ?_
          intro s hs
          exact Schema.readable_union hgiven hs
      | reference =>
          refine ensures_bind fun text => ensures_constructed ?_
          intro s hs
          exact Schema.readable_reference hs

theorem ensures_readFields
    {place : Bytes} {members : List (Bytes × Member Id)}
    (h : ∀ x ∈ members, x.2.Sound) :
    Ensures (readFields place members) Schema.FieldsReadable := by
  induction members with
  | nil => exact ensures_pure (List.forall_mem_nil _)
  | cons x rest ih =>
      obtain ⟨hx, hrest⟩ := List.forall_mem_cons.mp h
      refine (hx.schema _).bind fun f hf =>
        (ih hrest).bind fun entries hentries => ?_
      exact ensures_pure (List.forall_mem_cons.mpr ⟨by simpa, hentries⟩)

theorem ensures_named
    {place : Bytes} {entries : List (Value × Member Id)}
    (h : ∀ x ∈ entries, x.2.Sound) :
    Ensures (named place entries) fun members => ∀ x ∈ members, x.2.Sound := by
  induction entries with
  | nil => exact ensures_pure (List.forall_mem_nil _)
  | cons x rest ih =>
      obtain ⟨key, x⟩ := x
      obtain ⟨hx, hrest⟩ := List.forall_mem_cons.mp h
      cases key with
      | text name =>
          refine (ih hrest).bind fun members hmembers => ?_
          exact ensures_pure (List.forall_mem_cons.mpr ⟨hx, hmembers⟩)
      | _ => exact ensures_throw

-- One theorem for each of the functions that read documents, by their own
-- recursion.
mutual

theorem ensures_schemaAt (d : Document) (place : Bytes) :
    Ensures (schemaAt d place) Schema.Readable := by
  cases d with
  | object members =>
      rw [schemaAt]
      exact ensures_readNode (sound_memberReaders members)
  | table entries =>
      rw [schemaAt]
      refine (ensures_named (sound_entryReaders entries)).bind ?_
      intro members hmembers
      exact ensures_readNode hmembers
  | _ => exact ensures_throw

theorem ensures_fieldsAt (d : Document) (place : Bytes) :
    Ensures (fieldsAt d place) Schema.FieldsReadable := by
  cases d with
  | object members =>
      rw [fieldsAt]
      refine ensures_readFields fun x hx => ?_
      exact sound_memberReaders members x (mem_of_mem_sortEntries hx)
  | table entries =>
      rw [fieldsAt]
      refine (ensures_named (sound_entryReaders entries)).bind ?_
      intro members hmembers
      exact ensures_readFields fun x hx =>
        hmembers x (mem_of_mem_sortEntries hx)
  | _ => exact ensures_throw

theorem ensures_possibilitiesAt (d : Document) (place : Bytes) :
    Ensures (possibilitiesAt d place) Schema.PossibilitiesReadable := by
  cases d with
  | list items =>
      rw [possibilitiesAt]
      exact ensures_itemsAt 0 items place
  | _ => exact ensures_throw

theorem ensures_itemsAt
    (position : Nat) (items : List Document) (place : Bytes) :
    Ensures (itemsAt position items place) Schema.PossibilitiesReadable := by
  cases items with
  | nil => exact ensures_pure (List.forall_mem_nil _)
  | cons d rest =>
      rw [itemsAt]
      refine (ensures_schemaAt d _).bind fun s hs =>
        (ensures_itemsAt (position + 1) rest place).bind fun given hgiven => ?_
      exact ensures_pure (List.forall_mem_cons.mpr ⟨by simpa, hgiven⟩)

theorem sound_memberReaders (members : List (Bytes × Document)) :
    ∀ x ∈ memberReaders members, x.2.Sound := by
  cases members with
  | nil => simp [memberReaders]
  | cons member rest =>
      obtain ⟨name, d⟩ := member
      rw [memberReaders]
      refine List.forall_mem_cons.mpr ⟨?_, sound_memberReaders rest⟩
      exact ⟨ensures_schemaAt d, ensures_fieldsAt d, ensures_possibilitiesAt d⟩

theorem sound_entryReaders (entries : List (Value × Document)) :
    ∀ x ∈ entryReaders entries, x.2.Sound := by
  cases entries with
  | nil => simp [entryReaders]
  | cons entry rest =>
      obtain ⟨key, d⟩ := entry
      rw [entryReaders]
      refine List.forall_mem_cons.mpr ⟨?_, sound_entryReaders rest⟩
      exact ⟨ensures_schemaAt d, ensures_fieldsAt d, ensures_possibilitiesAt d⟩

end

/-- What is read from a document can be built, with paths in range. -/
theorem readable_of_toSchema
    {d : Document} {s : Schema} (h : d.toSchema = .ok s) : s.Readable :=
  ensures_schemaAt d _ s h

end Document

end Schemata
