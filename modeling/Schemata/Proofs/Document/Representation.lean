import Schemata.Proofs.Document.Content
import Schemata.Proofs.Schema.Order
import Schemata.Proofs.Sorted

/-!
# The representation of documents

Two documents with the same content are read as the same schema, or neither of
them is read.  The reader of each attribute gives the same for documents that
are the same string, truth value, integer or list of integers, and by induction
for those that are read as schemas.  Errors need not be the same, as they show
what was found.
-/

namespace Schemata.Document

/-! ## Results of reading -/

/-- Two results are the same, or both are errors. -/
def Agree {α : Type} (r r' : DecodeT Id α) : Prop :=
  ∀ a, r = pure a ↔ r' = pure a

section Agree

variable {α β : Type} {r r' : DecodeT Id α}

theorem Agree.refl (r : DecodeT Id α) : Agree r r := fun _ => Iff.rfl

theorem agree_throw (e e' : DecodeError) :
    Agree (throw e : DecodeT Id α) (throw e') := by
  intro a
  constructor <;> (intro h; cases h)

theorem Agree.bind
    {f f' : α → DecodeT Id β} (hr : Agree r r')
    (hf : ∀ a, r = pure a → Agree (f a) (f' a)) :
    Agree (r >>= f) (r' >>= f') := by
  cases r with
  | ok a =>
      rw [(hr a).mp rfl]
      exact hf a rfl
  | error e =>
      cases r' with
      | ok a => cases (hr a).mpr rfl
      | error e' => exact agree_throw e e'

end Agree

/-! ## Members and their readers -/

def reader (d : Document) : Member Id :=
  ⟨d, schemaAt d, fieldsAt d, possibilitiesAt d⟩

theorem memberReaders_eq (ms : List (Bytes × Document)) :
    memberReaders ms = ms.map fun e => (e.1, reader e.2) := by
  induction ms with
  | nil => rfl
  | cons e rest ih => rw [memberReaders, ih, List.map_cons]; rfl

theorem named_entryReaders_text (place : Bytes) (ms : List (Bytes × Document)) :
    named place (entryReaders (ms.map fun e => (.text e.1, e.2))) =
      (pure (memberReaders ms) : DecodeT Id _) := by
  induction ms with
  | nil => rfl
  | cons e rest ih =>
      rw [List.map_cons, entryReaders, named, ih, pure_bind, memberReaders]

theorem named_entryReaders_key
    {entries : List (Value × Document)} {e : Value × Document}
    (he : e ∈ entries) (hkey : ∀ name, e.1 ≠ .text name) (place : Bytes) :
    ∃ err, named place (entryReaders entries) =
      (throw err : DecodeT Id (List (Bytes × Member Id))) := by
  induction entries with
  | nil => cases he
  | cons first rest ih =>
      obtain ⟨key, d⟩ := first
      by_cases htext : ∃ name, key = .text name
      · obtain ⟨name, rfl⟩ := htext
        rcases List.mem_cons.mp he with rfl | he
        · exact absurd rfl (hkey name)
        · obtain ⟨err, herr⟩ := ih he
          exact ⟨err, by rw [entryReaders, named, herr]; rfl⟩
      · refine ⟨.problem place (.keyNotString key), ?_⟩
        rw [entryReaders, named]
        rintro name rfl
        exact htext ⟨name, rfl⟩

theorem HasMembers.schemaAt_eq
    {d : Document} {ms : List (Bytes × Document)} (h : HasMembers d ms)
    (place : Bytes) :
    schemaAt d place = (readNode ⟨place, memberReaders ms⟩ : DecodeT Id _) := by
  cases h with
  | object => rw [schemaAt]
  | table => rw [schemaAt, named_entryReaders_text, pure_bind]

theorem HasMembers.fieldsAt_eq
    {d : Document} {ms : List (Bytes × Document)} (h : HasMembers d ms)
    (place : Bytes) :
    fieldsAt d place =
      (readFields place (sortEntries (memberReaders ms)) : DecodeT Id _) := by
  cases h with
  | object => rw [fieldsAt]
  | table => rw [fieldsAt, named_entryReaders_text, pure_bind]

theorem get?_memberReaders
    (place : Bytes) (ms : List (Bytes × Document)) (name : Bytes) :
    (⟨place, memberReaders ms⟩ : Members Id).get? name =
      (attribute? ms name).map reader := by
  have hlookup : (memberReaders ms).lookup name =
      (ms.lookup name).map reader := by
    induction ms with
    | nil => rfl
    | cons e rest ih =>
        rw [memberReaders, List.lookup_cons, ih, List.lookup_cons]
        split <;> rfl
  unfold Members.get? attribute?
  simp only [hlookup]
  cases ms.lookup name with
  | none => rfl
  | some d => cases d <;> rfl

/-! ## Attributes that are read alike -/

/-- The integers of a list, where elements may be something else. -/
def integers? : Document → Option (List (Option Int))
  | .list items => some (items.map integer?)
  | _ => none

/-- Two documents are the same string, truth value, integer or integers. -/
structure AgreePlain (d d' : Document) : Prop where
  text : ∀ s, d = .text s ↔ d' = .text s
  boolean : ∀ b, d = .boolean b ↔ d' = .boolean b
  integer : d.integer? = d'.integer?
  integers : d.integers? = d'.integers?

/-- Two documents are read alike. -/
def Agrees : Role → Document → Document → Prop
  | .schema, d, d' => ∀ place, Agree (schemaAt d place) (schemaAt d' place)
  | .fields, d, d' => ∀ place, Agree (fieldsAt d place) (fieldsAt d' place)
  | .possibilities, d, d' =>
    ∀ place, Agree (possibilitiesAt d place) (possibilitiesAt d' place)
  | .plain, d, d' => AgreePlain d d'

section Attributes

variable {ms ms' : List (Bytes × Document)} {name : Bytes}

theorem document_memberReaders (place : Bytes) :
    ((⟨place, memberReaders ms⟩ : Members Id).get? name).map Member.document =
      attribute? ms name := by
  rw [get?_memberReaders, Option.map_map]
  cases attribute? ms name <;> rfl

theorem string_eq_pure_iff {place s : Bytes} :
    (⟨place, memberReaders ms⟩ : Members Id).string name = pure s ↔
      attribute? ms name = some (.text s) := by
  rw [Members.string, document_memberReaders]
  constructor
  · intro h
    split at h
    · cases h
    · cases h
      assumption
    · cases h
  · intro h
    rw [h]

theorem boolean_eq_pure_iff {place : Bytes} {b : Bool} :
    (⟨place, memberReaders ms⟩ : Members Id).boolean name = pure b ↔
      attribute? ms name = some (.boolean b) ∨
        attribute? ms name = none ∧ b = false := by
  rw [Members.boolean, document_memberReaders]
  constructor
  · intro h
    split at h
    · cases h
      exact .inr ⟨by assumption, rfl⟩
    · cases h
      exact .inl (by assumption)
    · cases h
  · rintro (h | ⟨h, rfl⟩)
    · rw [h]
    · rw [h]

theorem integers?_eq_some
    {d : Document} {ns : List (Option Int)} (h : d.integers? = some ns) :
    ∃ items, d = .list items ∧ items.map integer? = ns := by
  cases d with
  | list items => exact ⟨items, rfl, Option.some.inj h⟩
  | _ => cases h

theorem integers_eq_throw
    {d : Document} (hd : attribute? ms name = some d)
    (hlist : d.integers? = none) (place : Bytes) :
    ∃ e, (⟨place, memberReaders ms⟩ : Members Id).integers name = throw e := by
  rw [Members.integers, document_memberReaders, hd]
  cases d with
  | list items => cases hlist
  | _ => exact ⟨_, rfl⟩

theorem agree_integersFrom
    (ns ns' : Members Id) {items items' : List Document}
    (h : items.map integer? = items'.map integer?) (position : Nat) :
    Agree (ns.integersFrom name position items)
      (ns'.integersFrom name position items') := by
  induction items generalizing items' position with
  | nil =>
      cases items' with
      | nil => exact Agree.refl _
      | cons => cases h
  | cons d rest ih =>
      cases items' with
      | nil => cases h
      | cons d' rest' =>
          obtain ⟨hd, hrest⟩ := List.cons.inj h
          rw [Members.integersFrom, Members.integersFrom, hd]
          cases d'.integer? with
          | none => exact agree_throw _ _
          | some n =>
              exact (ih hrest (position + 1)).bind fun _ _ => Agree.refl _

variable (place : Bytes)

section Plain

variable (h : Option.Rel (Agrees .plain) (attribute? ms name)
  (attribute? ms' name))
include h

theorem agree_string :
    Agree ((⟨place, memberReaders ms⟩ : Members Id).string name)
      ((⟨place, memberReaders ms'⟩ : Members Id).string name) := by
  intro s
  rw [string_eq_pure_iff, string_eq_pure_iff]
  generalize attribute? ms name = o, attribute? ms' name = o' at h
  cases h with
  | none => exact Iff.rfl
  | some hplain => simpa using hplain.text s

theorem agree_boolean :
    Agree ((⟨place, memberReaders ms⟩ : Members Id).boolean name)
      ((⟨place, memberReaders ms'⟩ : Members Id).boolean name) := by
  intro b
  rw [boolean_eq_pure_iff, boolean_eq_pure_iff]
  generalize attribute? ms name = o, attribute? ms' name = o' at h
  cases h with
  | none => exact Iff.rfl
  | some hplain => simpa using hplain.boolean b

theorem agree_integer? :
    Agree ((⟨place, memberReaders ms⟩ : Members Id).integer? name)
      ((⟨place, memberReaders ms'⟩ : Members Id).integer? name) := by
  rw [Members.integer?, document_memberReaders, Members.integer?,
    document_memberReaders]
  generalize attribute? ms name = o, attribute? ms' name = o' at h
  cases h with
  | none => exact Agree.refl _
  | @some d d' hplain =>
      have hinteger : d.integer? = d'.integer? := hplain.integer
      simp only [hinteger]
      cases d'.integer? with
      | none => exact agree_throw _ _
      | some n => exact Agree.refl _

theorem agree_integer :
    Agree ((⟨place, memberReaders ms⟩ : Members Id).integer name)
      ((⟨place, memberReaders ms'⟩ : Members Id).integer name) :=
  (agree_integer? place h).bind fun _ _ => Agree.refl _

theorem agree_integers :
    Agree ((⟨place, memberReaders ms⟩ : Members Id).integers name)
      ((⟨place, memberReaders ms'⟩ : Members Id).integers name) := by
  rcases ho : attribute? ms name with _ | d <;>
    rcases ho' : attribute? ms' name with _ | d' <;> rw [ho, ho'] at h
  · rw [Members.integers, document_memberReaders, ho, Members.integers,
      document_memberReaders, ho']
    exact Agree.refl _
  · cases h
  · cases h
  · have hintegers : d.integers? = d'.integers? :=
      (Option.rel_some_some.mp h).integers
    cases hlist : d.integers? with
    | none =>
        obtain ⟨e, he⟩ := integers_eq_throw ho hlist place
        obtain ⟨e', he'⟩ := integers_eq_throw ho' (hintegers ▸ hlist) place
        rw [he, he']
        exact agree_throw e e'
    | some ns =>
        obtain ⟨items, rfl, hitems⟩ := integers?_eq_some hlist
        obtain ⟨items', rfl, hitems'⟩ := integers?_eq_some (hintegers ▸ hlist)
        rw [Members.integers, document_memberReaders, ho, Members.integers,
          document_memberReaders, ho']
        exact agree_integersFrom _ _ (hitems.trans hitems'.symm) 0

end Plain

theorem agree_maxLength
    (h : Option.Rel (Agrees .plain) (attribute? ms "maxlength")
      (attribute? ms' "maxlength")) (kind : Kind) :
    Agree ((⟨place, memberReaders ms⟩ : Members Id).maxLength kind)
      ((⟨place, memberReaders ms'⟩ : Members Id).maxLength kind) :=
  (agree_integer? place h).bind fun _ _ => Agree.refl _

theorem agree_schema
    (h : Option.Rel (Agrees .schema) (attribute? ms name)
      (attribute? ms' name)) :
    Agree ((⟨place, memberReaders ms⟩ : Members Id).schema name)
      ((⟨place, memberReaders ms'⟩ : Members Id).schema name) := by
  rw [Members.schema, get?_memberReaders, Members.schema, get?_memberReaders]
  generalize attribute? ms name = o, attribute? ms' name = o' at h
  cases h with
  | none => exact Agree.refl _
  | some hread => exact hread _

theorem agree_fields
    (h : Option.Rel (Agrees .fields) (attribute? ms name)
      (attribute? ms' name)) :
    Agree ((⟨place, memberReaders ms⟩ : Members Id).fields name)
      ((⟨place, memberReaders ms'⟩ : Members Id).fields name) := by
  rw [Members.fields, get?_memberReaders, Members.fields, get?_memberReaders]
  generalize attribute? ms name = o, attribute? ms' name = o' at h
  cases h with
  | none => exact Agree.refl _
  | some hread => exact hread _

theorem agree_possibilities
    (h : Option.Rel (Agrees .possibilities) (attribute? ms name)
      (attribute? ms' name)) :
    Agree ((⟨place, memberReaders ms⟩ : Members Id).possibilities name)
      ((⟨place, memberReaders ms'⟩ : Members Id).possibilities name) := by
  rw [Members.possibilities, get?_memberReaders, Members.possibilities,
    get?_memberReaders]
  generalize attribute? ms name = o, attribute? ms' name = o' at h
  cases h with
  | none => exact Agree.refl _
  | some hread => exact hread _

end Attributes

/-! ## Objects and lists -/

/-- A node is read alike if the attributes that are read of it are. -/
theorem agree_readNode
    {ms ms' : List (Bytes × Document)}
    (h : ∀ a ∈ attributesRead ms,
      Option.Rel (Agrees a.2) (attribute? ms a.1) (attribute? ms' a.1))
    (place : Bytes) :
    Agree (readNode ⟨place, memberReaders ms⟩)
      (readNode ⟨place, memberReaders ms'⟩) := by
  unfold readNode
  refine (agree_string place (h _ List.mem_cons_self)).bind ?_
  intro name hname
  have hkind : kind? ms = Kind.parse? name := by
    rw [kind?, string_eq_pure_iff.mp hname]
  cases hparse : Kind.parse? name with
  | none => exact agree_throw _ _
  | some kind =>
      have hread : ∀ a ∈ attributes kind,
          Option.Rel (Agrees a.2) (attribute? ms a.1) (attribute? ms' a.1) := by
        intro a ha
        refine h a (List.mem_cons_of_mem _ ?_)
        rwa [hkind, hparse]
      cases kind with
      | anything => exact Agree.refl _
      | nothing => exact Agree.refl _
      | null => exact Agree.refl _
      | boolean => exact Agree.refl _
      | number =>
          simp only [attributes, List.forall_mem_cons] at hread
          obtain ⟨hwhole, hsigned, hnbytes, _⟩ := hread
          refine (agree_boolean place hwhole).bind fun whole _ => ?_
          refine (agree_boolean place hsigned).bind fun signed _ => ?_
          exact (agree_integer place hnbytes).bind fun _ _ => Agree.refl _
      | string =>
          simp only [attributes, List.forall_mem_cons] at hread
          obtain ⟨hcharset, hlength, _⟩ := hread
          refine (agree_string place hcharset).bind fun charset _ => ?_
          exact (agree_maxLength place hlength _).bind fun _ _ => Agree.refl _
      | tensor =>
          simp only [attributes, List.forall_mem_cons] at hread
          obtain ⟨hitems, hdimensions, _⟩ := hread
          refine (agree_schema place hitems).bind fun items _ => ?_
          exact (agree_integers place hdimensions).bind fun _ _ => Agree.refl _
      | collection =>
          simp only [attributes, List.forall_mem_cons] at hread
          obtain ⟨hitems, hordered, hlength, _⟩ := hread
          refine (agree_schema place hitems).bind fun items _ => ?_
          refine (agree_boolean place hordered).bind fun ordered _ => ?_
          exact (agree_maxLength place hlength _).bind fun _ _ => Agree.refl _
      | mapping =>
          simp only [attributes, List.forall_mem_cons] at hread
          obtain ⟨hkeys, hvalues, _⟩ := hread
          refine (agree_schema place hkeys).bind fun keys _ => ?_
          exact (agree_schema place hvalues).bind fun _ _ => Agree.refl _
      | record =>
          simp only [attributes, List.forall_mem_cons] at hread
          exact (agree_fields place hread.1).bind fun _ _ => Agree.refl _
      | union =>
          simp only [attributes, List.forall_mem_cons] at hread
          exact (agree_possibilities place hread.1).bind fun _ _ => Agree.refl _
      | reference =>
          simp only [attributes, List.forall_mem_cons] at hread
          exact (agree_string place hread.1).bind fun _ _ => Agree.refl _

theorem agree_readFields
    {l l' : List (Bytes × Member Id)} (place : Bytes)
    (h : List.Forall₂ (fun x x' => x.1 = x'.1 ∧
      ∀ place, Agree (x.2.schema place) (x'.2.schema place)) l l') :
    Agree (readFields place l) (readFields place l') := by
  induction h with
  | nil => exact Agree.refl _
  | @cons x x' rest rest' hx _ ih =>
      obtain ⟨name, x⟩ := x
      obtain ⟨name', x'⟩ := x'
      obtain ⟨rfl, hschema⟩ := hx
      rw [readFields, readFields]
      exact (hschema _).bind fun f _ => ih.bind fun _ _ => Agree.refl _

/-- Fields with the same names are read alike if the documents of each name
are. -/
theorem agree_sortedFields
    {ms ms' : List (Bytes × Document)}
    (hnames : ∀ name, name ∈ ms.map Prod.fst ↔ name ∈ ms'.map Prod.fst)
    (h : ∀ name x x', (name, x) ∈ ms → (name, x') ∈ ms' → Agrees .schema x x')
    (place : Bytes) :
    Agree (readFields place (sortEntries (memberReaders ms)))
      (readFields place (sortEntries (memberReaders ms'))) := by
  have hpaired : List.Forall₂ (fun x x' : Bytes × Member Id => x.1 = x'.1)
      (sortEntries (memberReaders ms)) (sortEntries (memberReaders ms')) := by
    apply forall₂_sortEntries
    intro name
    rw [memberReaders_eq, memberReaders_eq, List.map_map, List.map_map]
    exact hnames name
  refine agree_readFields place (List.forall₂_iff_zip.mpr
    ⟨hpaired.length_eq, ?_⟩)
  intro x x' hzip
  have hname : x.1 = x'.1 := List.forall₂_zip hpaired hzip
  obtain ⟨hx, hx'⟩ := List.of_mem_zip hzip
  have hx := mem_of_mem_sortEntries hx
  have hx' := mem_of_mem_sortEntries hx'
  rw [memberReaders_eq] at hx hx'
  obtain ⟨e, he, rfl⟩ := List.mem_map.mp hx
  obtain ⟨e', he', rfl⟩ := List.mem_map.mp hx'
  refine ⟨hname, h e.1 e.2 e'.2 he ?_⟩
  rw [show e.1 = e'.1 from hname]
  exact he'

theorem agree_itemsAt
    {items items' : List Document}
    (h : List.Forall₂ (Agrees .schema) items items') (position : Nat)
    (place : Bytes) :
    Agree (itemsAt position items place) (itemsAt position items' place) := by
  induction h generalizing position with
  | nil => exact Agree.refl _
  | cons hd _ ih =>
      rw [itemsAt, itemsAt]
      exact (hd _).bind fun s _ => (ih (position + 1)).bind
        fun _ _ => Agree.refl _

/-! ## Documents that are not read -/

/-- A document is not what it is read as. -/
def Refused : Role → Document → Prop
  | .schema, d => ∀ place, ∃ e, (schemaAt d place : DecodeT Id _) = throw e
  | .fields, d => ∀ place, ∃ e, (fieldsAt d place : DecodeT Id _) = throw e
  | .possibilities, d =>
    ∀ place, ∃ e, (possibilitiesAt d place : DecodeT Id _) = throw e
  | .plain, d => (∀ s, d ≠ .text s) ∧ (∀ b, d ≠ .boolean b) ∧
    d.integer? = none ∧ d.integers? = none

theorem agree_of_throws
    {α : Type} {r r' : DecodeT Id α} (h : ∃ e, r = throw e)
    (h' : ∃ e, r' = throw e) : Agree r r' := by
  obtain ⟨e, rfl⟩ := h
  obtain ⟨e', rfl⟩ := h'
  exact agree_throw e e'

theorem Refused.agrees
    {role : Role} {d d' : Document} (h : Refused role d)
    (h' : Refused role d') : Agrees role d d' := by
  cases role with
  | schema => exact fun place => agree_of_throws (h place) (h' place)
  | fields => exact fun place => agree_of_throws (h place) (h' place)
  | possibilities => exact fun place => agree_of_throws (h place) (h' place)
  | plain =>
      obtain ⟨htext, hboolean, hinteger, hintegers⟩ := h
      obtain ⟨htext', hboolean', hinteger', hintegers'⟩ := h'
      refine ⟨?_, ?_, hinteger.trans hinteger'.symm,
        hintegers.trans hintegers'.symm⟩
      · intro s
        exact iff_of_false (htext s) (htext' s)
      · intro b
        exact iff_of_false (hboolean b) (hboolean' b)

theorem refused_table
    {entries : List (Value × Document)} {e : Value × Document}
    (he : e ∈ entries) (hkey : ∀ name, e.1 ≠ .text name) (role : Role) :
    Refused role (.table entries) := by
  cases role with
  | schema =>
      intro place
      obtain ⟨err, herr⟩ := named_entryReaders_key he hkey place
      exact ⟨err, by rw [schemaAt, herr]; rfl⟩
  | fields =>
      intro place
      obtain ⟨err, herr⟩ := named_entryReaders_key he hkey place
      exact ⟨err, by rw [fieldsAt, herr]; rfl⟩
  | possibilities => exact fun place => ⟨_, rfl⟩
  | plain => simp [Refused, integer?, integers?]

theorem Unread.refused
    {role : Role} {d : Document} (h : Unread role d) : Refused role d := by
  cases h with
  | other _ v =>
      cases role with
      | plain => simp [Refused, integer?, integers?]
      | _ => exact fun place => ⟨_, rfl⟩
  | key _ he hkey => exact refused_table he hkey role
  | possibilities hd => cases hd <;> exact fun place => ⟨_, rfl⟩
  | plain hd => cases hd <;> simp [Refused, integer?, integers?]

theorem Holds.refused
    {role : Role} {d : Document} {n : Int} (h : Holds d n)
    (hrole : role ≠ .plain) : Refused role d := by
  cases role with
  | plain => exact absurd rfl hrole
  | _ => cases h <;> exact fun place => ⟨_, rfl⟩

/-! ## Documents with the same content -/

theorem Holds.integer?_eq {d : Document} {n : Int} (h : Holds d n) :
    d.integer? = some n := by
  cases h with
  | @integer type n htype hn =>
      have hlimit : n < signedLimit := hn
      cases type <;> simp_all [integer?]
  | float hvalue hn =>
      have hlimit : n.natAbs ≤ exactLimit := hn
      simp [integer?, Floating.toInt?_of_value? hvalue, hlimit]

theorem Holds.agrees
    {d d' : Document} {n : Int} (h : Holds d n) (h' : Holds d' n)
    (role : Role) : Agrees role d d' := by
  by_cases hrole : role = .plain
  · subst hrole
    refine ⟨?_, ?_, h.integer?_eq.trans h'.integer?_eq.symm, ?_⟩ <;>
      cases h <;> cases h' <;> simp [integers?]
  · exact (h.refused hrole).agrees (h'.refused hrole)

theorem agrees_list
    {role : Role} {items items' : List Document}
    (h : List.Forall₂ (Agrees role.item) items items') :
    Agrees role (.list items) (.list items') := by
  cases role with
  | schema => exact fun place => agree_throw _ _
  | fields => exact fun place => agree_throw _ _
  | possibilities => exact fun place => agree_itemsAt h 0 place
  | plain =>
      have hintegers : List.Forall₂ (fun n n' => n = n') (items.map integer?)
          (items'.map integer?) :=
        List.forall₂_map_left_iff.mpr (List.forall₂_map_right_iff.mpr
          (h.imp fun _ _ hplain => hplain.integer))
      rw [List.forall₂_eq_eq_eq] at hintegers
      exact ⟨by simp, by simp, rfl, congrArg some hintegers⟩

theorem optionRel_iff
    {α : Type} {R : α → α → Prop} {o o' : Option α} :
    Option.Rel R o o' ↔ o.isSome = o'.isSome ∧
      ∀ x x', o = some x → o' = some x' → R x x' := by
  cases o <;> cases o' <;> simp

theorem Rewritten.agrees
    {role : Role} {d d' : Document} (h : Rewritten role d d') :
    Agrees role d d' := by
  -- The induction is on how the documents differ.  What it gives for the
  -- documents inside depends on their roles, as does what is to be shown.
  induction h with
  | refl role d =>
      cases role with
      | plain => exact ⟨fun _ => Iff.rfl, fun _ => Iff.rfl, rfl, rfl⟩
      | _ => exact fun place => Agree.refl _
  | number role hd hd' => exact hd.agrees hd' role
  | list role hlength _ ih =>
      exact agrees_list (List.forall₂_iff_get.mpr ⟨hlength, ih⟩)
  | fields hd hd' hnames _ ih =>
      intro place
      rw [hd.fieldsAt_eq, hd'.fieldsAt_eq]
      exact agree_sortedFields hnames ih place
  | node hd hd' hsome _ ih =>
      intro place
      rw [hd.schemaAt_eq, hd'.schemaAt_eq]
      exact agree_readNode
        (fun a ha => optionRel_iff.mpr ⟨hsome a ha, ih a ha⟩) place
  | unread role hd hd' => exact hd.refused.agrees hd'.refused

/-- Reading does not depend on the representation of a document: documents with
the same content give the same schema, or both fail. -/
theorem toSchema_rewritten
    {d d' : Document} (h : Rewritten .schema d d') :
    (∃ s s', d.toSchema = .ok s ∧ d'.toSchema = .ok s' ∧ s.same s' = true) ∨
      ∃ e e', d.toSchema = .error e ∧ d'.toSchema = .error e' := by
  have hagree : ∀ s, d.toSchema = .ok s ↔ d'.toSchema = .ok s := h.agrees _
  cases hd : d.toSchema with
  | ok s =>
      exact .inl ⟨s, s, rfl, (hagree s).mp hd, (Schema.same_iff s s).mpr rfl⟩
  | error e =>
      cases hd' : d'.toSchema with
      | ok s =>
          rw [(hagree s).mpr hd'] at hd
          cases hd
      | error e' => exact .inr ⟨e, e', rfl, rfl⟩

/-- A record in two forms: keys, a number, a member that is not read, and null
for a member that is absent are different. -/
theorem toSchema_rewritten_record :
    let text := Document.object [("kind", .text "string"),
      ("charset", .text "utf-8"), ("maxlength", .integer .int 3)]
    let text' := Document.table [(.text "maxlength", .float .float64
      (.finite false 3 0)), (.text "charset", .text "utf-8"),
      (.text "kind", .text "string")]
    let union := Document.object [("kind", .text "union")]
    let union' := Document.object [("possibilities", .null),
      ("kind", .text "union")]
    let d := Document.object [("kind", .text "record"),
      ("fields", .object [("a", text), ("b", union)])]
    let d' := Document.table [(.text "note", .boolean true),
      (.text "kind", .text "record"),
      (.text "fields", .table [(.text "b", union'), (.text "a", text')])]
    Rewritten .schema d d' ∧
      ∃ s s', d.toSchema = .ok s ∧ d'.toSchema = .ok s' ∧ s.same s' = true := by
  intro text text' union union' d d'
  have hnode : ∀ {d d' : Document} {ms ms' : List (Bytes × Document)},
      HasMembers d ms → HasMembers d' ms' →
      (∀ a ∈ attributesRead ms,
        Option.Rel (Rewritten a.2) (attribute? ms a.1) (attribute? ms' a.1)) →
      Rewritten .schema d d' := by
    intro d d' ms ms' hd hd' h
    exact .node hd hd' (fun a ha => (optionRel_iff.mp (h a ha)).1)
      fun a ha => (optionRel_iff.mp (h a ha)).2
  have htext : Rewritten .schema text text' := by
    refine hnode (.object _) (.table [("maxlength", .float .float64
      (.finite false 3 0)), ("charset", .text "utf-8"),
      ("kind", .text "string")]) ?_
    have hlength : Holds (.float .float64 (.finite false 3 0)) 3 :=
      .float (by norm_num [Floating.value?]) (by decide)
    refine List.forall_mem_cons.mpr ⟨.some (.refl _ _),
      List.forall_mem_cons.mpr ⟨.some (.refl _ _), List.forall_mem_cons.mpr
        ⟨.some (.number _ (.integer (by decide) (by decide)) hlength),
          List.forall_mem_nil _⟩⟩⟩
  have hunion : Rewritten .schema union union' := by
    refine hnode (.object _) (.object _) ?_
    exact List.forall_mem_cons.mpr ⟨.some (.refl _ _),
      List.forall_mem_cons.mpr ⟨.none, List.forall_mem_nil _⟩⟩
  have hfields : Rewritten .fields (.object [("a", text), ("b", union)])
      (.table [(.text "b", union'), (.text "a", text')]) := by
    refine .fields (.object _) (.table [("b", union'), ("a", text')]) ?_ ?_
    · simp [or_comm]
    · intro name x x' hx hx'
      simp only [List.mem_cons, Prod.mk.injEq, List.not_mem_nil,
        or_false] at hx hx'
      rcases hx with ⟨rfl, rfl⟩ | ⟨rfl, rfl⟩
      · rcases hx' with ⟨hname, _⟩ | ⟨_, rfl⟩
        · exact absurd hname (by decide)
        · exact htext
      · rcases hx' with ⟨_, rfl⟩ | ⟨hname, _⟩
        · exact hunion
        · exact absurd hname (by decide)
  have h : Rewritten .schema d d' := by
    refine hnode (.object _) (.table [("note", .boolean true),
      ("kind", .text "record"),
      ("fields", .table [(.text "b", union'), (.text "a", text')])]) ?_
    exact List.forall_mem_cons.mpr ⟨.some (.refl _ _),
      List.forall_mem_cons.mpr ⟨.some hfields, List.forall_mem_nil _⟩⟩
  refine ⟨h, ?_⟩
  rcases toSchema_rewritten h with hok | ⟨e, _, he, _⟩
  · exact hok
  · cases he

end Schemata.Document
