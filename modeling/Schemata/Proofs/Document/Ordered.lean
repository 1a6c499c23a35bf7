import Schemata.Document
import Schemata.Proofs.Sorted

/-!
# The order of members

Objects are maps: they have every name once, and the order in which they list
their members means nothing.  When a document is written, the members of every
object are put in order, the kind first and the other names increasing byte by
byte.  The names are so ordered totally, whatever they are; a record may well
have a field of the name `kind`.

Two documents that are the same as maps, but list their members in different
orders, are therefore written alike, and a document that was put in order is
still the same as maps.
-/

namespace Schemata.Document

/-- What is neither a list nor an object with names. -/
def IsLeaf : Document → Prop
  | .list _ | .object _ => False
  | _ => True

/-- The names of every object have a property, at every depth. -/
inductive EveryObject (P : List Bytes → Prop) : Document → Prop
  | leaf {d : Document} : d.IsLeaf → EveryObject P d
  | list {items : List Document} :
      (∀ d ∈ items, EveryObject P d) → EveryObject P (.list items)
  | object {ms : List (Bytes × Document)} :
      P (ms.map Prod.fst) → (∀ e ∈ ms, EveryObject P e.2) →
      EveryObject P (.object ms)

/-- The same document if objects are taken as maps: lists agree position by
position, objects name by name, and all else is equal. -/
inductive SameAsMaps : Document → Document → Prop
  | leaf {d : Document} : d.IsLeaf → SameAsMaps d d
  | list {items items' : List Document} :
      items.length = items'.length →
      (∀ i (h : i < items.length) (h' : i < items'.length),
        SameAsMaps (items.get ⟨i, h⟩) (items'.get ⟨i, h'⟩)) →
      SameAsMaps (.list items) (.list items')
  | object {ms ms' : List (Bytes × Document)} :
      (∀ name, name ∈ ms.map Prod.fst ↔ name ∈ ms'.map Prod.fst) →
      (∀ name x x', (name, x) ∈ ms → (name, x') ∈ ms' → SameAsMaps x x') →
      SameAsMaps (.object ms) (.object ms')

/-- The kind comes first if it is there, and the other names strictly
increase. -/
def KindFirst (names : List Bytes) : Prop :=
  ∃ rest, (names = rest ∨ names = ("kind" : Bytes) :: rest) ∧
    ("kind" : Bytes) ∉ rest ∧ rest.Pairwise fun a b => compare a b = .lt

/-! ## The order of names -/

/-- A name as it is compared, nothing standing for the kind. -/
def rank (name : Bytes) : Option Bytes :=
  if name = ("kind" : Bytes) then none else some name

theorem compareNames_eq (a b : Bytes) :
    compareNames a b = compare (rank a) (rank b) := by
  unfold compareNames rank
  by_cases ha : a = ("kind" : Bytes) <;> by_cases hb : b = ("kind" : Bytes)
  all_goals simp only [ha, hb, if_true, if_false]
  all_goals rfl

theorem rank_injective : Function.Injective rank := by
  intro a b h
  unfold rank at h
  split at h <;> split at h <;> simp_all

instance : Std.TransCmp compareNames where
  eq_swap {a b} := by
    rw [compareNames_eq, compareNames_eq]
    exact Std.OrientedCmp.eq_swap
  isLE_trans {a b c} hab hbc := by
    rw [compareNames_eq] at hab hbc ⊢
    exact Std.TransCmp.isLE_trans hab hbc

instance : Std.LawfulEqCmp compareNames where
  compare_self {a} := by
    rw [compareNames_eq]
    exact Std.ReflCmp.compare_self
  eq_of_compare {a b} h := by
    rw [compareNames_eq] at h
    exact rank_injective (Std.LawfulEqCmp.eq_of_compare h)

theorem compareNames_kind
    {name : Bytes} (h : name ≠ ("kind" : Bytes)) :
    compareNames "kind" name = .lt := by
  simp [compareNames, h]

theorem compareNames_of_ne
    {a b : Bytes} (ha : a ≠ ("kind" : Bytes)) (hb : b ≠ ("kind" : Bytes)) :
    compareNames a b = compare a b := by
  simp [compareNames, ha, hb]

theorem not_compareNames_kind (name : Bytes) :
    compareNames name "kind" ≠ .lt := by
  unfold compareNames
  split <;> simp

theorem pairwise_compareNames_iff
    {rest : List Bytes} (h : ("kind" : Bytes) ∉ rest) :
    (rest.Pairwise fun a b => compareNames a b = .lt) ↔
      rest.Pairwise fun a b => compare a b = .lt := by
  have hne : ∀ name ∈ rest, name ≠ ("kind" : Bytes) := by
    rintro name hname rfl
    exact h hname
  constructor
  · intro hrest
    refine hrest.imp_of_mem ?_
    intro a b ha hb hab
    rwa [compareNames_of_ne (hne a ha) (hne b hb)] at hab
  · intro hrest
    refine hrest.imp_of_mem ?_
    intro a b ha hb hab
    rwa [compareNames_of_ne (hne a ha) (hne b hb)]

/-- The kind first and the rest increasing is increasing in the order of
names. -/
theorem kindFirst_iff {names : List Bytes} :
    KindFirst names ↔ names.Pairwise fun a b => compareNames a b = .lt := by
  constructor
  · rintro ⟨rest, rfl | rfl, hkind, hrest⟩
    · exact (pairwise_compareNames_iff hkind).mpr hrest
    · refine List.pairwise_cons.mpr
        ⟨?_, (pairwise_compareNames_iff hkind).mpr hrest⟩
      intro name hname
      refine compareNames_kind ?_
      rintro rfl
      exact hkind hname
  · intro h
    cases names with
    | nil => exact ⟨[], .inl rfl, List.not_mem_nil, List.Pairwise.nil⟩
    | cons first rest =>
        obtain ⟨hfirst, hrest⟩ := List.pairwise_cons.mp h
        have hkind : ("kind" : Bytes) ∉ rest :=
          fun hmem => not_compareNames_kind first (hfirst _ hmem)
        by_cases heq : first = ("kind" : Bytes)
        · rw [heq]
          exact ⟨rest, .inr rfl, hkind,
            (pairwise_compareNames_iff hkind).mp hrest⟩
        · have hall : ("kind" : Bytes) ∉ first :: rest := by
            rw [List.mem_cons]
            rintro (hmem | hmem)
            · exact heq hmem.symm
            · exact hkind hmem
          exact ⟨first :: rest, .inl rfl, hall,
            (pairwise_compareNames_iff hall).mp h⟩

/-! ## Documents as maps -/

theorem SameAsMaps.symm {d d' : Document} (h : SameAsMaps d d') :
    SameAsMaps d' d := by
  induction h with
  | leaf hleaf => exact .leaf hleaf
  | list hlength _ ih =>
      exact .list hlength.symm fun i h h' => ih i h' h
  | object hnames _ ih =>
      exact .object (fun name => (hnames name).symm)
        fun name x x' hx hx' => ih name x' x hx' hx

theorem SameAsMaps.trans
    {d d' d'' : Document} (h : SameAsMaps d d') (h' : SameAsMaps d' d'') :
    SameAsMaps d d'' := by
  induction h generalizing d'' with
  | leaf => exact h'
  | list hlength _ ih =>
      cases h' with
      | leaf hleaf => cases hleaf
      | list hlength' hitems' =>
          refine .list (hlength.trans hlength') fun i h h'' => ?_
          have hmiddle : i < _ := hlength ▸ h
          exact ih i h hmiddle (hitems' i hmiddle h'')
  | object hnames _ ih =>
      cases h' with
      | leaf hleaf => cases hleaf
      | object hnames' hvalues' =>
          refine .object (fun name => (hnames name).trans (hnames' name)) ?_
          intro name x x'' hx hx''
          -- The name is there in the middle too, with some value.
          have hname := (hnames name).mp (List.mem_map_of_mem hx)
          obtain ⟨⟨_, x'⟩, hx', rfl⟩ := List.mem_map.mp hname
          exact ih _ x x' hx hx' (hvalues' _ x' x'' hx' hx'')

theorem entries_eq
    {ms ms' : List (Bytes × Document)}
    (hnames : ms.map Prod.fst = ms'.map Prod.fst)
    (hvalues : ∀ name x x', (name, x) ∈ ms → (name, x') ∈ ms' → x = x') :
    ms = ms' := by
  have hlength : ms.length = ms'.length := by
    simpa using congrArg List.length hnames
  refine List.ext_getElem hlength ?_
  intro i h h'
  have hname : ms[i].1 = ms'[i].1 := by
    have hi : (ms.map Prod.fst)[i]? = (ms'.map Prod.fst)[i]? := by
      rw [hnames]
    simpa [h, h'] using hi
  have hmem' : (ms[i].1, ms'[i].2) ∈ ms' := by
    rw [hname]
    exact List.getElem_mem h'
  have hvalue : ms[i].2 = ms'[i].2 :=
    hvalues _ _ _ (List.getElem_mem h) hmem'
  exact Prod.ext hname hvalue

/-- There is one document in order among those that are the same as maps. -/
theorem EveryObject.eq_of_sameAsMaps
    {d d' : Document} (hd : d.EveryObject KindFirst)
    (hd' : d'.EveryObject KindFirst) (h : SameAsMaps d d') : d = d' := by
  induction h with
  | leaf => rfl
  | list hlength _ ih =>
      cases hd with
      | leaf hleaf => cases hleaf
      | list hitems =>
          cases hd' with
          | leaf hleaf => cases hleaf
          | list hitems' =>
              congr 1
              refine List.ext_getElem hlength ?_
              intro i h h'
              exact ih i h h' (hitems _ (List.getElem_mem h))
                (hitems' _ (List.getElem_mem h'))
  | object hnames _ ih =>
      cases hd with
      | leaf hleaf => cases hleaf
      | object hfirst hmembers =>
          cases hd' with
          | leaf hleaf => cases hleaf
          | object hfirst' hmembers' =>
              congr 1
              refine entries_eq ?_ ?_
              · exact (kindFirst_iff.mp hfirst).eq_of_mem_iff
                  (kindFirst_iff.mp hfirst') hnames
              · intro name x x' hx hx'
                exact ih name x x' hx hx' (hmembers _ hx) (hmembers' _ hx')

/-! ## Putting members in order -/

theorem ordered_of_isLeaf {d : Document} (h : d.IsLeaf) : d.ordered = d := by
  cases d <;> first | rfl | cases h

theorem orderedItems_eq (items : List Document) :
    orderedItems items = items.map ordered := by
  induction items with
  | nil => rfl
  | cons d rest ih => rw [orderedItems, ih, List.map_cons]

theorem orderedMembers_eq (ms : List (Bytes × Document)) :
    orderedMembers ms = ms.map fun e => (e.1, e.2.ordered) := by
  induction ms with
  | nil => rfl
  | cons e rest ih => rw [orderedMembers, ih, List.map_cons]

def compareMembers (e e' : Bytes × Document) : Ordering :=
  compareNames e.1 e'.1

instance : Std.TransCmp compareMembers where
  eq_swap {e e'} := by
    change compareNames e.1 e'.1 = (compareNames e'.1 e.1).swap
    exact Std.OrientedCmp.eq_swap
  isLE_trans {e e' e''} h h' := by
    change (compareNames e.1 e''.1).isLE = true
    exact Std.TransCmp.isLE_trans h h'

theorem ordered_object (ms : List (Bytes × Document)) :
    (object ms).ordered =
      .object (sortBy compareMembers (ms.map fun e => (e.1, e.2.ordered))) := by
  rw [ordered, orderedMembers_eq]
  rfl

theorem mem_ordered_object
    {ms : List (Bytes × Document)} {e : Bytes × Document} :
    e ∈ sortBy compareMembers (ms.map fun e => (e.1, e.2.ordered)) ↔
      ∃ x, (e.1, x) ∈ ms ∧ x.ordered = e.2 := by
  obtain ⟨name, y⟩ := e
  simp

theorem names_ordered_increasing
    {ms : List (Bytes × Document)} (h : (ms.map Prod.fst).Nodup) :
    ((sortBy compareMembers (ms.map fun e => (e.1, e.2.ordered))).map
      Prod.fst).Pairwise fun a b => compareNames a b = .lt := by
  have hdifferent : (ms.map fun e => (e.1, e.2.ordered)).Pairwise
      fun e e' => compareMembers e e' ≠ .eq := by
    refine List.pairwise_map.mpr ((List.pairwise_map.mp h).imp ?_)
    intro e e' hne heq
    have hname : compareNames e.1 e'.1 = .eq := heq
    exact hne (Std.LawfulEqCmp.eq_of_compare hname)
  have hincreasing := sortBy_increasing_of_ne hdifferent
  exact List.pairwise_map.mpr hincreasing

/-- A document whose objects have every name once is in order afterwards, at
every depth. -/
theorem EveryObject.ordered
    {d : Document} (hd : d.EveryObject List.Nodup) :
    d.ordered.EveryObject KindFirst := by
  induction hd with
  | leaf hleaf =>
      rw [ordered_of_isLeaf hleaf]
      exact .leaf hleaf
  | list _ ih =>
      rw [Document.ordered, orderedItems_eq]
      exact .list (List.forall_mem_map.mpr ih)
  | object hnames _ ih =>
      rw [ordered_object]
      refine .object (kindFirst_iff.mpr (names_ordered_increasing hnames)) ?_
      intro e he
      obtain ⟨x, hx, hordered⟩ := mem_ordered_object.mp he
      rw [← hordered]
      exact ih _ hx

theorem eq_of_mem_of_nodup
    {ms : List (Bytes × Document)} (h : (ms.map Prod.fst).Nodup)
    {name : Bytes} {x x' : Document} (hx : (name, x) ∈ ms)
    (hx' : (name, x') ∈ ms) : x = x' :=
  congrArg Prod.snd (List.inj_on_of_nodup_map h hx hx' rfl)

/-- Putting members in order changes nothing but their order. -/
theorem EveryObject.sameAsMaps_ordered
    {d : Document} (hd : d.EveryObject List.Nodup) :
    SameAsMaps d d.ordered := by
  induction hd with
  | leaf hleaf =>
      rw [ordered_of_isLeaf hleaf]
      exact .leaf hleaf
  | list _ ih =>
      rw [Document.ordered, orderedItems_eq]
      refine .list (by simp) fun i h h' => ?_
      simpa using ih _ (List.getElem_mem h)
  | object hnames _ ih =>
      rw [ordered_object]
      refine .object ?_ ?_
      · intro name
        simp
      · intro name x x' hx hx'
        obtain ⟨y, hy, rfl⟩ := mem_ordered_object.mp hx'
        rw [← eq_of_mem_of_nodup hnames hx hy]
        exact ih _ hx

/-- The ordered form of a document has the kind first and the other names
increasing in every object, is the same document as maps, and is shared by
exactly the documents that are the same as maps. -/
theorem ordered_canonical
    {d : Document} (hd : d.EveryObject List.Nodup) :
    d.ordered.EveryObject KindFirst ∧ SameAsMaps d d.ordered ∧
      ∀ d' : Document, d'.EveryObject List.Nodup →
        (d'.ordered = d.ordered ↔ SameAsMaps d d') := by
  refine ⟨hd.ordered, hd.sameAsMaps_ordered, ?_⟩
  intro d' hd'
  constructor
  · intro heq
    have hback : SameAsMaps d.ordered d' := by
      rw [← heq]
      exact hd'.sameAsMaps_ordered.symm
    exact hd.sameAsMaps_ordered.trans hback
  · intro hsame
    have hforms : SameAsMaps d'.ordered d.ordered :=
      (hd'.sameAsMaps_ordered.symm.trans hsame.symm).trans hd.sameAsMaps_ordered
    exact hd'.ordered.eq_of_sameAsMaps hd.ordered hforms

/-- A record with a field of the name `kind`, whose members come in no
particular order at either depth. -/
theorem ordered_canonical_record :
    let kind := fun s : Bytes => Document.object [("kind", .text s)]
    let d := Document.object [("fields", .object [("b", kind "null"),
      ("kind", kind "boolean"), ("a", kind "null")]), ("kind", .text "record")]
    d.EveryObject List.Nodup ∧
      d.ordered.EveryObject KindFirst ∧ SameAsMaps d d.ordered ∧
        ∀ d' : Document, d'.EveryObject List.Nodup →
          (d'.ordered = d.ordered ↔ SameAsMaps d d') := by
  intro kind d
  have hkind : ∀ s, (kind s).EveryObject List.Nodup := by
    intro s
    refine .object (List.nodup_singleton _) ?_
    exact List.forall_mem_singleton.mpr (.leaf trivial)
  have hd : d.EveryObject List.Nodup := by
    refine .object (by decide) (List.forall_mem_cons.mpr ⟨?_, ?_⟩)
    · exact .object (by decide) (by simp [hkind])
    · exact List.forall_mem_singleton.mpr (.leaf trivial)
  exact ⟨hd, ordered_canonical hd⟩

end Schemata.Document
