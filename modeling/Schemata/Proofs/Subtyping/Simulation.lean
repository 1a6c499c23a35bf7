import Schemata.Proofs.Subtyping.Antisymmetry

/-!
# Schemas that compare alike

A comparison looks at the outermost nodes of two opened schemas and goes on
with the schemas inside.  Of an encoding it only asks whether it is the same,
of the possibilities of a union only whether there is one.  So what relates
schemas node by node, with encodings renamed one to one and possibilities in
any order and number, leaves all answers as they are.
-/

namespace Schemata

namespace Schema

/-- A node with another encoding and other schemas directly inside. -/
def mapNode (rename : Bytes → Bytes) (g : Schema → Schema) : Schema → Schema
  | .string charset maxLength => .string (rename charset) maxLength
  | .tensor items dimensions => .tensor (g items) dimensions
  | .collection items ordered maxLength =>
    .collection (g items) ordered maxLength
  | .mapping keys values => .mapping (g keys) (g values)
  | .record fields => .record (fields.map fun f => (f.1, g f.2))
  | .union possibilities => .union (possibilities.map g)
  | s => s

variable {rename : Bytes → Bytes} {g : Schema → Schema}

@[simp]
theorem kind_mapNode (s : Schema) : (s.mapNode rename g).kind = s.kind := by
  cases s <;> rfl

@[simp]
theorem children_mapNode (s : Schema) :
    (s.mapNode rename g).children = s.children.map g := by
  cases s <;> simp [mapNode, children]

theorem NamesIncrease.mapNode
    {s : Schema} (hs : s.NamesIncrease) (rename : Bytes → Bytes)
    (g : Schema → Schema) : (s.mapNode rename g).NamesIncrease := by
  cases s with
  | record fields => exact List.pairwise_map.mpr hs
  | _ => trivial

end Schema

namespace Subtyping

open Schema

variable {encodings : Bytes → Bytes → Prop} {T R R' : Schema → Schema → Prop}

/-- Two nodes with the same attributes, apart from their encodings, whose
schemas inside are related. -/
inductive Corresponds (encodings : Bytes → Bytes → Prop)
    (T : Schema → Schema → Prop) : Schema → Schema → Prop
  | anything : Corresponds encodings T .anything .anything
  | nothing : Corresponds encodings T .nothing .nothing
  | null : Corresponds encodings T .null .null
  | boolean : Corresponds encodings T .boolean .boolean
  | number (whole signed : Bool) (nbytes : Nat) :
      Corresponds encodings T (.number whole signed nbytes)
        (.number whole signed nbytes)
  | string {charset charset' : Bytes} (maxLength : Option Nat) :
      encodings charset charset' →
      Corresponds encodings T (.string charset maxLength)
        (.string charset' maxLength)
  | tensor {items items' : Schema} (dimensions : List Nat) :
      T items items' →
      Corresponds encodings T (.tensor items dimensions)
        (.tensor items' dimensions)
  | collection {items items' : Schema} (ordered : Bool)
      (maxLength : Option Nat) :
      T items items' →
      Corresponds encodings T (.collection items ordered maxLength)
        (.collection items' ordered maxLength)
  | mapping {keys keys' values values' : Schema} :
      T keys keys' → T values values' →
      Corresponds encodings T (.mapping keys values) (.mapping keys' values')
  | record {fields fields' : List (Bytes × Schema)} :
      (Schema.record fields).NamesIncrease →
      (Schema.record fields').NamesIncrease →
      (∀ f ∈ fields, ∃ f', (f.1, f') ∈ fields' ∧ T f.2 f') →
      (∀ f' ∈ fields', ∃ f, (f'.1, f) ∈ fields ∧ T f f'.2) →
      Corresponds encodings T (.record fields) (.record fields')
  | union {ps ps' : List Schema} :
      (∀ p ∈ ps, ∃ p' ∈ ps', T p p') → (∀ p' ∈ ps', ∃ p ∈ ps, T p p') →
      Corresponds encodings T (.union ps) (.union ps')

theorem Corresponds.symm
    {s s' : Schema} (h : Corresponds encodings T s s') :
    Corresponds (Function.swap encodings) (Function.swap T) s' s := by
  cases h with
  | anything => exact .anything
  | nothing => exact .nothing
  | null => exact .null
  | boolean => exact .boolean
  | number => exact .number _ _ _
  | string maxLength hcharset => exact .string maxLength hcharset
  | tensor dimensions hitems => exact .tensor dimensions hitems
  | collection ordered maxLength hitems =>
      exact .collection ordered maxLength hitems
  | mapping hkeys hvalues => exact .mapping hkeys hvalues
  | record hnames hnames' hfields hfields' =>
      exact .record hnames' hnames hfields' hfields
  | union hps hps' => exact .union hps' hps

theorem Corresponds.kind_eq
    {s s' : Schema} (h : Corresponds encodings T s s') : s'.kind = s.kind := by
  cases h <;> rfl

theorem Corresponds.definite
    {s s' : Schema} (h : Corresponds encodings T s s') (hs : s.Definite) :
    s'.Definite := by
  unfold Definite at hs ⊢
  rwa [h.kind_eq]

/-- What the second of two corresponding schemas chooses from comes from what
the first one chooses from. -/
theorem Corresponds.exists_alternative
    {s s' : Schema} (h : Corresponds encodings T s s') (hT : T s s')
    {q' : Schema} (hq' : q' ∈ s'.alternatives) :
    ∃ q ∈ s.alternatives, T q q' := by
  by_cases hkind : s.kind = .union
  · cases h with
    | union _ hback => exact hback q' hq'
    | _ => cases hkind
  · have hkind' : s'.kind ≠ .union := by rwa [h.kind_eq]
    have halone : s.alternatives = [s] :=
      alternatives_of_ne_union fun ps hps => hkind (by rw [hps]; rfl)
    have halone' : s'.alternatives = [s'] :=
      alternatives_of_ne_union fun ps hps => hkind' (by rw [hps]; rfl)
    rw [halone', List.mem_singleton] at hq'
    exact ⟨s, by simp [halone], hq' ▸ hT⟩

/-- A node with other schemas inside corresponds to it if they are related to
those they take the place of. -/
theorem corresponds_mapNode
    {rename : Bytes → Bytes} {g : Schema → Schema} {s : Schema}
    (hkind : s.kind ≠ .reference) (hnames : s.NamesIncrease)
    (hcharset : ∀ charset maxLength, s = .string charset maxLength →
      encodings charset (rename charset))
    (hinside : ∀ c ∈ s.children, T c (g c)) :
    Corresponds encodings T s (s.mapNode rename g) := by
  cases s with
  | anything => exact .anything
  | nothing => exact .nothing
  | null => exact .null
  | boolean => exact .boolean
  | number whole signed nbytes => exact .number whole signed nbytes
  | string charset maxLength =>
      exact .string maxLength (hcharset charset maxLength rfl)
  | tensor items dimensions =>
      exact .tensor dimensions (hinside items (by simp [children]))
  | collection items ordered maxLength =>
      exact .collection ordered maxLength (hinside items (by simp [children]))
  | mapping keys values =>
      exact .mapping (hinside keys (by simp [children]))
        (hinside values (by simp [children]))
  | record fields =>
      refine .record hnames (hnames.mapNode rename g) ?_ ?_
      · intro f hf
        exact ⟨g f.2, List.mem_map.mpr ⟨f, hf, rfl⟩,
          hinside f.2 (List.mem_map_of_mem hf)⟩
      · intro f' hf'
        obtain ⟨f, hf, rfl⟩ := List.mem_map.mp hf'
        exact ⟨f.2, hf, hinside f.2 (List.mem_map_of_mem hf)⟩
  | union ps =>
      refine .union ?_ ?_
      · intro p hp
        exact ⟨g p, List.mem_map_of_mem hp, hinside p hp⟩
      · intro p' hp'
        obtain ⟨p, hp, rfl⟩ := List.mem_map.mp hp'
        exact ⟨p, hp, hinside p hp⟩
  | reference path => exact absurd rfl hkind

/-- The order of the possibilities does not matter. -/
theorem Corresponds.perm
    {s : Schema} {ps qs : List Schema}
    (h : Corresponds encodings T s (.union ps)) (hperm : qs.Perm ps) :
    Corresponds encodings T s (.union qs) := by
  cases h with
  | union hforth hback =>
      refine .union ?_ fun q hq => hback q (hperm.mem_iff.mp hq)
      intro p hp
      obtain ⟨p', hp', hT⟩ := hforth p hp
      exact ⟨p', hperm.mem_iff.mpr hp', hT⟩

/-- Encodings correspond one to one. -/
def OneToOne (encodings : Bytes → Bytes → Prop) : Prop :=
  ∀ c c' d d', encodings c c' → encodings d d' → (c = d ↔ c' = d')

section Transfer

variable (hencodings : OneToOne encodings)
  (hR : ∀ x x' y y', T x x' → T y y' → R x y → R' x' y')

include hencodings hR

theorem Corresponds.alike
    {a a' b b' : Schema} (ha : Corresponds encodings T a a')
    (hb : Corresponds encodings T b b') (h : Alike R a b) :
    Alike R' a' b' := by
  cases h with
  | number hwhole hwidth =>
      cases ha
      cases hb
      exact .number hwhole hwidth
  | string hlength =>
      cases ha with
      | string _ hcharset =>
          cases hb with
          | string _ hcharset' =>
              obtain rfl := (hencodings _ _ _ _ hcharset hcharset').mp rfl
              exact .string hlength
  | tensor hitems =>
      cases ha with
      | tensor _ hT =>
          cases hb with
          | tensor _ hT' => exact .tensor (hR _ _ _ _ hT hT' hitems)
  | collection hordered hlength hitems =>
      cases ha with
      | collection _ _ hT =>
          cases hb with
          | collection _ _ hT' =>
              exact .collection hordered hlength (hR _ _ _ _ hT hT' hitems)
  | mapping hkeys hvalues =>
      cases ha with
      | mapping hTkeys hTvalues =>
          cases hb with
          | mapping hTkeys' hTvalues' =>
              exact .mapping (hR _ _ _ _ hTkeys hTkeys' hkeys)
                (hR _ _ _ _ hTvalues hTvalues' hvalues)
  | record hfields =>
      cases ha with
      | record _ _ _ hback =>
          cases hb with
          | record _ hnames hforth _ =>
              refine .record fun f' hf' => ?_
              obtain ⟨f, hf, hT⟩ := hback f' hf'
              obtain ⟨g, hg, hfg⟩ := hfields _ hf
              obtain ⟨g', hg', hT'⟩ := hforth _ (mem_values_of_field? hg)
              exact ⟨g', field?_of_mem hnames hg', hR _ _ _ _ hT hT' hfg⟩

/-- Schemas that correspond to one and the same cover each other. -/
theorem Corresponds.justified_self
    (hself : ∀ x, R x x) (root : Option Schema) {s a b : Schema}
    (ha : Corresponds encodings T s a) (hb : Corresponds encodings T s b) :
    Justified root R' a b := by
  have hboth : ∀ x a b, T x a → T x b → R' a b :=
    fun x a b hxa hxb => hR _ _ _ _ hxa hxb (hself x)
  have hbound : ∀ bound : Option Nat, ∀ n ∈ bound, ∃ n' ∈ bound, n' ≤ n :=
    fun _ n hn => ⟨n, hn, le_rfl⟩
  cases ha with
  | string maxLength hcharset =>
      cases hb with
      | string _ hcharset' =>
          obtain rfl := (hencodings _ _ _ _ hcharset hcharset').mp rfl
          exact .same _
  | tensor dimensions hT =>
      cases hb with
      | tensor _ hT' => exact .alike (.tensor (hboth _ _ _ hT hT'))
  | collection ordered maxLength hT =>
      cases hb with
      | collection _ _ hT' =>
          exact .alike (.collection id (hbound _) (hboth _ _ _ hT hT'))
  | mapping hkeys hvalues =>
      cases hb with
      | mapping hkeys' hvalues' =>
          exact .alike (.mapping (hboth _ _ _ hkeys hkeys')
            (hboth _ _ _ hvalues hvalues'))
  | record hnames hnames' hforth hback =>
      have hrefl : Alike R (.record _) (.record _) :=
        .record fun f hf => ⟨f.2, field?_of_mem hnames hf, hself f.2⟩
      exact .alike (Corresponds.alike hencodings hR
        (.record hnames hnames' hforth hback) hb hrefl)
  | union hps _ =>
      cases hb with
      | union _ hqs =>
          refine .superUnion fun q' hq' => ?_
          obtain ⟨q, hq, hT⟩ := hqs q' hq'
          obtain ⟨p', hp', hT'⟩ := hps q hq
          exact ⟨p', hp', hboth _ _ _ hT' hT⟩
  | _ =>
      cases hb
      exact .same _

/-- A rule that justifies two schemas justifies those that correspond to
them. -/
theorem Corresponds.justified
    (hself : ∀ x, R x x) {root : Option Schema} (root' : Option Schema)
    {a a' b b' : Schema} (haT : T a a') (hbT : T b b')
    (ha : Corresponds encodings T a a') (hb : Corresponds encodings T b b')
    (h : Justified root R a b) : Justified root' R' a' b' := by
  cases h with
  | anything =>
      cases ha
      exact .anything b'
  | same => exact ha.justified_self hencodings hR hself root' hb
  | nothing =>
      cases hb
      exact .nothing a'
  | superReference => cases ha
  | superUnion hall =>
      cases ha with
      | union hps _ =>
          refine .superUnion fun q' hq' => ?_
          obtain ⟨q, hq, hT⟩ := hb.exists_alternative hbT hq'
          obtain ⟨p, hp, hpq⟩ := hall q hq
          obtain ⟨p', hp', hT'⟩ := hps p hp
          exact ⟨p', hp', hR _ _ _ _ hT' hT hpq⟩
  | subReference => cases hb
  | subUnion hdefinite hq hcovers =>
      cases hb with
      | union hqs _ =>
          obtain ⟨q', hq', hT⟩ := hqs _ hq
          exact .subUnion (ha.definite hdefinite) hq'
            (hR _ _ _ _ haT hT hcovers)
  | alike halike => exact .alike (ha.alike hencodings hR hb halike)

end Transfer

/-- A relation of schemas whose opened nodes correspond. -/
structure Simulation (encodings : Bytes → Bytes → Prop)
    (T : Schema → Schema → Prop) : Prop where
  oneToOne : OneToOne encodings
  unwrap : ∀ {s s'}, T s s' → T s.unwrap s'.unwrap
  node : ∀ {s s'}, T s s' → Corresponds encodings T s.unwrap s'.unwrap

theorem Simulation.symm (h : Simulation encodings T) :
    Simulation (Function.swap encodings) (Function.swap T) where
  oneToOne := fun _ _ _ _ hc hd => (h.oneToOne _ _ _ _ hc hd).symm
  unwrap := h.unwrap
  node := fun hT => (h.node hT).symm

theorem covers_self (root : Option Schema) (s : Schema) : Covers root s s := by
  rw [covers_iff]
  exact .same _

theorem Simulation.covers
    (h : Simulation encodings T) {root : Option Schema}
    (root' : Option Schema) {a a' b b' : Schema} (ha : T a a') (hb : T b b')
    (hab : Covers root a b) : Covers root' a' b' := by
  -- The pairs related to a pair that is covered are consistent with the rules,
  -- and what is consistent with them is covered.
  let R' : Schema → Schema → Prop := fun x' y' =>
    ∃ x y, T x x' ∧ T y y' ∧ Covers root x y
  have hle : R' ≤ Covers root' := by
    apply OrderHom.le_gfp
    rintro x' y' ⟨x, y, hx, hy, hxy⟩
    have hR : ∀ p p' q q', T p p' → T q q' → Covers root p q → R' p' q' :=
      fun p p' q q' hp hq hpq => ⟨p, q, hp, hq, hpq⟩
    exact (h.node hx).justified h.oneToOne hR (covers_self root) root'
      (h.unwrap hx) (h.unwrap hy) (h.node hy) ((covers_iff root x y).mp hxy)
  exact hle a' b' ⟨a, b, ha, hb, hab⟩

theorem Simulation.covers_iff
    (h : Simulation encodings T) (root root' : Option Schema)
    {a a' b b' : Schema} (ha : T a a') (hb : T b b') :
    Covers root' a' b' ↔ Covers root a b :=
  ⟨h.symm.covers root ha hb, h.covers root' ha hb⟩

/-- Related schemas without references have the same answer. -/
theorem Simulation.isSubtype_eq
    (h : Simulation encodings T) {a a' b b' : Schema}
    (ha : T a a') (hb : T b b') (hafree : a.ReferenceFree)
    (hbfree : b.ReferenceFree) (hafree' : a'.ReferenceFree)
    (hbfree' : b'.ReferenceFree) : a'.isSubtype b' = a.isSubtype b := by
  obtain ⟨answer, hanswer⟩ := exists_isSubtypeIn_of_referenceFree hafree hbfree
  obtain ⟨answer', hanswer'⟩ :=
    exists_isSubtypeIn_of_referenceFree hafree' hbfree'
  have hagree : answer' = true ↔ answer = true := by
    rw [isSubtypeIn_iff_covers (hanswer' none),
      isSubtypeIn_iff_covers (hanswer none)]
    exact h.covers_iff none none ha hb
  rw [isSubtype, isSubtype, hanswer, hanswer', Bool.eq_iff_iff.mpr hagree]

end Subtyping

end Schemata
