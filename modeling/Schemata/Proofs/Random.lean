import Schemata.Random
import Schemata.Proofs.Schema.Built

/-!
# What random schemas can be

Choices are made by a function that changes a state.  Nothing is assumed about
the function, so what is shown holds for every generator and for every sequence
of choices.  There is one rule for each way to combine actions, and from these
follows what a random schema is, whatever was chosen: it is built in no more
layers than were asked for, without references, and from unions that are given
something to choose from.  The constructors accept all that can be chosen.
-/

namespace Schemata

section Rules

variable {σ α β : Type} {mayFail : Prop}

/-- Whatever is chosen, the result has a property, and there is one unless
failing is allowed. -/
def Always (mayFail : Prop) (x : ExceptT ConstructionError (StateM σ) α)
    (post : α → Prop) : Prop :=
  ∀ start, match (x.run.run start).1 with
    | .ok a => post a
    | .error _ => mayFail

variable {x : ExceptT ConstructionError (StateM σ) α}
  {f : α → ExceptT ConstructionError (StateM σ) β}
  {post : α → Prop} {post' : β → Prop}

theorem Always.mono
    {post'' : α → Prop} (hx : Always mayFail x post)
    (h : ∀ a, post a → post'' a) : Always mayFail x post'' := by
  intro start
  have hresult := hx start
  split at hresult <;> simp_all

theorem Always.of_run
    {start : σ} {a : α} (hx : Always mayFail x post)
    (h : (x.run.run start).1 = .ok a) : post a := by
  have hresult := hx start
  rwa [h] at hresult

theorem Always.exists_run (hx : Always False x post) (start : σ) :
    ∃ a, (x.run.run start).1 = .ok a ∧ post a := by
  have hresult := hx start
  cases hrun : (x.run.run start).1 with
  | ok a =>
      rw [hrun] at hresult
      exact ⟨a, rfl, hresult⟩
  | error e =>
      rw [hrun] at hresult
      exact hresult.elim

theorem always_pure {a : α} (h : post a) :
    Always mayFail (pure a : ExceptT ConstructionError (StateM σ) α) post :=
  fun _ => h

theorem always_bind
    (h : Always mayFail x fun a => Always mayFail (f a) post') :
    Always mayFail (x >>= f) post' := by
  intro start
  have hresult := h start
  simp only [ExceptT.run_bind, StateT.run_bind]
  cases hrun : x.run.run start with
  | mk result next =>
      rw [hrun] at hresult
      cases result with
      | ok a => exact hresult next
      | error e => exact hresult

theorem always_map
    {g : α → β} (h : Always mayFail x fun a => post' (g a)) :
    Always mayFail (g <$> x) post' := by
  rw [map_eq_pure_bind]
  exact always_bind (h.mono fun a ha => always_pure ha)

/-- A constructor that accepts its attributes. -/
theorem always_constructed
    {result : Except ConstructionError Schema} {post : Schema → Prop}
    (hresult : ∃ s, result = .ok s) (h : ∀ s, result = .ok s → post s) :
    Always mayFail (Random.constructed result :
      ExceptT ConstructionError (StateM σ) Schema) post := by
  obtain ⟨s, rfl⟩ := hresult
  exact fun _ => h s rfl

theorem always_several
    (hx : Always mayFail x post) (count : Nat) :
    Always mayFail (Random.several x count) fun as =>
      as.length = count ∧ ∀ a ∈ as, post a := by
  induction count with
  | zero => exact always_pure ⟨rfl, by simp⟩
  | succ count ih =>
      refine always_bind (hx.mono fun a ha => ?_)
      refine always_bind (ih.mono fun as has => always_pure ?_)
      exact ⟨by simp [has.1], List.forall_mem_cons.mpr ⟨ha, has.2⟩⟩

theorem unionM_eq_constructed (given : List (Option Schema)) :
    (Build.unionM given : ExceptT ConstructionError (StateM σ) Schema) =
      Random.constructed (Build.union given) :=
  Union.unionM_eq given

variable [MonadChoose (StateM σ)]

theorem always_choose
    {last : Nat} {post : Fin (last + 1) → Prop} (h : ∀ i, post i) :
    Always mayFail
      (choose last : ExceptT ConstructionError (StateM σ) _) post :=
  fun _ => h _

theorem always_chooseFirst {post : Bool → Prop} (h : ∀ b, post b) :
    Always mayFail
      (chooseFirst : ExceptT ConstructionError (StateM σ) _) post :=
  always_bind (always_choose fun _ => always_pure (h _))

theorem always_chooseFrom
    {a : α} {as : List α} (h : ∀ b ∈ a :: as, post b) :
    Always mayFail
      (chooseFrom a as : ExceptT ConstructionError (StateM σ) _) post :=
  always_bind (always_choose fun i =>
    always_pure (h _ (List.get_mem (a :: as) i)))

end Rules

namespace Random

/-- The schemas that are built in at most some number of layers, without
references and with something to choose from in every union. -/
inductive Drawn : Nat → Schema → Prop
  | anything {depth : Nat} : Drawn depth .anything
  | nothing {depth : Nat} : Drawn depth .nothing
  | null {depth : Nat} : Drawn depth .null
  | boolean {depth : Nat} : Drawn depth .boolean
  | number {depth : Nat} {whole signed : Bool} {nbytes : Int} {s : Schema} :
      Build.number whole signed nbytes = .ok s → Drawn depth s
  | string {depth : Nat} {charset : Bytes} {length : Int} {s : Schema} :
      Build.string charset length = .ok s → Drawn depth s
  | tensor {depth : Nat} {items s : Schema} {extents : List Int} :
      Drawn depth items → Build.tensor (some items) extents = .ok s →
      Drawn (depth + 1) s
  | collection {depth : Nat} {items s : Schema} {ordered : Bool}
      {length : Int} :
      Drawn depth items →
      Build.collection (some items) ordered length = .ok s →
      Drawn (depth + 1) s
  | mapping {depth : Nat} {keys values s : Schema} :
      Drawn 0 keys → Drawn depth values →
      Build.mapping (some keys) (some values) = .ok s → Drawn (depth + 1) s
  | record {depth : Nat} {entries : List (Bytes × Option Schema)} {s : Schema} :
      (∀ e ∈ entries, ∀ f ∈ e.2, Drawn depth f) →
      Build.record entries = .ok s → Drawn (depth + 1) s
  | union {depth : Nat} {given : List Schema} {s : Schema} :
      given ≠ [] → (∀ p ∈ given, Drawn depth p) →
      Build.union (given.map some) = .ok s → Drawn (depth + 1) s

theorem Drawn.built {depth : Nat} {s : Schema} (h : Drawn depth s) :
    s.Built := by
  induction h with
  | anything => exact .anything
  | nothing => exact .nothing
  | null => exact .null
  | boolean => exact .boolean
  | number hbuild => exact .number hbuild
  | string hbuild => exact .string hbuild
  | tensor _ hbuild ih => exact .tensor ih hbuild
  | collection _ hbuild ih => exact .collection ih hbuild
  | mapping _ _ hbuild ihkeys ihvalues => exact .mapping ihkeys ihvalues hbuild
  | record _ hbuild ih => exact .record ih hbuild
  | union _ _ hbuild ih => exact .union ih hbuild

variable {σ : Type} [MonadChoose (StateM σ)] {mayFail : Prop}

theorem always_charset :
    Always mayFail (charset : ExceptT ConstructionError (StateM σ) Bytes)
      (· ≠ []) :=
  always_chooseFrom (by decide)

theorem always_length :
    Always mayFail (length : ExceptT ConstructionError (StateM σ) Int)
      (-1 ≤ ·) := by
  refine always_bind (always_chooseFirst fun first => ?_)
  cases first with
  | true => exact always_pure le_rfl
  | false =>
      refine always_bind (always_choose fun i => always_pure ?_)
      omega

theorem always_number {depth : Nat} :
    Always mayFail (number : ExceptT ConstructionError (StateM σ) Schema)
      (Drawn depth) := by
  refine always_bind (always_chooseFirst fun whole => ?_)
  refine always_bind (always_chooseFirst fun signed => ?_)
  refine always_bind (always_chooseFrom fun nbytes hnbytes => ?_)
  have hpositive : 0 < nbytes := by
    revert nbytes
    decide
  exact always_constructed (Build.exists_number hpositive)
    fun s hs => .number hs

theorem always_string {depth : Nat} :
    Always mayFail (string : ExceptT ConstructionError (StateM σ) Schema)
      (Drawn depth) := by
  refine always_bind (always_charset.mono fun charset hcharset => ?_)
  refine always_bind (always_length.mono fun length hlength => ?_)
  exact always_constructed (Build.exists_string hcharset hlength)
    fun s hs => .string hs

theorem always_atom (depth : Nat) :
    Always mayFail (atom : ExceptT ConstructionError (StateM σ) Schema)
      (Drawn depth) := by
  refine always_bind (always_choose fun i => ?_)
  split
  case h_1 => exact always_pure .null
  case h_2 => exact always_pure .boolean
  case h_3 | h_4 | h_5 => exact always_number
  case h_6 =>
    refine always_bind (always_choose fun j => ?_)
    split
    · exact always_pure .anything
    · exact always_pure .nothing
  case h_7 => exact always_string

theorem always_extents (rank : Nat) :
    Always mayFail
      (several (do return Int.ofNat ((← choose 4).val + 1)) rank :
        ExceptT ConstructionError (StateM σ) (List Int))
      fun extents => extents.length = rank ∧ ∀ d ∈ extents, 1 ≤ d :=
  always_several
    (always_bind (always_choose fun _ => always_pure (by simp))) rank

theorem always_fieldName :
    Always mayFail (fieldName : ExceptT ConstructionError (StateM σ) Bytes)
      (· ≠ []) :=
  always_bind (always_choose fun _ => always_pure (List.cons_ne_nil _ _))

section Parts

variable {depth : Nat} {part : ExceptT ConstructionError (StateM σ) Schema}
  (hpart : Always mayFail part (Drawn depth))
include hpart

theorem always_entries (count : Nat) :
    Always mayFail (several (do return (← fieldName, some (← part))) count)
      fun entries => ∀ e ∈ entries, e.1 ≠ [] ∧ ∃ f, e.2 = some f ∧
        Drawn depth f := by
  refine (always_several ?_ count).mono fun _ h => h.2
  refine always_bind (always_fieldName.mono fun name hname => ?_)
  exact always_bind (hpart.mono fun f hf => always_pure ⟨hname, f, rfl, hf⟩)

omit [MonadChoose (StateM σ)] in
theorem always_possibilities (count : Nat) :
    Always mayFail (several (some <$> part) count) fun possibilities =>
      ∃ given : List Schema, possibilities = given.map some ∧
        given.length = count ∧ ∀ p ∈ given, Drawn depth p := by
  induction count with
  | zero => exact always_pure ⟨[], rfl, rfl, by simp⟩
  | succ count ih =>
      refine always_bind (always_map (hpart.mono fun p hp => ?_))
      refine always_bind (ih.mono ?_)
      rintro _ ⟨given, rfl, hcount, hdrawn⟩
      exact always_pure ⟨p :: given, rfl, by simp [hcount],
        List.forall_mem_cons.mpr ⟨hp, hdrawn⟩⟩

end Parts

theorem always_layered (depth : Nat) :
    Always mayFail
      (layered depth : ExceptT ConstructionError (StateM σ) Schema)
      (Drawn depth) := by
  induction depth with
  | zero => exact always_atom 0
  | succ depth ih =>
      refine always_bind (always_choose fun i => ?_)
      -- The cases come in the order of the choices; some kinds have two.
      split
      case h_1 | h_2 => exact always_atom _
      case h_3 =>
        -- Tensors, of at least one extent since one is added to the choice.
        refine always_bind (always_choose fun last => ?_)
        refine always_bind ((always_extents _).mono ?_)
        rintro extents ⟨hrank, hmin⟩
        refine always_bind (ih.mono fun items hitems => ?_)
        have hne : extents ≠ [] := by
          rintro rfl
          simp at hrank
        exact always_constructed (Build.exists_tensor hne hmin)
          fun s hs => .tensor hitems hs
      case h_4 | h_5 =>
        -- Collections.
        refine always_bind (ih.mono fun items hitems => ?_)
        refine always_bind (always_chooseFirst fun ordered => ?_)
        refine always_bind (always_length.mono fun length hlength => ?_)
        exact always_constructed (Build.exists_collection hlength)
          fun s hs => .collection hitems hs
      case h_6 =>
        -- Mappings, whose keys have no parts.
        refine always_bind ((always_atom 0).mono fun keys hkeys => ?_)
        refine always_bind (ih.mono fun values hvalues => ?_)
        exact always_constructed ⟨_, rfl⟩ fun s hs => .mapping hkeys hvalues hs
      case h_7 | h_8 =>
        -- Records; of two fields with one name the later one counts.
        refine always_bind (always_choose fun last => ?_)
        refine always_bind ((always_entries ih _).mono fun entries h => ?_)
        refine always_constructed (Build.exists_record ?_) ?_
        · intro e he
          obtain ⟨hname, f, hf, _⟩ := h e he
          exact ⟨hname, by simp [hf]⟩
        · intro s hs
          refine .record ?_ hs
          intro e he f hf
          obtain ⟨_, f', hf', hdrawn⟩ := h e he
          cases hf.symm.trans hf'
          exact hdrawn
      case h_9 =>
        -- Unions of at least one schema.
        refine always_bind (always_choose fun last => ?_)
        refine always_bind ((always_possibilities ih _).mono ?_)
        rintro _ ⟨given, rfl, hcount, hdrawn⟩
        have hne : given ≠ [] := by
          rintro rfl
          simp at hcount
        rw [unionM_eq_constructed]
        exact always_constructed ⟨_, Union.build_union given⟩
          fun s hs => .union hne hdrawn hs

/-- A random schema is drawn in at most the layers asked for, and is always
there. -/
theorem always_schema (depth : Int) :
    Always mayFail (schema depth : ExceptT ConstructionError (StateM σ) Schema)
      (Drawn depth.toNat) := by
  rw [schema]
  split
  · exact always_atom depth.toNat
  · exact always_layered depth.toNat

end Random

end Schemata
