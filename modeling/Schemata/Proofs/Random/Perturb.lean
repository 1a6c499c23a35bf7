import Schemata.Random.Perturb
import Schemata.Proofs.Random
import Schemata.Proofs.Rebuild.PostOrder

/-!
# What random changes can give

A changed schema goes through the constructors at the node that is changed and
at every node above it.  So whatever is chosen, a change that does not fail
gives a schema that could have been built, as long as the schema it starts from
could.

The constructors accept what they are given, with one exception.  Doubling a
width and adding one to an extent wrap around at 64 bits, so a change may fail
where a width or an extent is at its limit.
-/

namespace Schemata

namespace Schema

/-- The width cannot be doubled, or an extent not be larger by one, in 64 bits
with a sign. -/
def NodeAtLimit : Schema → Prop
  | .number _ _ nbytes => 2 ^ 62 ≤ nbytes
  | .tensor _ dimensions => ∃ d ∈ dimensions, 2 ^ 63 ≤ d + 1
  | _ => False

/-- Some node is at its limit. -/
def AtLimit (s : Schema) : Prop := ∃ p ∈ s.postorder, p.NodeAtLimit

theorem atLimit_iff {s : Schema} :
    s.AtLimit ↔ (∃ c ∈ s.children, c.AtLimit) ∨ s.NodeAtLimit := by
  constructor
  · rintro ⟨p, hp, hat⟩
    rw [postorder_eq] at hp
    rcases List.mem_append.mp hp with hinside | hself
    · obtain ⟨c, hc, hpc⟩ := List.mem_flatMap.mp hinside
      exact .inl ⟨c, hc, p, hpc, hat⟩
    · rw [List.mem_singleton.mp hself] at hat
      exact .inr hat
  · rintro (⟨c, hc, p, hp, hat⟩ | hat)
    · refine ⟨p, ?_, hat⟩
      rw [postorder_eq]
      exact List.mem_append_left _ (List.mem_flatMap.mpr ⟨c, hc, hp⟩)
    · refine ⟨s, ?_, hat⟩
      rw [postorder_eq]
      exact List.mem_append_right _ (List.mem_singleton_self s)

end Schema

section Rules

variable {σ : Type} {mayFail : Prop}

/-- A constructor that accepts its attributes, unless failing is allowed. -/
theorem always_attempted
    {result : Except ConstructionError Schema} {post : Schema → Prop}
    (hresult : ¬ mayFail → ∃ s, result = .ok s)
    (h : ∀ s, result = .ok s → post s) :
    Always mayFail (Random.constructed result :
      ExceptT ConstructionError (StateM σ) Schema) post := by
  by_cases hfail : mayFail
  · cases result with
    | ok s => exact fun _ => h s rfl
    | error e => exact fun _ => hfail
  · exact always_constructed (hresult hfail) h

end Rules

namespace Perturb

open Schema Schemata.Random

theorem wrap_of_lt {n : Int} (hlow : 0 ≤ n) (hhigh : n < 2 ^ 63) :
    wrap n = n := by
  simp only [wrap, Int.bmod_def, wordCount]
  split <;> omega

theorem mem_modify
    {α : Type} {f : α → α} {i : Nat} {xs : List α} {y : α}
    (h : y ∈ xs.modify i f) : y ∈ xs ∨ ∃ x ∈ xs, y = f x := by
  obtain ⟨j, hj, rfl⟩ := List.getElem_of_mem h
  have hj' : j < xs.length := by rwa [List.length_modify] at hj
  rw [List.getElem_modify]
  split
  · exact .inr ⟨_, List.getElem_mem hj', rfl⟩
  · exact .inl (List.getElem_mem hj')

/-- A width can be doubled unless it is at its limit. -/
theorem exists_number_doubled
    {whole signed : Bool} {nbytes : Nat}
    (hs : (number whole signed nbytes).NodeWellFormed)
    (hlimit : ¬ (number whole signed nbytes).NodeAtLimit) :
    ∃ t, Build.number whole signed (wrap (nbytes * 2)) = .ok t := by
  rw [NodeWellFormed] at hs
  rw [NodeAtLimit] at hlimit
  rw [wrap_of_lt (by omega) (by omega)]
  exact Build.exists_number (by omega)

/-- An extent can be larger by one unless an extent is at its limit. -/
theorem exists_tensor_larger
    {items : Schema} {dimensions : List Nat}
    (hs : (tensor items dimensions).NodeWellFormed)
    (hlimit : ¬ (tensor items dimensions).NodeAtLimit) (i : Nat) :
    ∃ t, Build.tensor (some items)
      ((dimensions.map Int.ofNat).modify i fun d => wrap (d + 1)) = .ok t := by
  obtain ⟨hne, hmin⟩ := hs
  have hbelow : ∀ d ∈ dimensions, d + 1 < 2 ^ 63 :=
    fun d hd => Nat.lt_of_not_le fun hle => hlimit ⟨d, hd, hle⟩
  refine Build.exists_tensor (by simpa [List.modify_eq_nil_iff] using hne) ?_
  intro e he
  rcases mem_modify he with he | ⟨x, hx, rfl⟩
  · obtain ⟨d, hd, rfl⟩ := List.mem_map.mp he
    exact Int.ofNat_le.mpr (hmin d hd)
  · obtain ⟨d, hd, rfl⟩ := List.mem_map.mp hx
    have hd' := hbelow d hd
    rw [Int.ofNat_eq_natCast, wrap_of_lt (by omega) (by omega)]
    omega

variable {σ : Type} {mayFail : Prop}

/-- Records whose fields have names and could have been built. -/
theorem always_record
    {entries : List (Bytes × Option Schema)}
    (h : ∀ e ∈ entries, e.1 ≠ [] ∧ ∃ f, e.2 = some f ∧ Built f) :
    Always mayFail (constructed (Build.record entries) :
      ExceptT ConstructionError (StateM σ) Schema) Built := by
  refine always_constructed (Build.exists_record ?_) fun t ht => .record ?_ ht
  · intro e he
    obtain ⟨hname, f, hf, _⟩ := h e he
    exact ⟨hname, by simp [hf]⟩
  · intro e he f hf
    obtain ⟨_, f', hf', hbuilt⟩ := h e he
    cases hf.symm.trans hf'
    exact hbuilt

variable [MonadChoose (StateM σ)]

theorem always_atom_built :
    Always mayFail (atom : ExceptT ConstructionError (StateM σ) Schema)
      Built :=
  (always_atom 0).mono fun _ h => h.built

theorem always_record_added
    {entries : List (Bytes × Option Schema)} {name : Bytes}
    (hentries : ∀ e ∈ entries, e.1 ≠ [] ∧ ∃ f, e.2 = some f ∧ Built f)
    (hname : name ≠ []) :
    Always mayFail (do
      let added ← atom
      constructed (Build.record (entries ++ [(name, some added)])) :
        ExceptT ConstructionError (StateM σ) Schema) Built := by
  refine always_bind (always_atom_built.mono fun added hadded => ?_)
  refine always_record fun e he => ?_
  rcases List.mem_append.mp he with he | he
  · exact hentries e he
  · rw [List.mem_singleton.mp he]
    exact ⟨hname, added, rfl, hadded⟩

/-- Changing the outermost node of a well-formed schema. -/
theorem always_modify
    {s : Schema} (hs : s.WellFormed) (hlimit : s.NodeAtLimit → mayFail) :
    Always mayFail (modify s : ExceptT ConstructionError (StateM σ) Schema)
      Built := by
  obtain ⟨hnode, hchildren⟩ := hs
  cases s with
  | number whole signed nbytes =>
      have hpositive : (0 : Int) < nbytes := Int.natCast_pos.mpr hnode
      refine always_bind (always_choose fun i => ?_)
      split
      · exact always_constructed (Build.exists_number hpositive)
          fun t ht => .number ht
      · exact always_constructed (Build.exists_number hpositive)
          fun t ht => .number ht
      · refine always_attempted ?_ ?_
        · exact fun hsure => exists_number_doubled hnode (hsure ∘ hlimit)
        · intro t ht
          exact .number ht
  | string charset maxLength =>
      refine always_bind (always_chooseFirst fun first => ?_)
      split
      · refine always_bind (always_charset.mono fun charset hcharset => ?_)
        exact always_constructed
          ⟨_, Build.string_eq_ok_iff.mpr ⟨hcharset, maxLength, rfl, rfl⟩⟩
          fun t ht => .string ht
      · refine always_bind (always_length.mono fun length hlength => ?_)
        exact always_constructed (Build.exists_string hnode hlength)
          fun t ht => .string ht
  | tensor items dimensions =>
      have hitems : items.Built := (hchildren items (by simp [children])).built
      refine always_bind (always_chooseFirst fun first => ?_)
      split
      · refine always_bind (always_choose fun i => ?_)
        exact always_attempted
          (fun hsure => exists_tensor_larger hnode (hsure ∘ hlimit) i)
          fun t ht => .tensor hitems ht
      · refine always_bind (always_choose fun last => ?_)
        have hmin : ∀ d ∈ dimensions.map Int.ofNat ++
            [Int.ofNat (last.val + 1)], 1 ≤ d := by
          simpa [forall_and, or_imp] using hnode.2
        exact always_constructed (Build.exists_tensor (by simp) hmin)
          fun t ht => .tensor hitems ht
  | collection items ordered maxLength =>
      have hitems : items.Built := (hchildren items (by simp [children])).built
      refine always_bind (always_chooseFirst fun first => ?_)
      split
      · exact always_constructed
          ⟨_, Build.collection_eq_ok_iff.mpr ⟨maxLength, rfl, rfl⟩⟩
          fun t ht => .collection hitems ht
      · refine always_bind (always_length.mono fun length hlength => ?_)
        exact always_constructed (Build.exists_collection hlength)
          fun t ht => .collection hitems ht
  | record fields =>
      have hentries : ∀ e ∈ fields.map fun x => (x.1, some x.2),
          e.1 ≠ [] ∧ ∃ f, e.2 = some f ∧ Built f := by
        refine List.forall_mem_map.mpr fun x hx => ?_
        exact ⟨hnode.1 x hx, x.2, rfl,
          (hchildren x.2 (List.mem_map_of_mem hx)).built⟩
      have hname : ("f" : Bytes) ++ decimal fields.length ≠ [] :=
        List.append_ne_nil_of_left_ne_nil (by decide) _
      rw [modify]
      split
      · exact always_bind (always_pure (always_record_added hentries hname))
      · refine always_bind (always_chooseFirst fun erase => ?_)
        cases erase with
        | false => exact always_record_added hentries hname
        | true =>
            refine always_bind (always_choose fun i => always_record ?_)
            exact fun e he => hentries e (List.mem_of_mem_eraseIdx he)
  | union possibilities =>
      refine always_bind (always_atom_built.mono fun added hadded => ?_)
      rw [unionM_eq_constructed]
      refine always_constructed ⟨_, Union.build_union _⟩ fun t ht =>
        .union ?_ ht
      intro p hp
      rcases List.mem_append.mp hp with hp | hp
      · exact (hchildren p hp).built
      · rwa [List.mem_singleton.mp hp]
  | reference path => exact always_pure (.reference _)
  | _ => exact always_atom_built

theorem always_target {children : Nat} {post : Option Nat → Prop}
    (h : ∀ place, post place) :
    Always mayFail (target children :
      ExceptT ConstructionError (StateM σ) (Option Nat)) post := by
  unfold target
  split
  · exact always_pure (h none)
  · refine always_bind (always_choose fun i => ?_)
    split
    · exact always_pure (h none)
    · exact always_bind (always_choose fun j => always_pure (h _))

theorem always_changeAt
    {ps : List Schema} (hps : ∀ p ∈ ps, p.Built)
    (hchange : ∀ p ∈ ps, Always mayFail
      (change p : ExceptT ConstructionError (StateM σ) Schema) Built)
    (i : Nat) :
    Always mayFail (changeAt i ps : ExceptT ConstructionError (StateM σ) _)
      fun qs => ∀ q ∈ qs, q.Built := by
  induction ps generalizing i with
  | nil =>
      rw [changeAt]
      exact always_pure (by simp)
  | cons p ps ih =>
      obtain ⟨hp, hps⟩ := List.forall_mem_cons.mp hps
      obtain ⟨hchangeFirst, hchange⟩ := List.forall_mem_cons.mp hchange
      cases i with
      | zero =>
          rw [changeAt]
          exact always_bind (hchangeFirst.mono fun q hq =>
            always_pure (List.forall_mem_cons.mpr ⟨hq, hps⟩))
      | succ i =>
          rw [changeAt]
          exact always_bind ((ih hps hchange i).mono fun qs hqs =>
            always_pure (List.forall_mem_cons.mpr ⟨hp, hqs⟩))

omit [MonadChoose (StateM σ)] in
theorem changeField_eq
    {m : Type → Type} [Monad m] [LawfulMonad m] [MonadChoose m] [MonadReport m]
    (fields : List (Bytes × Schema)) (i : Nat) :
    (changeField i fields : ExceptT ConstructionError m _) =
      (fields.map Prod.fst).zip <$> changeAt i (fields.map Prod.snd) := by
  induction fields generalizing i with
  | nil => simp [changeField, changeAt]
  | cons f fields ih =>
      cases i with
      | zero => simp [changeField, changeAt, List.zip_map']
      | succ i => simp [changeField, changeAt, ih]

/-- A change of one node, at any depth. -/
theorem always_change
    {s : Schema} (hs : s.WellFormed) (hlimit : s.AtLimit → mayFail) :
    Always mayFail (change s : ExceptT ConstructionError (StateM σ) Schema)
      Built := by
  induction hs with
  | @node s hnode hchildren ih =>
      have hmodify : Always mayFail
          (modify s : ExceptT ConstructionError (StateM σ) Schema) Built :=
        always_modify (.node hnode hchildren)
          fun hat => hlimit (atLimit_iff.mpr (.inr hat))
      have hbuilt : ∀ c ∈ s.children, c.Built :=
        fun c hc => (hchildren c hc).built
      have hinside : ∀ c ∈ s.children, Always mayFail
          (change c : ExceptT ConstructionError (StateM σ) Schema) Built :=
        fun c hc => ih c hc
          fun hat => hlimit (atLimit_iff.mpr (.inl ⟨c, hc, hat⟩))
      cases s with
      | tensor items dimensions =>
          have hitems := hinside items (by simp [children])
          rw [change]
          refine always_bind (always_target fun place => ?_)
          cases place with
          | none => exact hmodify
          | some i =>
              refine always_bind (hitems.mono fun items hitems => ?_)
              exact always_constructed
                ⟨_, Build.tensor_eq_ok_iff.mpr
                  ⟨dimensions, hnode.1, hnode.2, rfl, rfl⟩⟩
                fun t ht => .tensor hitems ht
      | collection items ordered maxLength =>
          have hitems := hinside items (by simp [children])
          rw [change]
          refine always_bind (always_target fun place => ?_)
          cases place with
          | none => exact hmodify
          | some i =>
              refine always_bind (hitems.mono fun items hitems => ?_)
              exact always_constructed
                ⟨_, Build.collection_eq_ok_iff.mpr ⟨maxLength, rfl, rfl⟩⟩
                fun t ht => .collection hitems ht
      | mapping keys values =>
          have hkeys := hbuilt keys (by simp [children])
          have hvalues := hbuilt values (by simp [children])
          rw [change]
          refine always_bind (always_target fun place => ?_)
          split
          · exact hmodify
          · refine always_bind ((hinside keys (by simp [children])).mono ?_)
            intro keys hkeys
            exact always_constructed ⟨_, rfl⟩
              fun t ht => .mapping hkeys hvalues ht
          · refine always_bind ((hinside values (by simp [children])).mono ?_)
            intro values hvalues
            exact always_constructed ⟨_, rfl⟩
              fun t ht => .mapping hkeys hvalues ht
      | record fields =>
          rw [change]
          refine always_bind (always_target fun place => ?_)
          cases place with
          | none => exact hmodify
          | some i =>
              dsimp only
              rw [changeField_eq]
              refine always_bind (always_map
                ((always_changeAt hbuilt hinside i).mono fun qs hqs => ?_))
              refine always_record (List.forall_mem_map.mpr fun x hx => ?_)
              obtain ⟨hname, hq⟩ := List.of_mem_zip hx
              obtain ⟨f, hf, hfirst⟩ := List.mem_map.mp hname
              exact ⟨hfirst ▸ hnode.1 f hf, x.2, rfl, hqs x.2 hq⟩
      | union possibilities =>
          rw [change]
          refine always_bind (always_target fun place => ?_)
          cases place with
          | none => exact hmodify
          | some i =>
              refine always_bind
                ((always_changeAt hbuilt hinside i).mono fun qs hqs => ?_)
              rw [unionM_eq_constructed]
              exact always_constructed ⟨_, Union.build_union _⟩
                fun t ht => .union hqs ht
      | _ =>
          rw [change]
          · exact hmodify
          all_goals simp

/-- A changed copy can be built and is different, however many attempts are
allowed. -/
theorem always_different
    {s : Schema} (hs : s.WellFormed) (hlimit : s.AtLimit → mayFail)
    (attempts : Nat) :
    Always mayFail (different s attempts :
      ExceptT ConstructionError (StateM σ) (Option Schema))
      fun r => ∀ t ∈ r, t.Built ∧ t.same s = false := by
  induction attempts with
  | zero => exact always_pure (by simp)
  | succ attempts ih =>
      refine always_bind ((always_change hs hlimit).mono fun t ht => ?_)
      split
      · exact ih
      · rename_i hdifferent
        exact always_pure (by simpa [hdifferent] using ht)

end Perturb

end Schemata
