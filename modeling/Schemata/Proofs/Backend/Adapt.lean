import Schemata.Backend
import Schemata.Proofs.Rebuild

/-!
# Adapting schemas

A backend that gives every encoding another one rebuilds a well-formed schema
without failing.  Strings change their encodings, and possibilities that become
comparable by that are normalised away, so the result is again well-formed.
-/

namespace Schemata

namespace Schema

/-- The encoding of the outermost node. -/
def charset? : Schema → Option Bytes
  | .string charset _ => some charset
  | _ => none

/-- No string in a schema has the encoding. -/
def LacksCharset (charset : Bytes) (s : Schema) : Prop :=
  ∀ p ∈ s.parts, p.charset? ≠ some charset

instance (charset : Bytes) (s : Schema) : Decidable (s.LacksCharset charset) :=
  inferInstanceAs (Decidable (∀ p ∈ s.parts, p.charset? ≠ some charset))

theorem LacksCharset.part
    {charset : Bytes} {s p : Schema} (hs : s.LacksCharset charset)
    (hp : p ∈ s.parts) : p.LacksCharset charset :=
  fun q hq => hs q (parts_subset_of_mem_parts hp hq)

theorem LacksCharset.child
    {charset : Bytes} {s c : Schema} (hs : s.LacksCharset charset)
    (hc : c ∈ s.children) : c.LacksCharset charset :=
  hs.part (mem_parts_of_mem_children hc)

def recodeNode (rename : Bytes → Bytes) : Schema → Schema
  | .string charset maxLength => .string (rename charset) maxLength
  | s => s

mutual

/-- A schema with all encodings renamed and the unions normalised. -/
def recode (rename : Bytes → Bytes) : Schema → Schema
  | .string charset maxLength => .string (rename charset) maxLength
  | .tensor items dimensions => .tensor (items.recode rename) dimensions
  | .collection items ordered maxLength =>
    .collection (items.recode rename) ordered maxLength
  | .mapping keys values => .mapping (keys.recode rename) (values.recode rename)
  | .record fields => .record (recodeFields rename fields)
  | .union possibilities =>
    .union (Union.possibilities (recodeAll rename possibilities))
  | s => s

def recodeAll (rename : Bytes → Bytes) : List Schema → List Schema
  | [] => []
  | p :: ps => p.recode rename :: recodeAll rename ps

def recodeFields (rename : Bytes → Bytes) :
    List (Bytes × Schema) → List (Bytes × Schema)
  | [] => []
  | (name, f) :: rest => (name, f.recode rename) :: recodeFields rename rest

end

variable {rename : Bytes → Bytes}

@[simp]
theorem recodeAll_eq (ps : List Schema) :
    recodeAll rename ps = ps.map (recode rename) := by
  induction ps with
  | nil => rfl
  | cons p ps ih => rw [recodeAll, ih, List.map_cons]

@[simp]
theorem recodeFields_eq (fields : List (Bytes × Schema)) :
    recodeFields rename fields =
      fields.map fun f => (f.1, f.2.recode rename) := by
  induction fields with
  | nil => rfl
  | cons f rest ih => rw [recodeFields, ih, List.map_cons]

@[simp]
theorem kind_recode (s : Schema) : (s.recode rename).kind = s.kind := by
  cases s <;> rfl

theorem recode_eq_renew (s : Schema) :
    s.recode rename = (s.recodeNode rename).renew (recode rename) := by
  cases s <;> simp [recode, recodeNode, renew]

theorem children_recodeNode (s : Schema) :
    (s.recodeNode rename).children = s.children := by
  cases s <;> rfl

section Named

variable (hrename : ∀ charset, charset ≠ [] → rename charset ≠ [])
include hrename

theorem NodeWellFormed.recodeNode
    {s : Schema} (hs : s.NodeWellFormed) :
    (s.recodeNode rename).NodeWellFormed := by
  cases s with
  | string charset maxLength => exact hrename charset hs
  | _ => exact hs

theorem WellFormed.recode
    {s : Schema} (hs : s.WellFormed) : (s.recode rename).WellFormed := by
  induction hs with
  | @node s hnode _ ih =>
      rw [recode_eq_renew]
      refine .renew (hnode.recodeNode hrename) ?_
      rw [children_recodeNode]
      exact ih

end Named

end Schema

namespace Backend

variable {b : Backend}

theorem adaptLayer_layer (g : Schema → Schema) (s : Schema) :
    b.adaptLayer (s.layer g) = (s.recodeNode b.adaptCharset).layer g := by
  cases s <;> rfl

/-- Adapting a well-formed schema renames its encodings. -/
theorem adapt_eq
    (hb : ∀ charset, charset ≠ [] → b.adaptCharset charset ≠ [])
    {s : Schema} (hs : s.WellFormed) :
    b.adapt s = .ok (s.recode b.adaptCharset) := by
  have hrebuild : s.rebuild (fun l => some <$> (b.adaptLayer l).buildM) =
      (pure (some (s.recode b.adaptCharset)) :
        ExceptT ConstructionError Id _) := by
    refine Schema.rebuild_eq ?_ hs
    intro s hs
    rw [adaptLayer_layer, Schema.buildM_layer _ (hs.recodeNode hb),
      ← Schema.recode_eq_renew, map_pure]
  rw [adapt, adaptM, hrebuild, pure_bind]
  rfl

end Backend

end Schemata
