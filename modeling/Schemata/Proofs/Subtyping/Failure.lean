import Schemata.Proofs.Subtyping.ReferenceFree

/-!
# Comparisons that fail

The references that a comparison meets come from the two schemas, from targets
in the root and from what is left of tensors there, also in alternatives of a
union that are given up.  All of them are parts of the three schemas to begin
with, so a comparison fails only with the error of one of these references.
-/

namespace Schemata

/-- All references in a schema resolve in a root. -/
def Schema.ResolvesIn (s root : Schema) : Prop :=
  ∀ path, .reference path ∈ s.parts →
    ∃ target, Schema.resolve (some root) path = .ok target

namespace Subtyping

/-- A reference is in one of two schemas or in the root. -/
def Mentions (super sub root : Schema) (path : Path) : Prop :=
  .reference path ∈ super.parts ∨ .reference path ∈ sub.parts ∨
    .reference path ∈ root.parts

theorem mem_scope_iff_mentions {super sub root : Schema} {path : Path} :
    .reference path ∈ scope super sub (some root) ↔
      Mentions super sub root path := by
  simp [scope, Mentions]

theorem self_mem_scope (super sub : Schema) (root : Option Schema) :
    super ∈ scope super sub root ∧ sub ∈ scope super sub root := by
  simp [scope]

theorem exists_mentioned_of_isSubtypeIn
    {super sub root : Schema} {e : DereferenceError}
    (h : super.isSubtypeIn sub (some root) = .error e) :
    ∃ path, Mentions super sub root path ∧
      Schema.resolve (some root) path = .error e := by
  obtain ⟨hsuper, hsub⟩ := self_mem_scope super sub (some root)
  obtain ⟨path, hpath, hfails⟩ := exists_unresolved_of_isSubtypeIn
    (closed_scope super sub (some root)) hsuper hsub h
  exact ⟨path, mem_scope_iff_mentions.mp hpath, hfails⟩

theorem exists_isSubtypeIn_of_resolvesIn
    {super sub root : Schema} (hsuper : super.ResolvesIn root)
    (hsub : sub.ResolvesIn root) (hroot : root.ResolvesIn root) :
    ∃ b, super.isSubtypeIn sub (some root) = .ok b := by
  obtain ⟨hsuperScope, hsubScope⟩ := self_mem_scope super sub (some root)
  refine exists_isSubtypeIn_ok (closed_scope super sub (some root)) ?_
    hsuperScope hsubScope
  intro path hpath
  rcases mem_scope_iff_mentions.mp hpath with hpath | hpath | hpath
  · exact hsuper path hpath
  · exact hsub path hpath
  · exact hroot path hpath

/-- The comparison of two schemas comes to an answer by itself, and not because
its depth is used up. -/
def Settles (root : Option Schema) (super sub : Schema) (b : Bool) : Prop :=
  ∀ key depth, depthBound super sub root ≤ depth →
    ((check key root depth super sub : CheckT Id Bool).run.run []).run =
      (.ok b, [])

theorem settles_of_isSubtypeIn
    {root : Option Schema} {super sub : Schema} {b : Bool}
    (h : super.isSubtypeIn sub root = .ok b) : Settles root super sub b := by
  intro key depth hdepth
  have hanswer : Answers (check key root depth super sub : CheckT Id Bool) []
      (verdict root depth [] super sub) :=
    answers_check key root depth Assumptions.tidy_nil
      (Assumptions.lists_nil key) super sub
  rw [verdict_eq_isSubtypeIn hdepth, h] at hanswer
  exact hanswer

/-- Errors come from references only: a comparison fails with the error of a
reference in one of the schemas or in the root.  If all of them resolve, it has
an answer, and without references it has the same one in every root, also where
there is none. -/
theorem isSubtypeIn_error_only_unresolved (super sub : Schema) :
    (∀ root e, super.isSubtypeIn sub (some root) = .error e →
      ∃ path, Mentions super sub root path ∧
        Schema.resolve (some root) path = .error e) ∧
    (∀ root, super.ResolvesIn root → sub.ResolvesIn root →
      root.ResolvesIn root →
      ∃ b, super.isSubtypeIn sub (some root) = .ok b ∧
        Settles (some root) super sub b) ∧
    (super.ReferenceFree → sub.ReferenceFree →
      ∃ b, ∀ root : Option Schema, super.isSubtypeIn sub root = .ok b ∧
        Settles root super sub b) := by
  refine ⟨fun root e h => exists_mentioned_of_isSubtypeIn h, ?_, ?_⟩
  · intro root hsuper hsub hroot
    obtain ⟨b, hb⟩ := exists_isSubtypeIn_of_resolvesIn hsuper hsub hroot
    exact ⟨b, hb, settles_of_isSubtypeIn hb⟩
  · intro hsuper hsub
    obtain ⟨b, hb⟩ := exists_isSubtypeIn_of_referenceFree hsuper hsub
    exact ⟨b, fun root => ⟨hb root, settles_of_isSubtypeIn (hb root)⟩⟩

set_option maxRecDepth 4000 in
/-- A reference to nowhere, references between two tables that refer to
themselves, and records without references. -/
theorem isSubtypeIn_error_only_unresolved_chains :
    let wide := Schema.reference [.field [0x77]]
    let narrow := Schema.reference [.field [0x6E]]
    let nowhere := Schema.reference [.field [0x78]]
    let e : DereferenceError :=
      ⟨[.field [0x78], .index 0], some 0, .record, .noField [0x78]⟩
    let texts := Schema.record
      [([0x61], .union [.null, .string charsetUtf8 none])]
    let shortTexts := Schema.record
      [([0x61], .string charsetUtf8 (some 5)), ([0x62], .boolean)]
    (nowhere.isSubtypeIn narrow (some chains) = .error e ∧
      ∃ path, Mentions nowhere narrow chains path ∧
        Schema.resolve (some chains) path = .error e) ∧
    ((wide.ResolvesIn chains ∧ narrow.ResolvesIn chains ∧
        chains.ResolvesIn chains) ∧
      ∃ b, wide.isSubtypeIn narrow (some chains) = .ok b ∧
        Settles (some chains) wide narrow b) ∧
    ((texts.ReferenceFree ∧ shortTexts.ReferenceFree) ∧
      ∃ b, ∀ root : Option Schema, texts.isSubtypeIn shortTexts root = .ok b ∧
        Settles root texts shortTexts b) := by
  intro wide narrow nowhere e texts shortTexts
  have herror : nowhere.isSubtypeIn narrow (some chains) = .error e := rfl
  have hwide : wide.ResolvesIn chains := by
    intro path hpath
    obtain rfl : path = [.field [0x77]] := by
      simpa [wide, Schema.parts] using hpath
    exact ⟨link [0x77] 8, rfl⟩
  have hnarrow : narrow.ResolvesIn chains := by
    intro path hpath
    obtain rfl : path = [.field [0x6E]] := by
      simpa [narrow, Schema.parts] using hpath
    exact ⟨link [0x6E] 4, rfl⟩
  have hchains : chains.ResolvesIn chains := by
    intro path hpath
    have hcases : path = [.field [0x6E]] ∨ path = [.field [0x77]] := by
      simpa [chains, link, Schema.list, Schema.parts, Schema.fieldsParts,
        Schema.allParts] using hpath
    rcases hcases with rfl | rfl
    · exact ⟨link [0x6E] 4, rfl⟩
    · exact ⟨link [0x77] 8, rfl⟩
  have htexts : texts.ReferenceFree := by decide
  have hshort : shortTexts.ReferenceFree := by decide
  exact ⟨⟨herror, (isSubtypeIn_error_only_unresolved nowhere narrow).1
      chains e herror⟩,
    ⟨⟨hwide, hnarrow, hchains⟩,
      (isSubtypeIn_error_only_unresolved wide narrow).2.1 chains hwide hnarrow
        hchains⟩,
    ⟨⟨htexts, hshort⟩,
      (isSubtypeIn_error_only_unresolved texts shortTexts).2.2 htexts hshort⟩⟩

end Subtyping

end Schemata
