/-
  Triage.Proofs.Catalog.WellFormed — which configurations are well formed, and the checks that find the first fault.

  `WellFormed` says what holds of names, repositories and texts, in no order. `checks` are the same conditions one by
  one, in the order of the configuration, each with the error of a configuration in which it is the first that fails.
  No check fails just when the configuration is well formed (`firstError_checks_eq_none_iff`).

  A leaf may call those before it. `leavesOf` gathers the leaves of a list of definitions, whatever they are; a
  definition that means nothing adds no leaf.
-/

import Mathlib.Data.List.Induction
import Triage.Catalog.Build
import Triage.Proofs.Check
import Triage.Proofs.Expr.PerRepo
import Triage.Proofs.Query.Leaves
import Triage.Proofs.Registry

namespace Triage.Catalog

/-! ## Leaves -/

section Leaves

variable [Engine]

/-- What a leaf means where queries call the given leaves. -/
def LeafDefinition.formula? (leaves : Query.Leaves) : LeafDefinition → Option Formula
  | .query text => (Query.parse leaves text).toOption
  | .labelPattern text => (Pattern.ofText? text).map fun p => .leaf (.labelPattern p)
  | .milestonePattern text => (Pattern.ofText? text).map fun p => .leaf (.milestonePattern p)

theorem formula?_query_iff {leaves : Query.Leaves} {text : String} {f : Formula} :
    LeafDefinition.formula? leaves (.query text) = some f ↔ Query.parse leaves text = .ok f := by
  rw [LeafDefinition.formula?]
  cases Query.parse leaves text <;> simp [Except.toOption]

def withLeaf (leaves : Query.Leaves) (l : CustomLeaf) : Query.Leaves :=
  match l.definition.formula? leaves with
  | some f => leaves.insert l.name f
  | none => leaves

/-- The leaf that every configuration has and those of the definitions. -/
def leavesOf (c : Config) (ls : List CustomLeaf) : Query.Leaves := ls.foldl withLeaf (untriagedLeaf c)

/-- Every leaf means something where queries call those before it. -/
def Defined (c : Config) (ls : List CustomLeaf) : Prop :=
  ∀ before l after, ls = before ++ l :: after → ∃ f, l.definition.formula? (leavesOf c before) = some f

/-- The names that are taken once there are these leaves. -/
def leafNames (ls : List CustomLeaf) : List String := "untriaged" :: ls.map fun l => Text.fold l.name

theorem defined_iff {c : Config} {ls : List CustomLeaf} :
    Defined c ls ↔ ∀ p ∈ withBefore [] ls, ∃ f, p.2.definition.formula? (leavesOf c p.1) = some f := by
  constructor
  · intro h p hp
    obtain ⟨before, after, hls, hp1⟩ := mem_withBefore_iff.mp hp
    rw [hp1]
    exact h before p.2 after hls
  · intro h before l after hls
    exact h (before, l) (mem_withBefore_iff.mpr ⟨before, after, hls, rfl⟩)

theorem leavesOf_concat (c : Config) (ls : List CustomLeaf) (l : CustomLeaf) :
    leavesOf c (ls ++ [l]) = withLeaf (leavesOf c ls) l := by
  rw [leavesOf, List.foldl_append]
  rfl

theorem defined_concat_iff {c : Config} {ls : List CustomLeaf} {l : CustomLeaf} :
    Defined c (ls ++ [l]) ↔ Defined c ls ∧ ∃ f, l.definition.formula? (leavesOf c ls) = some f := by
  rw [defined_iff, defined_iff, withBefore_concat, List.forall_mem_append, List.forall_mem_singleton, List.nil_append]

/-- The leaves are those of the names that are taken. -/
theorem isSome_find?_leavesOf_iff {c : Config} {ls : List CustomLeaf} (h : Defined c ls) (name : String) :
    ((leavesOf c ls).find? name).isSome = true ↔ Text.fold name ∈ leafNames ls := by
  induction ls using List.reverseRecOn with
  | nil =>
    have hfold : Text.fold "untriaged" = "untriaged" := by decide
    show ((Query.Leaves.empty.insert "untriaged" _).find? name).isSome = true ↔ _
    rw [Query.Leaves.find?_insert, hfold]
    by_cases hn : Text.fold name = "untriaged"
    · simp [hn, leafNames]
    · simp [hn, leafNames, Query.Leaves.find?, Query.Leaves.empty]
  | append_singleton ls l ih =>
    obtain ⟨hls, f, hf⟩ := defined_concat_iff.mp h
    rw [leavesOf_concat, withLeaf, hf, Query.Leaves.find?_insert]
    by_cases hn : Text.fold name = Text.fold l.name
    · simp [hn, leafNames]
    · simp [hn, ih hls, leafNames]

end Leaves

/-! ## Well-formed configurations -/

namespace QueryDefinition

/-- The texts that are read as queries. -/
def texts (q : QueryDefinition) : List String := q.variants.map Variant.query ++ q.query.toList

/-- What each text is for: one repository, or those without a text of their own. -/
def places (q : QueryDefinition) : List (Option Repository) :=
  q.variants.map Variant.repository ++ q.query.toList.map fun _ => none

structure WellFormed (rs : List Repository) (leaves : Query.Leaves) (q : QueryDefinition) : Prop where
  has_text : q.query ≠ none ∨ q.variants ≠ []
  registered : ∀ v ∈ q.variants, ∀ r ∈ v.repository, r ∈ rs
  distinct : (q.variants.filterMap Variant.repository).Nodup
  one_default : q.variants.countP (·.repository.isNone) + q.query.toList.length ≤ 1
  parses : ∀ text ∈ q.texts, ∃ f, Query.parse leaves text = .ok f

end QueryDefinition

structure WellFormed [Engine] (c : Config) : Prop where
  repositories : c.repositories.Nodup
  leaf_names : (c.customLeaves.map fun l => Text.fold l.name).Nodup
  names_free : ∀ l ∈ c.customLeaves, Text.fold l.name ≠ "untriaged" ∧ Text.fold l.name ∉ Query.reservedNames
  defined : Defined c c.customLeaves
  query_names : (c.queries.map fun q => Text.fold q.name).Nodup
  queries : ∀ q ∈ c.queries, q.WellFormed c.repositories (leavesOf c c.customLeaves)

/-! ## Checks in order -/

def textError? (leaves : Query.Leaves) (name text : String) : Option Error :=
  match Query.parse leaves text with
  | .ok _ => none
  | .error e => some (.query name e)

namespace CustomLeaf

def definitionError? [Engine] (leaves : Query.Leaves) (l : CustomLeaf) : Option Error :=
  match l.definition with
  | .query text => textError? leaves l.name text
  | .labelPattern text => failIf ((Pattern.ofText? text).isNone) (.pattern l.name)
  | .milestonePattern text => failIf ((Pattern.ofText? text).isNone) (.pattern l.name)

def checks [Engine] (c : Config) (before : List CustomLeaf) (l : CustomLeaf) : List (Option Error) := [
  failIf (Text.fold l.name ∈ Query.reservedNames) (.repeatedName l.name),
  l.definitionError? (leavesOf c before),
  failIf (Text.fold l.name ∈ leafNames before) (.repeatedName l.name)]

end CustomLeaf

def Variant.checks (rs : List Repository) (leaves : Query.Leaves) (name : String) (v : Variant) : List (Option Error) :=
  [v.repository.bind fun r => failIf (r ∉ rs) (.unknownRepository name r), textError? leaves name v.query]

namespace QueryDefinition

/-- The checks of the query itself, whatever the other queries are. -/
def ownChecks (rs : List Repository) (leaves : Query.Leaves) (q : QueryDefinition) : List (Option Error) :=
  failIf (q.variants = [] ∧ q.query = none) (.emptyQuery q.name) ::
    (q.variants.flatMap (·.checks rs leaves q.name) ++ (q.query.toList.map (textError? leaves q.name) ++
      repeatChecks (fun r => .clash q.name (PerRepo.clashOf r)) [] q.places))

def checks (rs : List Repository) (leaves : Query.Leaves) (before : List QueryDefinition) (q : QueryDefinition) :
    List (Option Error) :=
  q.ownChecks rs leaves ++
    [failIf (Text.fold q.name ∈ before.map fun p => Text.fold p.name) (.repeatedName q.name)]

end QueryDefinition

/-- All checks: of the repositories, of each leaf with those before it, and of each query with those before it. -/
def checks [Engine] (c : Config) : List (Option Error) :=
  repeatChecks .repeatedRepository [] c.repositories ++
    ((withBefore [] c.customLeaves).flatMap (fun p => p.2.checks c p.1) ++
      (withBefore [] c.queries).flatMap fun p => p.2.checks c.repositories (leavesOf c c.customLeaves) p.1)

/-! ## No check fails -/

section

variable {leaves : Query.Leaves} {rs : List Repository}

theorem textError?_eq_none_iff {name text : String} :
    textError? leaves name text = none ↔ ∃ f, Query.parse leaves text = .ok f := by
  unfold textError?
  cases Query.parse leaves text <;> simp

namespace CustomLeaf

variable [Engine] {c : Config} {l : CustomLeaf} {before : List CustomLeaf}

theorem definitionError?_eq_none_iff :
    l.definitionError? leaves = none ↔ ∃ f, l.definition.formula? leaves = some f := by
  unfold definitionError?
  cases l.definition with
  | query text => simp only [textError?_eq_none_iff, formula?_query_iff]
  | labelPattern text | milestonePattern text =>
    rw [failIf_eq_none_iff]
    cases h : Pattern.ofText? text <;> simp [LeafDefinition.formula?, h]

theorem firstError_checks_eq_none_iff : firstError (l.checks c before) = none ↔
    Text.fold l.name ∉ Query.reservedNames ∧ (∃ f, l.definition.formula? (leavesOf c before) = some f) ∧
      Text.fold l.name ∉ leafNames before := by
  simp only [checks, firstError_cons, firstError_nil, Option.or_eq_none_iff, failIf_eq_none_iff,
    definitionError?_eq_none_iff, and_true]

end CustomLeaf

theorem Variant.firstError_checks_eq_none_iff {name : String} {v : Variant} :
    firstError (v.checks rs leaves name) = none ↔
      (∀ r ∈ v.repository, r ∈ rs) ∧ ∃ f, Query.parse leaves v.query = .ok f := by
  rw [checks, firstError_cons, firstError_singleton, Option.or_eq_none_iff, textError?_eq_none_iff]
  cases v.repository with
  | none => simp
  | some r => simp [failIf_eq_none_iff]

namespace QueryDefinition

variable {q : QueryDefinition} {before : List QueryDefinition}

theorem nodup_places_iff : q.places.Nodup ↔
    (q.variants.filterMap Variant.repository).Nodup ∧
      q.variants.countP (·.repository.isNone) + q.query.toList.length ≤ 1 := by
  rw [nodup_iff_filterMap_id, places, List.filterMap_append, List.countP_append, List.filterMap_map, List.countP_map]
  cases q.query <;> simp [Function.comp_def]

theorem firstError_ownChecks_eq_none_iff :
    firstError (q.ownChecks rs leaves) = none ↔ q.WellFormed rs leaves := by
  simp only [ownChecks, firstError_cons, firstError_append, Option.or_eq_none_iff, failIf_eq_none_iff,
    firstError_flatMap_eq_none_iff, Variant.firstError_checks_eq_none_iff, firstError_repeatChecks_eq_none_iff,
    nodup_places_iff]
  have hfallback : firstError (q.query.toList.map (textError? leaves q.name)) = none ↔
      ∀ text ∈ q.query.toList, ∃ f, Query.parse leaves text = .ok f := by
    simp only [firstError_eq_none_iff, List.forall_mem_map, textError?_eq_none_iff]
  rw [hfallback]
  constructor
  · rintro ⟨htext, hvariants, hquery, hdistinct, hdefault⟩
    refine ⟨?_, fun v hv => (hvariants v hv).1, hdistinct, hdefault, ?_⟩
    · by_contra hnone
      push Not at hnone
      exact htext hnone.symm
    · intro text ht
      rcases List.mem_append.mp ht with ht | ht
      · obtain ⟨v, hv, rfl⟩ := List.mem_map.mp ht
        exact (hvariants v hv).2
      · exact hquery text ht
  · intro h
    refine ⟨fun hnone => ?_, fun v hv => ⟨h.registered v hv, h.parses _ ?_⟩, fun text ht => h.parses _ ?_,
      h.distinct, h.one_default⟩
    · rcases h.has_text with hq | hv
      · exact hq hnone.2
      · exact hv hnone.1
    · exact List.mem_append_left _ (List.mem_map_of_mem hv)
    · exact List.mem_append_right _ ht

theorem firstError_checks_eq_none_iff : firstError (q.checks rs leaves before) = none ↔
    q.WellFormed rs leaves ∧ Text.fold q.name ∉ before.map fun p => Text.fold p.name := by
  rw [checks, firstError_append, firstError_singleton, Option.or_eq_none_iff, firstError_ownChecks_eq_none_iff,
    failIf_eq_none_iff]

end QueryDefinition

end

/-- No check fails just when the configuration is well formed. -/
theorem firstError_checks_eq_none_iff [Engine] {c : Config} : firstError (checks c) = none ↔ WellFormed c := by
  have hleaves : (∀ p ∈ withBefore [] c.customLeaves, firstError (p.2.checks c p.1) = none) ↔
      (c.customLeaves.map fun l => Text.fold l.name).Nodup ∧
        (∀ l ∈ c.customLeaves, Text.fold l.name ≠ "untriaged" ∧ Text.fold l.name ∉ Query.reservedNames) ∧
          Defined c c.customLeaves := by
    rw [nodup_map_iff, defined_iff, ← @forall_mem_withBefore CustomLeaf []]
    simp only [CustomLeaf.firstError_checks_eq_none_iff, leafNames, List.mem_cons, not_or, imp_and, forall_and]
    tauto
  have hqueries : (∀ p ∈ withBefore [] c.queries,
      firstError (p.2.checks c.repositories (leavesOf c c.customLeaves) p.1) = none) ↔
        (c.queries.map fun q => Text.fold q.name).Nodup ∧
          ∀ q ∈ c.queries, q.WellFormed c.repositories (leavesOf c c.customLeaves) := by
    rw [nodup_map_iff, ← @forall_mem_withBefore QueryDefinition []]
    simp only [QueryDefinition.firstError_checks_eq_none_iff, imp_and, forall_and]
    tauto
  rw [checks, firstError_append, firstError_append, Option.or_eq_none_iff, Option.or_eq_none_iff,
    firstError_repeatChecks_eq_none_iff, firstError_flatMap_eq_none_iff, firstError_flatMap_eq_none_iff, hleaves,
    hqueries]
  exact ⟨fun ⟨hr, ⟨hn, hf, hd⟩, hqn, hq⟩ => ⟨hr, hn, hf, hd, hqn, hq⟩,
    fun h => ⟨h.repositories, ⟨h.leaf_names, h.names_free, h.defined⟩, h.query_names, h.queries⟩⟩

end Triage.Catalog
