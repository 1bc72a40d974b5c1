/-
  Triage.Proofs.Catalog.Leaves — a leaf keeps the meaning it was built with, and every leaf can be called.

  A definition that is added has a name of its own, so the leaves there are before it stay what they are
  (`extends_leavesOf`). What a definition means is the same where there are more leaves (`formula?_of_extends`). So each
  leaf of a catalog means what it meant when there were only the leaves before it.
-/

import Triage.Proofs.Catalog.Build

namespace Triage.Catalog

variable {c : Config}

/-! ## More leaves -/

section

variable [Engine]

theorem formula?_of_extends {leaves leaves' : Query.Leaves} (h : leaves.Extends leaves') {d : LeafDefinition}
    {f : Formula} (hf : d.formula? leaves = some f) : d.formula? leaves' = some f := by
  cases d with
  | query text => exact formula?_query_iff.mpr (Query.parse_of_extends h (formula?_query_iff.mp hf))
  | labelPattern text => exact hf
  | milestonePattern text => exact hf

/-- A leaf with a name of its own takes nothing from the leaves before it. -/
theorem extends_withLeaf {ls : List CustomLeaf} {l : CustomLeaf} (h : Defined c ls)
    (hnew : Text.fold l.name ∉ leafNames ls) : (leavesOf c ls).Extends (leavesOf c (ls ++ [l])) := by
  have hnone : (leavesOf c ls).find? l.name = none := by
    rw [← Option.not_isSome_iff_eq_none, isSome_find?_leavesOf_iff h]
    exact hnew
  rw [leavesOf_concat, withLeaf]
  cases l.definition.formula? (leavesOf c ls) with
  | some f => exact Query.Leaves.extends_insert hnone f
  | none => exact .refl _

theorem extends_leavesOf {before after : List CustomLeaf} (h : Defined c (before ++ after))
    (hn : (leafNames (before ++ after)).Nodup) : (leavesOf c before).Extends (leavesOf c (before ++ after)) := by
  induction after using List.reverseRecOn with
  | nil =>
    rw [List.append_nil]
    exact .refl _
  | append_singleton after l ih =>
    -- the last leaf is added to those before it, whose names are distinct too
    rw [← List.append_assoc] at h hn ⊢
    have hnames : leafNames (before ++ after ++ [l]) = leafNames (before ++ after) ++ [Text.fold l.name] := by
      simp [leafNames]
    rw [hnames, List.nodup_append] at hn
    obtain ⟨hnodup, -, hdisjoint⟩ := hn
    have hdefined := (defined_concat_iff.mp h).1
    refine (ih hdefined hnodup).trans (extends_withLeaf hdefined fun hmem => ?_)
    exact hdisjoint _ hmem _ List.mem_cons_self rfl

theorem nodup_leafNames (h : WellFormed c) : (leafNames c.customLeaves).Nodup := by
  refine List.nodup_cons.mpr ⟨fun hmem => ?_, h.leaf_names⟩
  obtain ⟨l, hl, hname⟩ := List.mem_map.mp hmem
  exact (h.names_free l hl).1 hname

end

/-! ## Calling -/

theorem find?_congr (leaves : Query.Leaves) {m name : String} (h : Text.sameName m name = true) :
    leaves.find? m = leaves.find? name := by
  rw [Query.Leaves.find?, Query.Leaves.find?, Text.sameName_iff.mp h]

theorem parse_call_of_sameName {leaves : Query.Leaves} {name m : String} {f : Formula}
    (hf : leaves.find? name = some f) (hfree : Text.fold name ∉ Query.reservedNames)
    (hm : Text.sameName m name = true) : Query.parse leaves (Query.call m) = .ok f := by
  refine Query.parse_call ?_ (find?_congr leaves hm ▸ hf)
  rwa [Text.sameName_iff.mp hm]

/-! ## The leaves of a catalog -/

theorem find?_leavesOf [Engine] {before after : List CustomLeaf} {l : CustomLeaf} {f : Formula}
    (h : Defined c (before ++ l :: after)) (hn : (leafNames (before ++ l :: after)).Nodup)
    (hf : l.definition.formula? (leavesOf c before) = some f) :
    (leavesOf c (before ++ l :: after)).find? l.name = some f := by
  have hlast : (leavesOf c (before ++ [l])).find? l.name = some f := by
    rw [leavesOf_concat, withLeaf, hf, Query.Leaves.find?_insert, if_pos rfl]
  rw [List.append_cons] at h hn ⊢
  exact extends_leavesOf h hn l.name f hlast

/-- Where there is a catalog, each leaf was built with the leaves of the definitions before it. -/
theorem exists_build_of_build [Engine] {cat : Catalog} (h : build c = .ok cat) {before after : List CustomLeaf}
    {l : CustomLeaf} (hls : c.customLeaves = before ++ l :: after) :
    ∃ f, before.foldlM addLeaf (untriagedLeaf c) = .ok (leavesOf c before) ∧ l.build (leavesOf c before) = .ok f := by
  obtain ⟨-, hbuild, -⟩ := build_eq_ok_iff.mp h
  rw [buildLeaves, hls, List.foldlM_append] at hbuild
  obtain ⟨leaves, hbefore, hrest⟩ := exists_of_bind_eq_ok hbuild
  obtain ⟨rfl, -⟩ := ((addLeaves_ends c before).good_of_ok hbefore).2
  rw [List.foldlM_cons] at hrest
  obtain ⟨_, hadd, -⟩ := exists_of_bind_eq_ok hrest
  unfold addLeaf at hadd
  split at hadd
  · cases hadd
  · obtain ⟨f, hf, -⟩ := exists_of_bind_eq_ok hadd
    exact ⟨f, hbefore, hf⟩

/-- Each leaf means in the catalog what it meant where there were only the leaves before it, and is called by every
    spelling of its name, as is the leaf that every catalog has. -/
theorem leaf_keeps_meaning [Engine] :
    (∀ (c : Config) (cat : Catalog), build c = .ok cat →
      (∀ before l after, c.customLeaves = before ++ l :: after →
        ∃ leaves f, before.foldlM addLeaf (untriagedLeaf c) = .ok leaves ∧ l.build leaves = .ok f ∧
          cat.leaves.find? l.name = some f ∧ (∀ text, l.definition = .query text → cat.parseQuery text = .ok f) ∧
          ∀ m, Text.sameName m l.name = true → cat.parseQuery (Query.call m) = .ok f) ∧
      ∀ m, Text.sameName m "untriaged" = true →
        cat.parseQuery (Query.call m) = .ok (.leaf (.untriaged c.untriaged))) ∧
    ∀ (leaves leaves' : Query.Leaves) (query : String) (f : Formula), leaves.Extends leaves' →
      Query.parse leaves query = .ok f → Query.parse leaves' query = .ok f := by
  refine ⟨fun c cat h => ?_, fun leaves leaves' query f hl hf => Query.parse_of_extends hl hf⟩
  obtain ⟨herror, hbuilt⟩ := (build_ends c).good_of_ok h
  have hc := firstError_checks_eq_none_iff.mp herror
  have hdefined := hc.defined
  have hnames := nodup_leafNames hc
  simp only [parseQuery, hbuilt.leaves]
  constructor
  · intro before l after hls
    obtain ⟨f, hbefore, hbuild⟩ := exists_build_of_build h hls
    have hf := ((l.build_ends _).good_of_ok hbuild).2
    have hfree := (hc.names_free l (by rw [hls]; simp)).2
    rw [hls] at hdefined hnames ⊢
    have hfound := find?_leavesOf hdefined hnames hf
    refine ⟨leavesOf c before, f, hbefore, hbuild, hfound, fun text ht => ?_, fun m hm => ?_⟩
    · have hmeans := formula?_of_extends (extends_leavesOf hdefined hnames) hf
      rw [ht] at hmeans
      exact formula?_query_iff.mp hmeans
    · exact parse_call_of_sameName hfound hfree hm
  · intro m hm
    have hfirst : (leavesOf c []).Extends (leavesOf c c.customLeaves) :=
      @extends_leavesOf c _ [] c.customLeaves hdefined hnames
    exact parse_call_of_sameName (hfirst "untriaged" _ rfl) (by decide) hm

/-- A leaf that calls an earlier one and the leaf that every catalog has, each by another spelling. -/
theorem leaf_keeps_meaning_of_calls :
    let c : Config := ⟨[], .empty,
      [⟨"Blocked", .query "label:blocked"⟩, ⟨"Mine", .query "!is:blocked is:Untriaged"⟩, ⟨"Any", .query "is:open"⟩], []⟩
    ∃ cat, build c = .ok cat ∧
      cat.parseQuery "is:\"UNTRIAGED\"" = .ok (.leaf (.untriaged .empty)) ∧
      ∃ f, cat.leaves.find? "Mine" = some f ∧ cat.parseQuery "!is:blocked is:Untriaged" = .ok f ∧
        cat.parseQuery "is:\"mINE\"" = .ok f ∧
        Query.parse (cat.leaves.insert "Later" (.const true)) "!is:blocked is:Untriaged" = .ok f := by
  intro c
  obtain ⟨cat, hcat⟩ := (build_ends c).exists_ok_iff.mpr (by decide +kernel)
  obtain ⟨herror, hbuilt⟩ := (build_ends c).good_of_ok hcat
  have hlater : cat.leaves.find? "Later" = none := by
    rw [← Option.not_isSome_iff_eq_none, hbuilt.leaves,
      isSome_find?_leavesOf_iff (firstError_checks_eq_none_iff.mp herror).defined]
    decide
  obtain ⟨hcatalog, hmore⟩ := leaf_keeps_meaning
  obtain ⟨hleaves, huntriaged⟩ := hcatalog c cat hcat
  obtain ⟨_, f, -, -, hfind, htext, hcall⟩ :=
    hleaves [⟨"Blocked", .query "label:blocked"⟩] ⟨"Mine", .query "!is:blocked is:Untriaged"⟩
      [⟨"Any", .query "is:open"⟩] rfl
  exact ⟨cat, hcat, huntriaged "UNTRIAGED" (by decide), f, hfind, htext _ rfl, hcall "mINE" (by decide),
    hmore _ _ _ _ (Query.Leaves.extends_insert hlater _) (htext _ rfl)⟩

end Triage.Catalog
