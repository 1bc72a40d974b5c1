/-
  Triage.Proofs.Warning — warnings are told for just those names that match no issue, in the order they are read.

  A warning speaks of a leaf (`Warning.leaf`). It is told if that leaf occurs and the collection does not know the
  name (`mem_warnings_iff`), and a set knows a name exactly if the leaf matches one of its issues
  (`isKnown_ofList`): folding the names of an index and comparing names come to the same. The warnings are gone
  through as the leaves are read, each kept where it comes first (`pairwise_foldl_warn`).
-/

import Triage.Proofs.Expr.Leaves
import Triage.Expr.Basic
import Triage.Regex.Engine
import Mathlib.Data.List.Induction

namespace Triage

/-! ## Names that a set knows -/

namespace Issue.Set

variable (issues : List Issue) (name : String)

theorem hasLabel_ofList : (ofList issues).hasLabel name = issues.any fun i => i.hasLabel name := by
  rw [Bool.eq_iff_iff]
  simp only [hasLabel, ofList, Issue.hasLabel, List.contains_iff_mem, List.mem_flatMap, List.mem_map, List.any_eq_true,
    Text.sameName_iff]

theorem contains_fold_iff (field : Issue → Option String) :
    (issues.filterMap fun i => (field i).map Text.fold).contains (Text.fold name) =
      issues.any fun i => sameOptional (some name) (field i) := by
  rw [Bool.eq_iff_iff, List.contains_iff_mem, List.mem_filterMap, List.any_eq_true]
  refine exists_congr fun i => and_congr_right fun _ => ?_
  cases field i with
  | none => simp [sameOptional]
  | some other =>
    rw [Option.map_some, Option.some.injEq, sameOptional, Text.sameName_iff]
    exact eq_comm

theorem hasMilestone_ofList :
    (ofList issues).hasMilestone name = issues.any fun i => sameOptional (some name) i.milestone :=
  contains_fold_iff issues name Issue.milestone

theorem hasAssignee_ofList :
    (ofList issues).hasAssignee name = issues.any fun i => sameOptional (some name) i.assignee :=
  contains_fold_iff issues name Issue.assignee

end Issue.Set

/-! ## What a warning speaks of -/

namespace Warning

/-- The leaf with the name that no issue uses. -/
def leaf : Warning → Leaf
  | .unknownLabel name => .label name
  | .unknownMilestone name => .milestone (some name)
  | .unknownAssignee name => .assignee (some name)

/-- Whether the collection knows the name. -/
def isKnown (known : Issue.Names) : Warning → Bool
  | .unknownLabel name => known.hasLabel name
  | .unknownMilestone name => known.hasMilestone name
  | .unknownAssignee name => known.hasAssignee name

/-- A set knows a name if the leaf with it matches one of the issues. -/
theorem isKnown_ofList [Engine] (w : Warning) (issues : List Issue) :
    w.isKnown (Issue.Set.ofList issues).names = issues.any fun i => (Expr.leaf w.leaf).eval i := by
  cases w with
  | unknownLabel name => exact Issue.Set.hasLabel_ofList issues name
  | unknownMilestone name => exact Issue.Set.hasMilestone_ofList issues name
  | unknownAssignee name => exact Issue.Set.hasAssignee_ofList issues name

end Warning

theorem Warning.warning?_leaf (w : Warning) (known : Issue.Names) :
    w.leaf.warning? known = if w.isKnown known = true then none else some w := by
  cases w <;> rfl

namespace Leaf

variable {known : Issue.Names} {l : Leaf} {w : Warning}

theorem eq_leaf_of_warning? (h : l.warning? known = some w) : l = w.leaf := by
  unfold warning? at h
  split at h
  case h_4 => cases h
  all_goals
    split at h
    · cases h
    · cases h
      rfl

theorem warning?_eq_some_iff : l.warning? known = some w ↔ l = w.leaf ∧ w.isKnown known = false := by
  constructor
  · intro h
    have hl := eq_leaf_of_warning? h
    rw [hl, w.warning?_leaf] at h
    refine ⟨hl, ?_⟩
    split at h
    · cases h
    · rwa [← Bool.not_eq_true]
  · rintro ⟨rfl, hk⟩
    rw [w.warning?_leaf, hk, if_neg Bool.false_ne_true]

end Leaf

namespace Expr

variable {known : Issue.Names}

/-! ## Going through the leaves -/

theorem mem_warn_iff {ws : List Warning} {l : Leaf} {w : Warning} :
    w ∈ warn known ws l ↔ w ∈ ws ∨ l.warning? known = some w := by
  rw [warn]
  cases h : l.warning? known with
  | none => simp
  | some v =>
    dsimp only
    split
    · rename_i hv
      refine ⟨Or.inl, fun hw => hw.elim id ?_⟩
      rintro ⟨⟩
      exact hv
    · rw [List.mem_append, List.mem_singleton, Option.some.injEq, eq_comm]

theorem mem_foldl_warn_iff {ls : List Leaf} {ws : List Warning} {w : Warning} :
    w ∈ ls.foldl (warn known) ws ↔ w ∈ ws ∨ ∃ l ∈ ls, l.warning? known = some w := by
  induction ls generalizing ws with
  | nil => simp
  | cons l ls ih =>
    rw [List.foldl_cons, ih, mem_warn_iff, or_assoc]
    simp only [List.mem_cons, exists_eq_or_imp]

theorem mem_warnings_iff {e : Expr} {w : Warning} :
    w ∈ e.warnings known ↔ e.Mentions w.leaf ∧ w.isKnown known = false := by
  rw [warnings, mem_foldl_warn_iff]
  simp only [List.not_mem_nil, false_or, Leaf.warning?_eq_some_iff, ← mem_leaves_iff]
  exact ⟨fun ⟨_, hl, he, hk⟩ => ⟨he ▸ hl, hk⟩, fun ⟨hl, hk⟩ => ⟨w.leaf, hl, rfl, hk⟩⟩

/-- A warning is told where its leaf is first listed. -/
theorem pairwise_foldl_warn (ls : List Leaf) :
    (ls.foldl (warn known) []).Pairwise fun w w' => ListedFirst ls w.leaf w'.leaf := by
  induction ls using List.reverseRecOn with
  | nil => exact .nil
  | append_singleton ls l ih =>
    have hlonger := ih.imp fun h => ListedFirst.append h [l]
    rw [List.foldl_append, List.foldl_cons, List.foldl_nil, warn]
    cases hl : l.warning? known with
    | none => exact hlonger
    | some w =>
      dsimp only
      split
      · exact hlonger
      · rename_i hnew
        rw [List.pairwise_append]
        refine ⟨hlonger, List.pairwise_singleton _ _, fun v hv v' hv' => ?_⟩
        obtain rfl := List.mem_singleton.mp hv'
        have hvls : v.leaf ∈ ls := by
          obtain hv | ⟨k, hk, hkv⟩ := mem_foldl_warn_iff.mp hv
          · cases hv
          · exact Leaf.eq_leaf_of_warning? hkv ▸ hk
        have hlls : v'.leaf ∉ ls := by
          intro hmem
          rw [Leaf.eq_leaf_of_warning? hl] at hl
          exact hnew (mem_foldl_warn_iff.mpr (Or.inr ⟨v'.leaf, hmem, hl⟩))
        exact (listedFirst_of_mem hvls hlls).append [l]

theorem warnings_pairwise {e : Expr} (ha : Arranged e) :
    (e.warnings known).Pairwise fun w w' => e.ReadsFirst w.leaf w'.leaf :=
  (pairwise_foldl_warn e.leaves).imp (readsFirst_of_listedFirst ha)

/-- A warning is told exactly if its leaf occurs and matches no issue of the list, and the warnings come in the order
    in which their leaves are first read. -/
theorem warnings_agree_with_eval [Engine] (e : Expr) (issues : List Issue) :
    (∀ w, w ∈ e.warnings (Issue.Set.ofList issues).names ↔
      e.Mentions w.leaf ∧ ∀ i ∈ issues, (Expr.leaf w.leaf).eval i = false) ∧
    (Arranged e → (e.warnings (Issue.Set.ofList issues).names).Pairwise fun w w' => e.ReadsFirst w.leaf w'.leaf) := by
  refine ⟨fun w => ?_, warnings_pairwise⟩
  rw [mem_warnings_iff, Warning.isKnown_ofList, List.any_eq_false]
  simp only [Bool.not_eq_true]

/-- A label below a negation and in an entry, an assignee beside a label that is used, and a milestone in the
    fallback. -/
theorem warnings_agree_with_eval_nested :
    let runtime : Repository := ⟨"dotnet", "runtime", by decide, by decide, by decide, by decide⟩
    let corefx : Repository := ⟨"dotnet", "corefx", by decide, by decide, by decide, by decide⟩
    let typo : Expr := .leaf (.label "typo")
    let worked : Expr := .and [.leaf (.label "BUG"), .leaf (.assignee (some "nobody"))]
    let later : Expr := .leaf (.milestone (some "9.0.0"))
    let e : Expr := .or [.not typo, .perRepo [(corefx, worked), (runtime, typo)] later]
    let issues : List Issue := [(Issue.new runtime 1).withLabels ["bug"], (Issue.new corefx 2).withMilestone "8.0.0"]
    let ws := e.warnings (Issue.Set.ofList issues).names
    ws = [.unknownLabel "typo", .unknownAssignee "nobody", .unknownMilestone "9.0.0"] ∧ Arranged e ∧
      ws.Pairwise fun w w' => e.ReadsFirst w.leaf w'.leaf := by
  intro runtime corefx typo worked later e issues ws
  have hworked : Arranged worked := by
    refine .and fun d hd => ?_
    rcases List.mem_pair.mp hd with rfl | rfl <;> exact .leaf _
  have hordered : PerRepo.Ordered [(corefx, worked), (runtime, typo)] := by
    rw [PerRepo.Ordered, List.pairwise_pair]
    decide +kernel
  have hentries : ∀ p ∈ [(corefx, worked), (runtime, typo)], Arranged p.2 := by
    intro p hp
    rcases List.mem_pair.mp hp with rfl | rfl
    · exact hworked
    · exact .leaf _
  have ha : Arranged e := by
    refine .or fun d hd => ?_
    rcases List.mem_pair.mp hd with rfl | rfl
    · exact .not (.leaf _)
    · exact .perRepo hordered hentries (.leaf _)
  exact ⟨by decide +kernel, ha, (warnings_agree_with_eval e issues).2 ha⟩

end Expr

end Triage
