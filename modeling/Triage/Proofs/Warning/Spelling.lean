/-
  Triage.Proofs.Warning.Spelling — how often an unknown name is told.

  Warnings are kept apart by what they say, so no warning comes twice, but names are one name in any ASCII case. What
  `Warning.repeats` finds is a warning of the same kind of the same name. There are none among the warnings exactly if
  no unknown name is spelled in two ways; a set of issues knows all spellings of a name or none, so an unknown name is
  told once for each of its spellings. One name in two spellings gives two warnings (`warnings_tell_respelled_label`).
-/

import Mathlib.Data.List.Nodup
import Mathlib.Data.Set.Pairwise.List
import Triage.Proofs.Warning

namespace Triage

namespace Warning

/-- Whether the two are of one kind and of one name. -/
def repeats : Warning → Warning → Bool
  | .unknownLabel a, .unknownLabel b
  | .unknownMilestone a, .unknownMilestone b
  | .unknownAssignee a, .unknownAssignee b => Text.sameName a b
  | _, _ => false

theorem repeats_comm (w w' : Warning) : w.repeats w' = w'.repeats w := by
  have hname : ∀ a b, Text.sameName a b = Text.sameName b a := fun a b => Bool.beq_comm
  cases w <;> cases w'
  case unknownLabel.unknownLabel | unknownMilestone.unknownMilestone | unknownAssignee.unknownAssignee =>
    exact hname _ _
  all_goals rfl

/-- A set knows all spellings of a name or none. -/
theorem isKnown_ofList_congr {w w' : Warning} (h : w.repeats w' = true) (issues : List Issue) :
    w.isKnown (Issue.Set.ofList issues).names = w'.isKnown (Issue.Set.ofList issues).names := by
  unfold repeats at h
  split at h
  case h_4 => cases h
  all_goals
    simp only [isKnown, Issue.Set.names, Issue.Set.hasLabel, Issue.Set.hasMilestone, Issue.Set.hasAssignee,
      Text.sameName_iff.mp h]

end Warning

namespace Expr

variable {known : Issue.Names}

theorem nodup_warnings (e : Expr) : (e.warnings known).Nodup :=
  (pairwise_foldl_warn e.leaves).imp fun ⟨_, _, _, _, hne⟩ heq => hne (heq ▸ rfl)

/-- No warning comes twice, and no two are of one kind and name exactly if each unknown name is spelled in one way. Of
    a set of issues, an unknown name is told in every spelling in which it occurs. -/
theorem warnings_tell_each_spelling (e : Expr) (known : Issue.Names) :
    (e.warnings known).Nodup ∧
    ((e.warnings known).Pairwise (fun w w' => w.repeats w' = false) ↔
      ∀ w w' : Warning, e.Mentions w.leaf → e.Mentions w'.leaf → w.isKnown known = false → w'.isKnown known = false →
        w.repeats w' = true → w = w') ∧
    ∀ issues w w', w ∈ e.warnings (Issue.Set.ofList issues).names → e.Mentions w'.leaf → w.repeats w' = true →
      w' ∈ e.warnings (Issue.Set.ofList issues).names := by
  refine ⟨nodup_warnings e, ?_, fun issues w w' hw hw' hr => ?_⟩
  · have hsymm : Std.Symm fun w w' : Warning => w.repeats w' = false := ⟨fun w w' h => w.repeats_comm w' ▸ h⟩
    rw [← (nodup_warnings e).pairwise_coe]
    constructor
    · intro h w w' hw hw' hk hk' hr
      by_contra hne
      have hfalse : w.repeats w' = false := h (mem_warnings_iff.mpr ⟨hw, hk⟩) (mem_warnings_iff.mpr ⟨hw', hk'⟩) hne
      rw [hr] at hfalse
      cases hfalse
    · intro h w hw w' hw' hne
      obtain ⟨hw, hk⟩ := mem_warnings_iff.mp hw
      obtain ⟨hw', hk'⟩ := mem_warnings_iff.mp hw'
      rw [← Bool.not_eq_true]
      exact fun hr => hne (h w w' hw hw' hk hk' hr)
  · rw [mem_warnings_iff] at hw ⊢
    exact ⟨hw', Warning.isKnown_ofList_congr hr issues ▸ hw.2⟩

/-- A milestone in one spelling, and denied in another. -/
theorem warnings_tell_each_spelling_denied :
    let e : Expr := .or [.leaf (.milestone (some "Future")), .not (.leaf (.milestone (some "FUTURE")))]
    let ws := e.warnings (Issue.Set.ofList []).names
    .unknownMilestone "Future" ∈ ws ∧ e.Mentions (.milestone (some "FUTURE")) ∧ .unknownMilestone "FUTURE" ∈ ws := by
  intro e ws
  have htold : .unknownMilestone "Future" ∈ ws := by decide +kernel
  have hmention : e.Mentions (.milestone (some "FUTURE")) :=
    .or (List.mem_cons_of_mem _ (List.mem_singleton_self _)) (.not .leaf)
  have heach := (warnings_tell_each_spelling e (Issue.Set.ofList []).names).2.2
  exact ⟨htold, hmention, heach [] _ (.unknownMilestone "FUTURE") htold hmention (by decide)⟩

/-- A label that no issue has, in two spellings. -/
theorem warnings_tell_respelled_label :
    let runtime : Repository := ⟨"dotnet", "runtime", by decide, by decide, by decide, by decide⟩
    let e : Expr := .and [.leaf (.label "Typo"), .not (.leaf (.label "typo"))]
    let ws := e.warnings (Issue.Set.ofList [(Issue.new runtime 1).withLabels ["bug"]]).names
    ws = [.unknownLabel "Typo", .unknownLabel "typo"] ∧ ¬ ws.Pairwise fun w w' => w.repeats w' = false := by
  intro runtime e ws
  have hws : ws = [.unknownLabel "Typo", .unknownLabel "typo"] := by decide +kernel
  refine ⟨hws, ?_⟩
  rw [hws, List.pairwise_pair]
  decide

end Expr

end Triage
