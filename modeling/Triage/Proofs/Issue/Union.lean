/-
  Triage.Proofs.Issue.Union — adding labels unites them with those that are there.

  A name is left out for two reasons: the issue has it, or an earlier label of the same list brought it. Both are told
  from the small spellings of what is there so far (`distinct_append`), so a list is added like its labels one after
  the other (`withLabels_cons`). Hence a list may come in batches (`withLabels_append`), and what one label does to the
  names of an issue (`hasLabel_withLabel`) says what a list does (`hasLabel_withLabels`).
-/

import Triage.Proofs.Issue.Labels

namespace Triage.Issue

/-! ## Names that are known -/

theorem hasLabel_congr {i : Issue} {a b : String} (h : Text.fold a = Text.fold b) : i.hasLabel a = i.hasLabel b := by
  rw [Bool.eq_iff_iff, hasLabel_iff, hasLabel_iff, h]

/-- A name that is known may as well be left out before. -/
theorem distinct_append (seen known ls : List String) :
    distinct (seen ++ known) ls = distinct seen (ls.filter fun l => Text.fold l ∉ known) := by
  induction ls generalizing seen with
  | nil => rfl
  | cons l ls ih =>
    by_cases hk : Text.fold l ∈ known
    · rw [distinct, if_pos (List.mem_append_right seen hk), ih, List.filter_cons_of_neg (by simpa using hk)]
    · rw [List.filter_cons_of_pos (by simpa using hk)]
      by_cases hs : Text.fold l ∈ seen
      · rw [distinct, distinct, if_pos (List.mem_append_left known hs), if_pos hs, ih]
      · have hboth : Text.fold l ∉ seen ++ known := by simp [hs, hk]
        rw [distinct, distinct, if_neg hboth, if_neg hs, ← List.cons_append, ih]

/-- The first label of a name is the one that is kept. -/
theorem first_of_mem_distinct {seen ls : List String} {l : String} (h : l ∈ distinct seen ls) :
    ∃ front back, ls = front ++ l :: back ∧ ∀ m ∈ front, Text.sameName m l = false := by
  induction ls generalizing seen with
  | nil => cases h
  | cons k ls ih =>
    -- the rest is gone through with the name of `k` among those seen, whether it was before or is now
    have hrest : ∀ seen, Text.fold k ∈ seen → l ∈ distinct seen ls →
        ∃ front back, k :: ls = front ++ l :: back ∧ ∀ m ∈ front, Text.sameName m l = false := by
      intro seen hk hl
      have hkl : Text.fold k ≠ Text.fold l := fun heq => (mem_distinct hl).2 (heq ▸ hk)
      obtain ⟨front, back, rfl, hfront⟩ := ih hl
      exact ⟨k :: front, back, rfl, List.forall_mem_cons.mpr ⟨Text.sameName_eq_false_iff.mpr hkl, hfront⟩⟩
    by_cases hk : Text.fold k ∈ seen
    · rw [distinct, if_pos hk] at h
      exact hrest seen hk h
    · rw [distinct, if_neg hk] at h
      rcases List.mem_cons.mp h with rfl | h
      · exact ⟨[], ls, rfl, fun m hm => absurd hm List.not_mem_nil⟩
      · exact hrest _ List.mem_cons_self h

/-! ## One label after the other -/

/-- The issue with one more label, unless it has that name. -/
def withLabel (i : Issue) (l : String) : Issue := if i.hasLabel l then i else { i with labels := i.labels ++ [l] }

theorem hasLabel_withLabel (i : Issue) (l name : String) :
    (i.withLabel l).hasLabel name = (i.hasLabel name || Text.sameName l name) := by
  unfold withLabel
  split
  · rename_i h
    cases hs : Text.sameName l name with
    | false => rw [Bool.or_false]
    | true => rw [← hasLabel_congr (Text.sameName_iff.mp hs), h, Bool.or_true]
  · simp [hasLabel]

theorem withLabels_eq (i : Issue) (ls : List String) :
    i.withLabels ls = { i with labels := i.labels ++ distinct (i.labels.map Text.fold) ls } := by
  have hnew : (fun l => !i.hasLabel l) = fun l => decide (Text.fold l ∉ i.labels.map Text.fold) := by
    funext l
    rw [Bool.eq_iff_iff, Bool.not_eq_true', decide_eq_true_iff, ← hasLabel_iff, Bool.not_eq_true]
  rw [withLabels, hnew, ← distinct_append, List.nil_append]

theorem withLabels_cons (i : Issue) (l : String) (ls : List String) :
    i.withLabels (l :: ls) = (i.withLabel l).withLabels ls := by
  by_cases h : i.hasLabel l = true
  · simp [withLabels, withLabel, h]
  · have hl : Text.fold l ∉ i.labels.map Text.fold := fun hmem => h (hasLabel_iff.mpr hmem)
    have hone : i.withLabel l = { i with labels := i.labels ++ [l] } := if_neg h
    -- the label is the newest of the names in one call, and the last of the labels in the next
    have hswap : distinct (Text.fold l :: i.labels.map Text.fold) ls =
        distinct (i.labels.map Text.fold ++ [Text.fold l]) ls := by
      rw [← List.nil_append (Text.fold l :: _), ← List.nil_append (_ ++ [Text.fold l]), distinct_append, distinct_append]
      simp [or_comm]
    rw [withLabels_eq, withLabels_eq, distinct, if_neg hl, hswap, hone]
    simp

theorem withLabels_append (i : Issue) (a b : List String) : (i.withLabels a).withLabels b = i.withLabels (a ++ b) := by
  induction a generalizing i with
  | nil => simp [withLabels, distinct]
  | cons l a ih => rw [List.cons_append, withLabels_cons, withLabels_cons, ih]

theorem hasLabel_withLabels (i : Issue) (ls : List String) (name : String) :
    (i.withLabels ls).hasLabel name = (i.hasLabel name || ls.any (Text.sameName · name)) := by
  induction ls generalizing i with
  | nil => simp [withLabels, distinct]
  | cons l ls ih => rw [withLabels_cons, ih, hasLabel_withLabel, List.any_cons, Bool.or_assoc]

/-! ## Labels as a union -/

/-- Two batches of labels do what one list of both does. The labels of before stay at the front, and those after them
    are in their first spelling, different names from each other and from those of before. Names are there that were
    there or are added, and nothing but the labels changes. -/
theorem withLabels_unites (i : Issue) (a b : List String) :
    (i.withLabels a).withLabels b = i.withLabels (a ++ b) ∧
    (∀ name ∈ a, (i.withLabels a).hasLabel name = true) ∧
    (∀ name, (i.withLabels a).hasLabel name = (i.hasLabel name || a.any (Text.sameName · name))) ∧
    ∃ added, i.withLabels a = { i with labels := i.labels ++ added } ∧
      (∀ l ∈ added, ∃ front back, a = front ++ l :: back ∧ ∀ m ∈ front, Text.sameName m l = false) ∧
      Apart added ∧ ∀ l ∈ added, ∀ m ∈ i.labels, Text.sameName m l = false := by
  refine ⟨withLabels_append i a b, ?_, hasLabel_withLabels i a, _, withLabels_eq i a, ?_, apart_distinct _ a, ?_⟩
  · intro name hname
    have hany : a.any (Text.sameName · name) = true := List.any_eq_true.mpr ⟨name, hname, Text.sameName_iff.mpr rfl⟩
    rw [hasLabel_withLabels, hany, Bool.or_true]
  · intro l hl
    exact first_of_mem_distinct hl
  · intro l hl
    apply hasLabel_eq_false_iff.mp
    rw [← Bool.not_eq_true, hasLabel_iff]
    exact (mem_distinct hl).2

/-- New and old spellings of names, mixed in two batches. -/
theorem withLabels_unites_spellings :
    let runtime : Repository := ⟨"dotnet", "runtime", by decide, by decide, by decide, by decide⟩
    let i : Issue := { Issue.new runtime 1 with labels := ["bug", "BUG"] }
    "p1" ∈ ["P1", "Bug", "p1"] ∧ (i.withLabels ["P1", "Bug", "p1"]).hasLabel "p1" = true ∧
      (i.withLabels ["P1", "Bug", "p1"]).withLabels ["area-Meta", "P1"] =
        i.withLabels ["P1", "Bug", "p1", "area-Meta", "P1"] ∧
      i.withLabels ["P1", "Bug", "p1"] = { i with labels := ["bug", "BUG", "P1"] } := by
  intro runtime i
  obtain ⟨hbatches, hthere, -⟩ := withLabels_unites i ["P1", "Bug", "p1"] ["area-Meta", "P1"]
  exact ⟨by decide, hthere "p1" (by decide), hbatches, by decide⟩

end Triage.Issue
