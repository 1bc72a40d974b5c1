/-
  Triage.Proofs.Issue.Labels — when the labels of an issue are different names.

  `withLabels` adds only names that are different from each other and from the labels that are there, and no other
  change touches the labels: after any changes the labels are those of before, followed by new names (`Grows`). So
  changes neither bring nor remove a repetition. A new issue has no labels to repeat; one that is read has the labels
  of its text, where a name may be listed twice (`read_labels_repeated`).
-/

import Triage.Issue.Json

namespace Triage.Issue

/-- No two of the names are one name. -/
def Apart (names : List String) : Prop := names.Pairwise fun a b => Text.sameName a b = false

theorem hasLabel_eq_false_iff {i : Issue} {name : String} :
    i.hasLabel name = false ↔ ∀ l ∈ i.labels, Text.sameName l name = false := by
  rw [hasLabel, List.any_eq_false]
  simp only [Bool.not_eq_true]

/-! ## Names in their first spelling -/

theorem mem_distinct {seen ls : List String} {l : String} (h : l ∈ distinct seen ls) : l ∈ ls ∧ Text.fold l ∉ seen := by
  induction ls generalizing seen with
  | nil => cases h
  | cons k ls ih =>
    rw [distinct] at h
    split at h
    · exact (ih h).imp_left (List.mem_cons_of_mem k)
    · rename_i hk
      rcases List.mem_cons.mp h with rfl | h
      · exact ⟨List.mem_cons_self, hk⟩
      · obtain ⟨hl, hseen⟩ := ih h
        exact ⟨List.mem_cons_of_mem k hl, fun hmem => hseen (List.mem_cons_of_mem _ hmem)⟩

theorem apart_distinct (seen ls : List String) : Apart (distinct seen ls) := by
  induction ls generalizing seen with
  | nil => exact .nil
  | cons k ls ih =>
    rw [distinct]
    split
    · exact ih seen
    · refine List.pairwise_cons.mpr ⟨fun l hl => ?_, ih _⟩
      rw [Text.sameName_eq_false_iff]
      exact fun hkl => (mem_distinct hl).2 (hkl ▸ List.mem_cons_self)

/-! ## Labels that are only added -/

/-- The labels of `j` are those of `i` and new names after them. -/
def Grows (i j : Issue) : Prop := ∃ added, j.labels = i.labels ++ added ∧ Apart added ∧ ∀ l ∈ added, i.hasLabel l = false

theorem Grows.of_labels_eq {i j : Issue} (h : j.labels = i.labels) : Grows i j :=
  ⟨[], by rw [h, List.append_nil], .nil, nofun⟩

theorem Grows.trans {i j k : Issue} (h : Grows i j) (h' : Grows j k) : Grows i k := by
  obtain ⟨added, hj, happart, hnew⟩ := h
  obtain ⟨more, hk, hmore, hnew'⟩ := h'
  have hapart' : ∀ l ∈ more, ∀ m ∈ i.labels ++ added, Text.sameName m l = false := by
    intro l hl
    rw [← hj]
    exact hasLabel_eq_false_iff.mp (hnew' l hl)
  refine ⟨added ++ more, by rw [hk, hj, List.append_assoc], List.pairwise_append.mpr ⟨happart, hmore, ?_⟩, ?_⟩
  · exact fun m hm l hl => hapart' l hl m (List.mem_append_right _ hm)
  · intro l hl
    rcases List.mem_append.mp hl with hl | hl
    · exact hnew l hl
    · exact hasLabel_eq_false_iff.mpr fun m hm => hapart' l hl m (List.mem_append_left _ hm)

theorem Grows.apart_iff {i j : Issue} (h : Grows i j) : Apart j.labels ↔ Apart i.labels := by
  obtain ⟨added, hj, happart, hnew⟩ := h
  rw [hj, Apart, List.pairwise_append]
  exact ⟨fun h => h.1, fun h => ⟨h, happart, fun m hm l hl => hasLabel_eq_false_iff.mp (hnew l hl) m hm⟩⟩

theorem grows_withLabels (i : Issue) (names : List String) : Grows i (i.withLabels names) := by
  refine ⟨_, rfl, apart_distinct _ _, fun l hl => ?_⟩
  simpa using (List.mem_filter.mp (mem_distinct hl).1).2

/-! ## Changes -/

/-- What can be done to an issue once it is there. -/
inductive Change where
  | labels (names : List String)
  | milestone (name : String)
  | assignee (name : String)
  | state (s : State)
  | kind (k : Kind)

def change (i : Issue) : Change → Issue
  | .labels names => i.withLabels names
  | .milestone name => i.withMilestone name
  | .assignee name => i.withAssignee name
  | .state s => i.withState s
  | .kind k => i.withKind k

/-- The issue after the changes, one after the other. -/
def changes (i : Issue) (cs : List Change) : Issue := cs.foldl change i

theorem grows_change (i : Issue) (c : Change) : Grows i (i.change c) := by
  cases c with
  | labels names => exact grows_withLabels i names
  | milestone | assignee | state | kind => exact .of_labels_eq rfl

theorem grows_changes (i : Issue) (cs : List Change) : Grows i (i.changes cs) := by
  induction cs generalizing i with
  | nil => exact .of_labels_eq rfl
  | cons c cs ih => exact (grows_change i c).trans (ih (i.change c))

/-- After any changes the labels of an issue are different names exactly if they were before. Those of a new issue
    always are. -/
theorem apart_labels_changes (i : Issue) (cs : List Change) :
    (Apart (i.changes cs).labels ↔ Apart i.labels) ∧
      ∀ (r : Repository) (number : UInt64), Apart ((new r number).changes cs).labels :=
  ⟨(grows_changes i cs).apart_iff, fun r number => (grows_changes (new r number) cs).apart_iff.mpr .nil⟩

/-- A text may list a name twice as a label, and the issue that is read has both. -/
theorem read_labels_repeated :
    let runtime : Repository := ⟨"dotnet", "runtime", by decide, by decide, by decide, by decide⟩
    let i : Issue := { new runtime 1 with labels := ["bug", "BUG"] }
    readList "[\x7b\"number\": 1, \"repository\": \"dotnet/runtime\", \"labels\": [\"bug\", \"BUG\"]\x7d]" = some [i] ∧
      ¬ Apart (i.changes []).labels := by
  intro runtime i
  refine ⟨by decide +kernel, fun h => ?_⟩
  exact absurd (List.pairwise_cons.mp h).1 (by decide)

end Triage.Issue
