/-
  Triage.Issue — an issue-tracker record as queries see it.

  An issue's labels are names: `withLabels` adds only those that are not there in any spelling.

  `Names` is all that a check of a query asks of a collection of issues. A set of issues answers it from an index of
  folded names.
-/

import Triage.Repository

namespace Triage

namespace Issue

inductive State where
  | opened
  | closed
  deriving DecidableEq, Repr

inductive Kind where
  | issue
  | pullRequest
  | comment
  deriving DecidableEq, Repr

/-- A comment belongs to an issue; only a pull request is none. -/
def Kind.isIssue : Kind → Bool
  | .pullRequest => false
  | .issue | .comment => true

end Issue

structure Issue where
  number : UInt64
  repository : Repository
  labels : List String
  milestone : Option String
  assignee : Option String
  state : Issue.State
  kind : Issue.Kind
  deriving DecidableEq

namespace Issue

def new (repository : Repository) (number : UInt64) : Issue := ⟨number, repository, [], none, none, .opened, .issue⟩

def hasLabel (i : Issue) (name : String) : Bool := i.labels.any (Text.sameName · name)

theorem hasLabel_iff {i : Issue} {name : String} :
    i.hasLabel name = true ↔ Text.fold name ∈ i.labels.map Text.fold := by
  simp only [hasLabel, List.any_eq_true, List.mem_map, Text.sameName_iff]

/-- The names of which none was seen before, each in its first spelling. -/
def distinct (seen : List String) : List String → List String
  | [] => []
  | l :: ls => if Text.fold l ∈ seen then distinct seen ls else l :: distinct (Text.fold l :: seen) ls

def withLabels (i : Issue) (labels : List String) : Issue :=
  { i with labels := i.labels ++ distinct [] (labels.filter fun l => !i.hasLabel l) }

def withMilestone (i : Issue) (name : String) : Issue := { i with milestone := some name }

def withAssignee (i : Issue) (name : String) : Issue := { i with assignee := some name }

def withState (i : Issue) (state : State) : Issue := { i with state }

def withKind (i : Issue) (kind : Kind) : Issue := { i with kind }

def isOpen (i : Issue) : Bool := i.state == .opened

def url (i : Issue) : String :=
  let segment := match i.kind with
    | .pullRequest => "pull"
    | .issue | .comment => "issues"
  i.repository.url ++ "/" ++ segment ++ "/" ++ toString i.number.toNat

/-! ## Collections -/

/-- Which names a collection knows. -/
structure Names where
  hasLabel : String → Bool
  hasMilestone : String → Bool
  hasAssignee : String → Bool

structure Set where
  issues : List Issue
  labels : List String
  milestones : List String
  assignees : List String

namespace Set

def ofList (issues : List Issue) : Set :=
  ⟨issues, issues.flatMap fun i => i.labels.map Text.fold, issues.filterMap fun i => i.milestone.map Text.fold,
    issues.filterMap fun i => i.assignee.map Text.fold⟩

def hasLabel (s : Set) (name : String) : Bool := s.labels.contains (Text.fold name)

def hasMilestone (s : Set) (name : String) : Bool := s.milestones.contains (Text.fold name)

def hasAssignee (s : Set) (name : String) : Bool := s.assignees.contains (Text.fold name)

def names (s : Set) : Names := ⟨s.hasLabel, s.hasMilestone, s.hasAssignee⟩

end Set

end Issue

end Triage
