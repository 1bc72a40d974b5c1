/-
  Triage.Warning — names in an expression that no issue of a collection uses.

  A warning is advice: an expression means the same with it. Warnings come in the order in which the names are read,
  entries per repository before the fallback, and each comes once.
-/

import Triage.Expr.Basic
import Triage.Issue

namespace Triage

inductive Warning where
  | unknownLabel (name : String)
  | unknownMilestone (name : String)
  | unknownAssignee (name : String)
  deriving DecidableEq, Repr

namespace Warning

def message : Warning → String
  | .unknownLabel name => "label '" ++ name ++ "' is not used by any issue"
  | .unknownMilestone name => "milestone '" ++ name ++ "' is not used by any issue"
  | .unknownAssignee name => "assignee '" ++ name ++ "' is not assigned to any issue"

end Warning

def Leaf.warning? (known : Issue.Names) : Leaf → Option Warning
  | .label name => if known.hasLabel name then none else some (.unknownLabel name)
  | .milestone (some name) => if known.hasMilestone name then none else some (.unknownMilestone name)
  | .assignee (some name) => if known.hasAssignee name then none else some (.unknownAssignee name)
  | _ => none

namespace Expr

mutual

/-- The leaves in the order in which they are read. -/
def leaves : Expr → List Leaf
  | .const _ => []
  | .leaf l => [l]
  | .not e => e.leaves
  | .and es | .or es => leavesAll es
  | .perRepo entries fallback => leavesEntries entries ++ fallback.leaves

def leavesAll : List Expr → List Leaf
  | [] => []
  | e :: es => e.leaves ++ leavesAll es

def leavesEntries : List (Repository × Expr) → List Leaf
  | [] => []
  | (_, e) :: es => e.leaves ++ leavesEntries es

end

/-- Adds a warning that is not there yet. -/
def warn (known : Issue.Names) (ws : List Warning) (l : Leaf) : List Warning :=
  match l.warning? known with
  | some w => if w ∈ ws then ws else ws ++ [w]
  | none => ws

def warnings (known : Issue.Names) (e : Expr) : List Warning := e.leaves.foldl (warn known) []

end Expr

end Triage
