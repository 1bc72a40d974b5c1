/-
  Triage.Issue.Json — issues as JSON.

  An issue is written as an object of all its fields. Read, only the number and the repository have to be there, and
  members of other names are skipped.
-/

import Triage.Issue
import Triage.Json.Text
import Triage.Repository

namespace Triage.Issue

open Json (Value)

def State.name : State → String
  | .opened => "open"
  | .closed => "closed"

def State.ofName? (s : String) : Option State := [State.opened, .closed].find? (·.name == s)

def State.ofJson? (v : Value) : Option State := v.name? ["open", "closed"] >>= ofName?

def Kind.name : Kind → String
  | .issue => "issue"
  | .pullRequest => "pull_request"
  | .comment => "comment"

def Kind.ofName? (s : String) : Option Kind := [Kind.issue, .pullRequest, .comment].find? (·.name == s)

def Kind.ofJson? (v : Value) : Option Kind := v.name? ["issue", "pull_request", "comment"] >>= ofName?

def fieldNames : List String := ["number", "repository", "labels", "milestone", "assignee", "state", "kind"]

def toJson (i : Issue) : Value :=
  .record [("number", .ofNat i.number.toNat), ("repository", i.repository.toJson), ("labels", .ofTexts i.labels),
    ("milestone", .ofText? i.milestone), ("assignee", .ofText? i.assignee), ("state", .ofText i.state.name),
    ("kind", .ofText i.kind.name)]

def ofJson? (v : Value) : Option Issue := do
  match ← v.fields? fieldNames true with
  | [number, repository, labels, milestone, assignee, state, kind] =>
    return {
      number := ← Value.required? Value.word? number
      repository := ← Value.required? Repository.ofJson? repository
      labels := ← Value.orElse? [] (Value.list? Value.text?) labels
      milestone := ← Value.orElse? none (Value.nullable? Value.text?) milestone
      assignee := ← Value.orElse? none (Value.nullable? Value.text?) assignee
      state := ← Value.orElse? .opened State.ofJson? state
      kind := ← Value.orElse? .issue Kind.ofJson? kind }
  | _ => none

/-- The issues of a text that holds an array of them. -/
def readList (s : String) : Option (List Issue) := Json.read s >>= Value.list? ofJson?

def writeList (is : List Issue) : String := (Value.array (is.map toJson)).write

end Triage.Issue
