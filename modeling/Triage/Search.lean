/-
  Triage.Search — queries for the tracker's own search page.

  A search is a text, perhaps within one repository. An expression has one where the search syntax can say the same:
  it is a conjunction of literals, or stands for one repository alone. `links` gives one search for each known
  repository in which the expression can match.
-/

import Triage.Expr.Basic
import Triage.Repository
import Triage.Text

namespace Triage

structure Search where
  repository : Option Repository
  query : String
  deriving DecidableEq

namespace Search

def url (s : Search) : String :=
  match s.repository with
  | some r => r.url ++ "/issues?q=" ++ Text.Percent.encode s.query
  | none => "https://github.com/search?q=" ++ Text.Percent.encode s.query ++ "&type=issues"

def text (s : Search) : String :=
  match s.repository with
  | some r => if s.query.isEmpty then "repo:" ++ r.key else "repo:" ++ r.key ++ " " ++ s.query
  | none => s.query

/-! ## Values -/

/-- In quotes, those inside escaped. A backslash is left as it is. -/
def quoted (name : String) : String :=
  String.ofList ('"' :: (name.toList.flatMap fun c => if c = '"' then ['\\', '"'] else [c]) ++ ['"'])

/-- In quotes where there is a blank to protect. -/
def value (name : String) : String := if name.toList.any Text.isBlank then quoted name else name

def kindText (isIssue : Bool) : String := if isIssue then "is:issue" else "is:pr"

def stateText (isOpen : Bool) : String := if isOpen then "is:open" else "is:closed"

/-! ## Expressions -/

def leafText : Leaf → Option String
  | .label name => some ("label:" ++ quoted name)
  | .milestone (some name) => some ("milestone:" ++ value name)
  | .milestone none => some "no:milestone"
  | .assignee (some name) => some ("assignee:" ++ value name)
  | .assignee none => some "no:assignee"
  | .isIssue b => some (kindText b)
  | .isOpen b => some (stateText b)
  | .labelPattern _ | .milestonePattern _ | .untriaged _ => none

/-- The search syntax can deny a name, but not the lack of one. -/
def negatedLeafText : Leaf → Option String
  | .label name => some ("-label:" ++ quoted name)
  | .milestone (some name) => some ("-milestone:" ++ value name)
  | .assignee (some name) => some ("-assignee:" ++ value name)
  | .isIssue b => some (kindText !b)
  | .isOpen b => some (stateText !b)
  | .milestone none | .assignee none | .labelPattern _ | .milestonePattern _ | .untriaged _ => none

mutual

/-- The search text of an expression, of its negation if `negated`. Nothing is asked by the empty text. -/
def fragment (negated : Bool) : Expr → Option String
  | .const b => if b != negated then some "" else none
  | .leaf l => if negated then negatedLeafText l else leafText l
  | .not e => fragment (!negated) e
  | .and es => if negated then none else (fragments es).map fun fs => " ".intercalate (fs.filter fun f => !f.isEmpty)
  | .or _ | .perRepo _ _ => none

def fragments : List Expr → Option (List String)
  | [] => some []
  | e :: es => do return (← fragment false e) :: (← fragments es)

end

/-- The search for an expression. One that is false outside of a single repository is searched for there. -/
def ofExpr : Expr → Option Search
  | .perRepo [(r, e)] (.const false) => (fragment false e).map (⟨some r, ·⟩)
  | e => (fragment false e).map (⟨none, ·⟩)

/-- For each known repository where the expression is not simply false, the search for it there, if it has one. -/
def links (g : Registry) (e : Expr) : List (Repository × Option Search) :=
  (g.repositories.filter fun r => !(e.inRepo r).isConst false).map fun r =>
    (r, (fragment false (e.inRepo r)).map (⟨some r, ·⟩))

end Search

end Triage
