/-
  Triage.Expr.Text — the text of an expression.

  A leaf is written as it is queried for. Connectives inside others stand in brackets.
-/

import Triage.Expr.Basic
import Triage.Query.Token

namespace Triage

def Pattern.display (p : Pattern) : String := "/" ++ p.text ++ "/"

def Leaf.text : Leaf → String
  | .label name => "label:" ++ Query.Value.write name
  | .labelPattern p => "label:" ++ p.display
  | .milestone (some name) => "milestone:" ++ Query.Value.write name
  | .milestone none => "no:milestone"
  | .milestonePattern p => "milestone:" ++ p.display
  | .isIssue true => "is:issue"
  | .isIssue false => "is:pr"
  | .isOpen true => "is:open"
  | .isOpen false => "is:closed"
  | .assignee (some name) => "assignee:" ++ Query.Value.write name
  | .assignee none => "no:assignee"
  | .untriaged _ => "is:untriaged"

namespace Expr

def isConnective : Expr → Bool
  | .and _ | .or _ => true
  | _ => false

/-- Brackets around the text of a connective. -/
def bracket (e : Expr) (text : String) : String := if e.isConnective then "(" ++ text ++ ")" else text

mutual

def text : Expr → String
  | .const true => "true"
  | .const false => "false"
  | .leaf l => l.text
  | .not e => "!" ++ bracket e e.text
  | .and es => joined " AND " es
  | .or es => joined " OR " es
  | .perRepo entries fallback => "\x7b" ++ entriesText entries ++ "* => " ++ fallback.text ++ "\x7d"

def joined (separator : String) : List Expr → String
  | [] => ""
  | e :: es => bracket e e.text ++ joinedMore separator es

/-- Operands that follow another. -/
def joinedMore (separator : String) : List Expr → String
  | [] => ""
  | e :: es => separator ++ bracket e e.text ++ joinedMore separator es

def entriesText : List (Repository × Expr) → String
  | [] => ""
  | (r, e) :: es => r.key ++ " => " ++ e.text ++ ", " ++ entriesText es

end

end Expr

end Triage
