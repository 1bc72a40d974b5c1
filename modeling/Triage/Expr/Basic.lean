/-
  Triage.Expr.Basic — boolean expressions over issues.

  A leaf asks something of one issue. What a pattern asks is up to an engine for regular expressions (`Engine`): it
  tells which texts are patterns and what each matches, from the text alone. No more of it is known here, so what is
  said of expressions holds with any engine.

  Connectives take any number of operands, none included. `perRepo` stands for another expression in each repository:
  the one of its entry, or the fallback. Its entries are kept in the order of `Repository.before`, one for a
  repository. `evalWith` reads an expression under any assignment of truth values to leaves in a repository; an issue
  gives one such assignment.

  `PerRepo` is one thing per repository, built from entries in any order. An entry without a repository is the
  fallback. Two entries for one repository and two fallbacks are refused; the error is that of the first entry that
  repeats an earlier one.
-/

import Triage.Untriaged

namespace Triage

/-! ## Patterns -/

class Engine where
  /-- Whether the text is a regular expression. -/
  isPattern : String → Bool
  /-- Whether the regular expression of a text matches some part of a value, in whatever case. -/
  isMatch : String → String → Bool

/-- A regular expression, known by its text. -/
structure Pattern where
  text : String
  deriving DecidableEq

namespace Pattern

variable [Engine]

/-- The pattern of a text, unless the text is none. -/
def ofText? (text : String) : Option Pattern := if Engine.isPattern text then some ⟨text⟩ else none

def isMatch (p : Pattern) (value : String) : Bool := Engine.isMatch p.text value

end Pattern

/-! ## Expressions -/

inductive Leaf where
  | label (name : String)
  | labelPattern (p : Pattern)
  /-- `none` asks for an issue without a milestone. -/
  | milestone (name : Option String)
  | milestonePattern (p : Pattern)
  | isIssue (b : Bool)
  | isOpen (b : Bool)
  /-- `none` asks for an issue without an assignee. -/
  | assignee (name : Option String)
  | untriaged (c : UntriagedConfig)
  deriving DecidableEq

inductive Expr where
  | const (b : Bool)
  | leaf (l : Leaf)
  | not (e : Expr)
  | and (es : List Expr)
  | or (es : List Expr)
  | perRepo (entries : List (Repository × Expr)) (fallback : Expr)
  deriving Inhabited

namespace Expr

/-- The conjunction of the operands, true if there are none. -/
def all : List Expr → Expr
  | [] => .const true
  | es => .and es

/-- The disjunction of the operands, false if there are none. -/
def any : List Expr → Expr
  | [] => .const false
  | es => .or es

def isLeaf : Expr → Bool
  | .leaf _ => true
  | _ => false

def isConst (b : Bool) : Expr → Bool
  | .const c => c == b
  | _ => false

/-- The operands of a conjunction or a disjunction, none of anything else. -/
def operands : Expr → List Expr
  | .and es | .or es => es
  | _ => []

def isPerRepo : Expr → Bool
  | .perRepo _ _ => true
  | _ => false

/-- What the expression stands for in a repository, as far as its root says. -/
def inRepo (r : Repository) : Expr → Expr
  | .perRepo entries fallback => (entries.lookup r).getD fallback
  | e => e

/-- What the expression stands for in a repository without an entry, as far as its root says. -/
def elsewhere : Expr → Expr
  | .perRepo _ fallback => fallback
  | e => e

end Expr

/-! ## Issues that match -/

/-- Two names are one, or neither is there. -/
def sameOptional : Option String → Option String → Bool
  | some a, some b => Text.sameName a b
  | none, none => true
  | _, _ => false

def Leaf.eval [Engine] (i : Issue) : Leaf → Bool
  | .label name => i.hasLabel name
  | .labelPattern p => i.labels.any p.isMatch
  | .milestone name => sameOptional name i.milestone
  | .milestonePattern p => i.milestone.any p.isMatch
  | .isIssue b => i.kind.isIssue == b
  | .isOpen b => i.isOpen == b
  | .assignee name => sameOptional name i.assignee
  | .untriaged c => c.isUntriaged i

namespace Expr

mutual

def evalWith (v : Leaf → Bool) (r : Repository) : Expr → Bool
  | .const b => b
  | .leaf l => v l
  | .not e => !e.evalWith v r
  | .and es => evalAll v r es
  | .or es => evalAny v r es
  | .perRepo entries fallback =>
    match evalEntry v r entries with
    | some b => b
    | none => fallback.evalWith v r

def evalAll (v : Leaf → Bool) (r : Repository) : List Expr → Bool
  | [] => true
  | e :: es => e.evalWith v r && evalAll v r es

def evalAny (v : Leaf → Bool) (r : Repository) : List Expr → Bool
  | [] => false
  | e :: es => e.evalWith v r || evalAny v r es

/-- The value of the repository's entry, if it has one. -/
def evalEntry (v : Leaf → Bool) (r : Repository) : List (Repository × Expr) → Option Bool
  | [] => none
  | (s, e) :: es => if r = s then some (e.evalWith v r) else evalEntry v r es

end

variable [Engine]

def eval (e : Expr) (i : Issue) : Bool := e.evalWith (Leaf.eval i) i.repository

/-- The matching issues, in their order. -/
def filter (e : Expr) (issues : List Issue) : List Issue := issues.filter e.eval

end Expr

/-! ## One thing per repository -/

structure PerRepo (α : Type) where
  /-- In the order of `Repository.before`, one for a repository. -/
  entries : List (Repository × α)
  fallback : α

namespace PerRepo

variable {α : Type}

inductive Clash where
  | repository (r : Repository)
  | fallback
  deriving DecidableEq

def Clash.message : Clash → String
  | .repository r => "repository " ++ r.key ++ " has more than one expression"
  | .fallback => "more than one default expression"

/-- Puts an entry in its place among sorted entries. It takes the place of another entry of its repository. -/
def insert (r : Repository) (a : α) : List (Repository × α) → List (Repository × α)
  | [] => [(r, a)]
  | (s, b) :: rest =>
    if r = s then (r, a) :: rest
    else if r.before s then (r, a) :: (s, b) :: rest
    else (s, b) :: insert r a rest

/-- Sorted entries; of several for one repository, the first. -/
def sort (entries : List (Repository × α)) : List (Repository × α) :=
  entries.foldr (fun (r, a) es => insert r a es) []

def addAll (otherwise : α) (entries : List (Repository × α)) (fallback : Option α) :
    List (Option Repository × α) → Except Clash (PerRepo α)
  | [] => .ok ⟨entries, fallback.getD otherwise⟩
  | (some r, a) :: rest =>
    if (entries.lookup r).isSome then .error (.repository r) else addAll otherwise (insert r a entries) fallback rest
  | (none, a) :: rest =>
    if fallback.isSome then .error .fallback else addAll otherwise entries (some a) rest

/-- From a list of entries; `otherwise` is the fallback where there is none among them. -/
def ofList (otherwise : α) : List (Option Repository × α) → Except Clash (PerRepo α) := addAll otherwise [] none

def find (m : PerRepo α) (r : Repository) : α := (m.entries.lookup r).getD m.fallback

def repositories (m : PerRepo α) : List Repository := m.entries.map Prod.fst

def map {β : Type} (f : α → β) (m : PerRepo α) : PerRepo β := ⟨m.entries.map fun (r, a) => (r, f a), f m.fallback⟩

def toExpr (m : PerRepo Expr) : Expr := .perRepo m.entries m.fallback

end PerRepo

end Triage
