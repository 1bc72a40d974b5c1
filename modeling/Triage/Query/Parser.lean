/-
  Triage.Query.Parser — from tokens to a formula.

  A query may call formulas by a name, as in "is:name". Their names are compared without regard to ASCII case, and
  `insert` replaces what a name stood for.

  From the weakest to the strongest: OR, AND, NOT. The AND between two operands may be left out. `run` goes through
  the tokens once; it holds the brackets that are open around the place, innermost first, and in each the operands
  read so far. It stops at the first error or after a whole expression, and tells what is left of the tokens.
-/

import Triage.Expr.Formula
import Triage.Query.Token

namespace Triage.Query

/-! ## Leaves -/

structure Leaves where
  /-- By folded name, one entry for each. -/
  entries : List (String × Formula)

namespace Leaves

def empty : Leaves := ⟨[]⟩

def size (ls : Leaves) : Nat := ls.entries.length

def isEmpty (ls : Leaves) : Bool := ls.entries.isEmpty

def find? (ls : Leaves) (name : String) : Option Formula := ls.entries.lookup (Text.fold name)

def insert (ls : Leaves) (name : String) (f : Formula) : Leaves :=
  ⟨(Text.fold name, f) :: ls.entries.filter fun (n, _) => n != Text.fold name⟩

def ofList (entries : List (String × Formula)) : Leaves := entries.foldl (fun ls (n, e) => ls.insert n e) .empty

end Leaves

/-- The values of "is" with a meaning of their own, which no leaf takes away. -/
def reservedNames : List String := ["issue", "pr", "open", "closed"]

def isReserved (name : String) : Bool := reservedNames.any (Text.sameName · name)

/-- The formula of a key and its value. -/
def leaf (leaves : Leaves) (key value : String) : Except Cause Formula :=
  let k := Text.fold key
  let v := Text.fold value
  if k = "label" then .ok (.leaf (.label value))
  else if k = "-label" then .ok (.not (.leaf (.label value)))
  else if k = "milestone" then .ok (.leaf (.milestone (some value)))
  else if k = "assignee" then .ok (.leaf (.assignee (some value)))
  else if k = "no" then
    if v = "milestone" then .ok (.leaf (.milestone none))
    else if v = "assignee" then .ok (.leaf (.assignee none))
    else .error (.unknownValue "no" value)
  else if k = "is" then
    if v = "issue" then .ok (.leaf (.isIssue true))
    else if v = "pr" then .ok (.leaf (.isIssue false))
    else if v = "open" then .ok (.leaf (.isOpen true))
    else if v = "closed" then .ok (.leaf (.isOpen false))
    else match leaves.find? value with
      | some f => .ok f
      | none => .error (.unknownValue "is" value)
  else .error (.unknownKey key)

/-! ## Expressions -/

/-- One operand for itself, several under a connective. -/
def joined (connective : List Formula → Formula) : List Formula → Formula
  | [f] => f
  | fs => connective fs

/-- What has been read inside one pair of brackets, or outside all. -/
structure Group where
  /-- The operands of OR before the one being read, latest first. -/
  ors : List Formula
  /-- The operands of AND before the one being read, latest first. -/
  ands : List Formula
  /-- The NOTs right before the place. -/
  nots : Nat

namespace Group

def empty : Group := ⟨[], [], 0⟩

def negated (f : Formula) : Nat → Formula
  | 0 => f
  | n + 1 => .not (negated f n)

def push (g : Group) (f : Formula) : Group := { g with ands := negated f g.nots :: g.ands, nots := 0 }

def alternative (g : Group) : Formula := joined .and g.ands.reverse

def close (g : Group) : Formula := joined .or (g.alternative :: g.ors).reverse

def nextAlternative (g : Group) : Group := ⟨g.alternative :: g.ors, [], 0⟩

end Group

/-- What comes next: an operand, told apart by what it comes after, or an operator. -/
inductive Awaited where
  | first
  | afterBracket (position : Nat)
  | afterOperator (op : Operator) (position : Nat)
  | operator
  deriving DecidableEq

/-- A formula or an error, and the tokens that have not been used. -/
structure Outcome where
  result : Except Error Formula
  rest : List Token

namespace Outcome

def failed (cause : Cause) (position : Nat) (rest : List Token) : Outcome := ⟨.error ⟨cause, position⟩, rest⟩

end Outcome

/-- An operand is awaited, and the tokens do not start with one. -/
def noOperand (stop : Nat) : Awaited → List Token → Outcome
  | .afterOperator op p, ts => .failed (.missingAfter op) p ts
  | .afterBracket p, ⟨.bracketRight, q⟩ :: ts => .failed .emptyBrackets p (⟨.bracketRight, q⟩ :: ts)
  | _, ⟨.and, p⟩ :: ts => .failed (.missingBefore .and) p ts
  | _, ⟨.or, p⟩ :: ts => .failed (.missingBefore .or) p ts
  | _, ⟨.bracketRight, p⟩ :: ts => .failed .unmatchedBracket p ts
  | _, ts => .failed .unexpectedEnd stop ts

def run (leaves : Leaves) (stop : Nat) (awaited : Awaited) (g : Group) (outer : List (Nat × Group)) :
    List Token → Outcome
  | ⟨.not, p⟩ :: ts => run leaves stop (.afterOperator .not p) { g with nots := g.nots + 1 } outer ts
  | ⟨.bracketLeft, p⟩ :: ts => run leaves stop (.afterBracket p) .empty ((p, g) :: outer) ts
  | ⟨.pair key value, p⟩ :: ts =>
    match leaf leaves key value with
    | .ok f => run leaves stop .operator (g.push f) outer ts
    | .error cause => .failed cause p ts
  | ⟨.word word, p⟩ :: ts => .failed (.unexpectedWord word) p ts
  | ⟨.and, p⟩ :: ts =>
    if awaited = .operator then run leaves stop (.afterOperator .and p) g outer ts
    else noOperand stop awaited (⟨.and, p⟩ :: ts)
  | ⟨.or, p⟩ :: ts =>
    if awaited = .operator then run leaves stop (.afterOperator .or p) g.nextAlternative outer ts
    else noOperand stop awaited (⟨.or, p⟩ :: ts)
  | ⟨.bracketRight, p⟩ :: ts =>
    if awaited = .operator then
      match outer with
      | [] => ⟨.ok g.close, ⟨.bracketRight, p⟩ :: ts⟩
      | (_, g') :: outer => run leaves stop .operator (g'.push g.close) outer ts
    else noOperand stop awaited (⟨.bracketRight, p⟩ :: ts)
  | [] =>
    if awaited = .operator then
      match outer with
      | [] => ⟨.ok g.close, []⟩
      | (p, _) :: _ => .failed .unclosedBracket p []
    else noOperand stop awaited []

/-- A query that is read expression by expression. -/
structure Parser where
  leaves : Leaves
  rest : List Token
  stop : Nat

namespace Parser

def start (leaves : Leaves) (query : String) : Except Error Parser :=
  (tokenize query).map fun ts => ⟨leaves, ts.items, ts.stop⟩

/-- Reads one expression. What was used before an error stays used. -/
def expression (p : Parser) : Except Error Formula × Parser :=
  match p.rest with
  | [] => (.error ⟨.emptyQuery, p.stop⟩, p)
  | ts =>
    let o := run p.leaves p.stop .first .empty [] ts
    (o.result, { p with rest := o.rest })

/-- Refuses what is left over. -/
def finish (p : Parser) : Except Error Unit :=
  match p.rest with
  | [] => .ok ()
  | t :: _ =>
    match t.symbol with
    | .bracketRight => .error ⟨.unmatchedBracket, t.position⟩
    | _ => .error ⟨.unexpectedToken, t.position⟩

end Parser

/-- The formula of a whole query. -/
def parse (leaves : Leaves) (query : String) : Except Error Formula := do
  let p ← Parser.start leaves query
  let (result, p) := p.expression
  let f ← result
  p.finish
  return f

end Triage.Query
