/-
  Triage.Regex.CharSet — sets of characters as they stand in a pattern.

  `spelled` marks where a pattern that ignores case takes a character for any of its spellings. `ranges` is the set
  that is meant, with the marks or without them.

  A backslash introduces a character, a set of characters or an edge. Punctuation stands for itself after it. A letter
  or a digit must have a meaning of its own; digits have none, so there are no back references.

  In brackets, as in `[^a-z\d]` or `[[:alpha:]&&[^x]]`, items side by side are united; `&&`, `--` and `~~` combine
  everything before them with the items up to the next such operator or the end, and brackets nest. A set is written
  with all spellings of its members, before a leading `^` takes its complement. Its height is how deep brackets,
  operators and items side by side nest in it.
-/

import Triage.Regex.Basic
import Triage.Regex.CaseFold
import Triage.Regex.Properties

namespace Triage.Regex

inductive CharSet where
  | empty
  | range (lo hi : Char)
  | digit
  | blank
  | word
  | union (a b : CharSet)
  | inter (a b : CharSet)
  | compl (a : CharSet)
  /-- With a character, all its spellings. -/
  | spelled (a : CharSet)
  deriving DecidableEq

namespace CharSet

def single (c : Char) : CharSet := .range c c

def diff (a b : CharSet) : CharSet := .inter a (.compl b)

def symmDiff (a b : CharSet) : CharSet := .union (diff a b) (diff b a)

open Unicode (Ranges)

def ranges (ignoreCase : Bool) : CharSet → Ranges
  | .empty => []
  | .range lo hi => [(lo.toNat, hi.toNat)]
  | .digit => Unicode.digitRanges
  | .blank => Unicode.blankRanges
  | .word => Unicode.wordRanges
  | .union a b => (a.ranges ignoreCase).union (b.ranges ignoreCase)
  | .inter a b => (a.ranges ignoreCase).inter (b.ranges ignoreCase)
  | .compl a => (a.ranges ignoreCase).compl
  | .spelled a => if ignoreCase then (a.ranges ignoreCase).spellings else a.ranges ignoreCase

end CharSet

/-! ## Escapes -/

inductive Escape where
  | char (c : Char)
  | set (s : CharSet)
  | edge (e : Edge)

namespace Escape

def hexValue (c : Char) : Option Nat :=
  if '0' ≤ c ∧ c ≤ '9' then some (c.toNat - 48)
  else if 'a' ≤ c ∧ c ≤ 'f' then some (c.toNat - 87)
  else if 'A' ≤ c ∧ c ≤ 'F' then some (c.toNat - 55)
  else none

/-- The character of a code in hexadecimal digits, of which there is one at least. -/
def charOfHex (digits : List Char) : Option Char := do
  let code ← digits.foldlM (fun n c => (hexValue c).map (16 * n + ·)) 0
  if !digits.isEmpty && code.isValidChar then some (Char.ofNat code) else none

/-- A code of `width` digits, or one of any width in braces. -/
def hex (width : Nat) : List Char → Option (Char × List Char)
  | '{' :: cs =>
    match cs.span (· != '}') with
    | (digits, _ :: rest) => (charOfHex digits).map ((·, rest))
    | (_, []) => none
  | cs => if width ≤ cs.length then (charOfHex (cs.take width)).map ((·, cs.drop width)) else none

/-- The edges that `\b` names in braces, as in `\b{start}`. -/
def namedEdge (name : List Char) : Option Edge :=
  match String.ofList name with
  | "start" => some .wordStart
  | "end" => some .wordEnd
  | "start-half" => some .halfStart
  | "end-half" => some .halfEnd
  | _ => none

def isNameChar (c : Char) : Bool := c.isAlpha || c == '-'

/-- After `\b`: a brace with a name in it belongs to the edge, another brace does not. -/
def wordEdge : List Char → Option (Edge × List Char)
  | ['{'] => none
  | '{' :: c :: cs =>
    if isNameChar c then
      match (c :: cs).span isNameChar with
      | (name, '}' :: rest) => (namedEdge name).map ((·, rest))
      | _ => none
    else some (.wordEdge, '{' :: c :: cs)
  | cs => some (.wordEdge, cs)

/-- ASCII punctuation, blanks and controls, save the angle brackets. -/
def isPlain (c : Char) : Bool := c.toNat < 128 && !c.isAlphanum && c != '<' && c != '>'

/-- The escape whose backslash has been read, and what follows it. -/
def read : List Char → Option (Escape × List Char)
  | [] => none
  | c :: cs =>
    match c with
    | 'd' => some (.set .digit, cs)
    | 'D' => some (.set (.compl .digit), cs)
    | 's' => some (.set .blank, cs)
    | 'S' => some (.set (.compl .blank), cs)
    | 'w' => some (.set .word, cs)
    | 'W' => some (.set (.compl .word), cs)
    | 'x' => (hex 2 cs).map fun (c, rest) => (.char c, rest)
    | 'u' => (hex 4 cs).map fun (c, rest) => (.char c, rest)
    | 'U' => (hex 8 cs).map fun (c, rest) => (.char c, rest)
    | 'a' => some (.char '\x07', cs)
    | 'f' => some (.char '\x0c', cs)
    | 't' => some (.char '\t', cs)
    | 'n' => some (.char '\n', cs)
    | 'r' => some (.char '\r', cs)
    | 'v' => some (.char '\x0b', cs)
    | 'A' => some (.edge .textStart, cs)
    | 'z' => some (.edge .textEnd, cs)
    | 'b' => (wordEdge cs).map fun (e, rest) => (.edge e, rest)
    | 'B' => some (.edge .noWordEdge, cs)
    | '<' => some (.edge .wordStart, cs)
    | '>' => some (.edge .wordEnd, cs)
    | c => if isPlain c then some (.char c, cs) else none

end Escape

/-! ## Brackets -/

inductive SetOp where
  | inter
  | diff
  | symmDiff
  deriving DecidableEq

def SetOp.apply : SetOp → CharSet → CharSet → CharSet
  | .inter => .inter
  | .diff => .diff
  | .symmDiff => .symmDiff

/-- A set as it stands in a pattern, with its height. -/
structure SetText where
  set : CharSet
  height : Nat

/-- An open bracket: what stands before the last operator, and the items since. -/
structure Bracket where
  negated : Bool
  before : Option (SetText × SetOp)
  items : CharSet
  count : Nat
  /-- The greatest height of an item. -/
  deepest : Nat

namespace Bracket

def start (negated : Bool) : Bracket := ⟨negated, none, .empty, 0, 0⟩

def add (b : Bracket) (s : SetText) : Bracket :=
  { b with items := .union b.items s.set, count := b.count + 1, deepest := max b.deepest s.height }

/-- The items since the last operator. -/
def latest (b : Bracket) : SetText := ⟨.spelled b.items, if b.count < 2 then b.deepest else b.deepest + 1⟩

/-- Everything read so far as one set. -/
def value (b : Bracket) : SetText :=
  match b.before with
  | some (s, op) => ⟨op.apply s.set b.latest.set, max s.height b.latest.height + 1⟩
  | none => b.latest

def operate (b : Bracket) (op : SetOp) : Bracket := { start b.negated with before := some (b.value, op) }

def close (b : Bracket) : SetText := ⟨if b.negated then .compl b.value.set else b.value.set, b.value.height + 1⟩

/-- Hyphens right after the opening stand for themselves. -/
def hyphens (b : Bracket) : List Char → Bracket × List Char
  | '-' :: cs => hyphens (b.add ⟨.single '-', 0⟩) cs
  | cs => (b, cs)

/-- A bracket whose opening has been read, up to its first proper item. A closing bracket there is an item. -/
def begin (cs : List Char) : Bracket × List Char :=
  let (negated, cs) := match cs with
    | '^' :: cs => (true, cs)
    | cs => (false, cs)
  match cs with
  | ']' :: rest => ((start negated).add ⟨.single ']', 0⟩, rest)
  | cs => hyphens (start negated) cs

def asciiClass (name : List Char) : Option CharSet :=
  let capitals := CharSet.range 'A' 'Z'
  let smalls := CharSet.range 'a' 'z'
  let digits := CharSet.range '0' '9'
  let letters := CharSet.union capitals smalls
  match String.ofList name with
  | "alnum" => some (.union letters digits)
  | "alpha" => some letters
  | "ascii" => some (.range '\x00' '\x7f')
  | "blank" => some (.union (.single '\t') (.single ' '))
  | "cntrl" => some (.union (.range '\x00' '\x1f') (.single '\x7f'))
  | "digit" => some digits
  | "graph" => some (.range '!' '~')
  | "lower" => some smalls
  | "print" => some (.range ' ' '~')
  | "punct" => some (.diff (.range '!' '~') (.union letters digits))
  | "space" => some (.union (.range '\t' '\r') (.single ' '))
  | "upper" => some capitals
  | "word" => some (.union (.union letters digits) (.single '_'))
  | "xdigit" => some (.union digits (.union (.range 'A' 'F') (.range 'a' 'f')))
  | _ => none

/-- A class such as `[:alpha:]` whose opening bracket has been read. -/
def namedClass? : List Char → Option (CharSet × List Char)
  | ':' :: cs =>
    let (negated, cs) := match cs with
      | '^' :: cs => (true, cs)
      | cs => (false, cs)
    match cs.span (· != ':') with
    | (name, ':' :: ']' :: rest) =>
      (asciiClass name).map fun s => (if negated then .compl (.spelled s) else s, rest)
    | _ => none
  | _ => none

/-- One character or one escaped set. -/
def item : List Char → Option ((Char ⊕ CharSet) × List Char)
  | '\\' :: cs => match Escape.read cs with
    | some (.char c, rest) => some (.inl c, rest)
    | some (.set s, rest) => some (.inr s, rest)
    | _ => none
  | c :: cs => some (.inl c, cs)
  | [] => none

def setOf : Char ⊕ CharSet → CharSet
  | .inl c => .single c
  | .inr s => s

/-- An item, or a range of two characters. A hyphen before the closing bracket or another hyphen makes no range. -/
def range (cs : List Char) : Option (CharSet × List Char) := do
  match ← item cs with
  | (first, '-' :: rest) =>
    match rest with
    | ']' :: _ | '-' :: _ => return (setOf first, '-' :: rest)
    | _ =>
      match first, ← item rest with
      | .inl lo, (.inl hi, rest) => if lo ≤ hi then return (.range lo hi, rest) else none
      | _, _ => none
  | (first, rest) => return (setOf first, rest)

/-- Reads on inside bracket `b`, which lies in `outer`, innermost first. Each round takes a character or more. -/
def read : Nat → Bracket → List Bracket → List Char → Option (SetText × List Char)
  | 0, _, _, _ => none
  | n + 1, b, outer, cs =>
    match cs with
    | [] => none
    | '[' :: rest =>
      match namedClass? rest with
      | some (s, rest) => read n (b.add ⟨s, 0⟩) outer rest
      | none =>
        let (inner, rest) := begin rest
        read n inner (b :: outer) rest
    | ']' :: rest =>
      match outer with
      | [] => some (b.close, rest)
      | o :: os => read n (o.add b.close) os rest
    | '&' :: '&' :: rest => read n (b.operate .inter) outer rest
    | '-' :: '-' :: rest => read n (b.operate .diff) outer rest
    | '~' :: '~' :: rest => read n (b.operate .symmDiff) outer rest
    | cs =>
      match range cs with
      | some (s, rest) => read n (b.add ⟨s, 0⟩) outer rest
      | none => none

/-- The set whose opening bracket has been read, and what follows its closing one. -/
def set (cs : List Char) : Option (SetText × List Char) :=
  let (b, rest) := begin cs
  read (cs.length + 1) b [] rest

end Bracket

end Triage.Regex
