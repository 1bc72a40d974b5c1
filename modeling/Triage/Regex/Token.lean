/-
  Triage.Regex.Token — the tokens of a pattern.

  A token is an atom, a bracket of a group, a bar, a count of repetitions or a change of flags. Which of them may
  follow which is left to the parser.
-/

import Triage.Regex.CharSet
import Triage.Text

namespace Triage.Regex

/-- What can be switched on and off inside a pattern. -/
inductive Flag where
  | ignoreCase
  | multiLine
  | dotAll
  /-- Loops prefer to stop, and a lazy mark makes them prefer to go on. -/
  | lazy
  deriving DecidableEq

inductive Token where
  | char (c : Char)
  | set (s : SetText)
  | edge (e : Edge)
  | dot
  | caret
  | dollar
  | bar
  | capture (name : Option String)
  | group (flags : List (Flag × Bool))
  | close
  | flags (flags : List (Flag × Bool))
  | loop (least : Nat) (most : Option Nat) (marked : Bool)

namespace Token

/-! ## Groups -/

def flagOf : Char → Option Flag
  | 'i' => some .ignoreCase
  | 'm' => some .multiLine
  | 's' => some .dotAll
  | 'U' => some .lazy
  | _ => none

/-- Flags up to a colon or a closing bracket, each named once; a minus has flags after it. -/
def readFlags (on : Bool) (seen : List (Flag × Bool)) : List Char → Option (List (Flag × Bool) × Char × List Char)
  | [] => none
  | c :: cs =>
    if c = ':' ∨ c = ')' then some (seen.reverse, c, cs)
    else if c = '-' then
      match cs with
      | d :: _ => if on ∧ d ≠ ':' ∧ d ≠ ')' then readFlags false seen cs else none
      | [] => none
    else match flagOf c with
      | some f => if f ∈ seen.map Prod.fst then none else readFlags on ((f, on) :: seen) cs
      | none => none

def isNameStart (c : Char) : Bool := c == '_' || Unicode.isAlphabetic c

def isNamePart (c : Char) : Bool := isNameStart c || c == '.' || c == '[' || c == ']' || Unicode.isNumeric c

def isName : List Char → Bool
  | [] => false
  | c :: cs => isNameStart c && cs.all isNamePart

def readName (cs : List Char) : Option (Token × List Char) :=
  match cs.span (· != '>') with
  | (name, _ :: rest) => if isName name then some (.capture (some (String.ofList name)), rest) else none
  | (_, []) => none

/-- A group whose opening bracket has been read. -/
def openGroup : List Char → Option (Token × List Char)
  | '?' :: 'P' :: '<' :: cs => readName cs
  | '?' :: '<' :: '=' :: _ | '?' :: '<' :: '!' :: _ => none
  | '?' :: '<' :: cs => readName cs
  | '?' :: cs =>
    match readFlags true [] cs with
    | some (fs, ':', rest) => some (.group fs, rest)
    | some (fs, _, rest) => if fs.isEmpty then none else some (.flags fs, rest)
    | none => none
  | cs => some (.capture none, cs)

/-! ## Counts -/

/-- Digits between blanks, of a number below 2^32. -/
def count (cs : List Char) : Option Nat × List Char :=
  let cs := cs.dropWhile Text.isBlank
  let digits := cs.takeWhile Char.isDigit
  let n := digits.foldl (fun k c => 10 * k + (c.toNat - 48)) 0
  (if digits.isEmpty || UInt32.size ≤ n then none else some n, (cs.dropWhile Char.isDigit).dropWhile Text.isBlank)

/-- The least and the greatest count of a loop whose opening brace has been read. -/
def counts (cs : List Char) : Option ((Nat × Option Nat) × List Char) :=
  match count cs with
  | (some n, '}' :: rest) => some ((n, some n), rest)
  | (some n, ',' :: '}' :: rest) => some ((n, none), rest)
  | (some n, ',' :: cs) =>
    match count cs with
    | (some m, '}' :: rest) => if n ≤ m then some ((n, some m), rest) else none
    | _ => none
  | _ => none

/-- A loop, with the mark that may follow it. -/
def marked (least : Nat) (most : Option Nat) : List Char → Token × List Char
  | '?' :: cs => (.loop least most true, cs)
  | cs => (.loop least most false, cs)

/-! ## Tokens -/

/-- The token that starts with `c`, and what follows it. -/
def next (c : Char) (cs : List Char) : Option (Token × List Char) :=
  match c with
  | '\\' => (Escape.read cs).map fun
    | (.char c, rest) => (.char c, rest)
    | (.set s, rest) => (.set ⟨s, 0⟩, rest)
    | (.edge e, rest) => (.edge e, rest)
  | '[' => (Bracket.set cs).map fun (s, rest) => (.set s, rest)
  | '(' => openGroup cs
  | ')' => some (.close, cs)
  | '|' => some (.bar, cs)
  | '.' => some (.dot, cs)
  | '^' => some (.caret, cs)
  | '$' => some (.dollar, cs)
  | '?' => some (marked 0 (some 1) cs)
  | '*' => some (marked 0 none cs)
  | '+' => some (marked 1 none cs)
  | '{' => (counts cs).map fun ((least, most), rest) => marked least most rest
  | c => some (.char c, cs)

/-- At most `n` tokens of a pattern. -/
def read : Nat → List Char → Option (List Token)
  | _, [] => some []
  | 0, _ :: _ => none
  | n + 1, c :: cs => do
    let (t, rest) ← next c cs
    return t :: (← read n rest)

end Token

/-- The tokens of a pattern, each of which takes a character or more. -/
def tokens? (pattern : String) : Option (List Token) := Token.read pattern.toList.length pattern.toList

end Triage.Regex
