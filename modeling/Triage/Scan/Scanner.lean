/-
  Triage.Scan.Scanner — tokens read from pieces of a query, with places told by bytes.

  Before a query is read as tokens it is cut into lexemes: brackets, signs, colons, runs of bare characters and quoted
  text, with gaps between them. From each place on the longest lexeme is taken. A piece tells where it starts and
  stops, in bytes from the start of the query. Where no lexeme starts the cutting ends.

  A scanner takes one piece after the other and looks at the query through cuts at byte offsets; a cut that goes beyond
  the query, backwards or through a character is a fault. The position of a token or an error is the number of
  characters before a byte offset. To count them the scanner starts from the place it counted last, unless that lies
  behind. It keeps a record of its cuts and counts.
-/

import Mathlib.Data.String.Basic
import Triage.Query.Token
import Triage.Text

namespace Triage.Scan

/-! ## Lexemes -/

open Query

inductive Lexeme where
  | bracketLeft
  | bracketRight
  | not
  | and
  | or
  | colon
  | text
  | quoted
  deriving DecidableEq, Repr

/-- A lexeme and the bytes it takes up, or a place where none starts. -/
inductive Piece where
  | lexeme (l : Lexeme) (start stop : Nat)
  | unmatched (start : Nat)
  deriving DecidableEq, Repr

/-- A sign that is one character twice. -/
def doubled (c : Char) (l : Lexeme) (cs : List Char) : Option (Lexeme × List Char) :=
  if cs.head? = some c then some (l, [c]) else none

/-- The longest lexeme that starts with `c`, and what it takes of the text that follows. -/
def longest (c : Char) (cs : List Char) : Option (Lexeme × List Char) :=
  if c = '(' then some (.bracketLeft, [])
  else if c = ')' then some (.bracketRight, [])
  else if c = '!' then some (.not, [])
  else if c = '&' then doubled c .and cs
  else if c = '|' then doubled c .or cs
  else if c = ':' then some (.colon, [])
  else if c = '"' then (Value.quoted cs).map fun (_, rest) => (.quoted, cs.take (cs.length - rest.length))
  else if Value.isBareChar c then some (.text, cs.takeWhile Value.isBareChar)
  else none

/-- The pieces of a text that starts at a byte of the query. -/
def piecesFrom (start : Nat) : List Char → List Piece
  | [] => []
  | c :: cs =>
    if Token.isGap c then piecesFrom (start + c.utf8Size) cs
    else match longest c cs with
      | none => [.unmatched start]
      | some (l, more) =>
        let stop := start + String.utf8Len (c :: more)
        .lexeme l start stop :: piecesFrom stop (cs.drop more.length)
  termination_by cs => cs.length
  decreasing_by
    · simp
    · simp only [List.length_drop, List.length_cons]; omega

/-! ## Scanners -/

open Query

/-- A byte offset and the number of characters before it. -/
structure Cursor where
  byte : Nat
  chars : Nat

structure Scanner where
  ahead : List Piece
  cursor : Cursor
  finished : Bool
  /-- Where the query was cut: from one byte offset to another. The latest is first. -/
  cuts : List (Nat × Nat)
  /-- The byte offsets that were converted and what was answered. The latest is first. -/
  conversions : List Cursor

/-- What changes a scanner and ends with a result, an error in the query or a fault. -/
abbrev Step := ExceptT Error (StateT Scanner Option)

section

variable (source : List Char)

/-! ## Offsets -/

def cut (start stop : Nat) : Step (List Char) := do
  let text ← Text.slice start stop source
  modify fun s => { s with cuts := (start, stop) :: s.cuts }
  return text

/-- The query from a byte offset on. -/
def cutFrom (start : Nat) : Step (List Char) := cut source start (String.utf8Len source)

/-- How many characters there are before a byte offset. -/
def charOffset (byte : Nat) : Step Nat := do
  let cursor := (← get).cursor
  let known : Cursor := if cursor.byte ≤ byte then cursor else ⟨0, 0⟩
  let between ← cut source known.byte byte
  let found : Cursor := ⟨byte, known.chars + between.length⟩
  modify fun s => { s with cursor := found, conversions := found :: s.conversions }
  return found.chars

def fail {α : Type} (cause : Cause) (byte : Nat) : Step α := do
  throw ⟨cause, ← charOffset source byte⟩

def symbolAt (symbol : Symbol) (byte : Nat) : Step Token := do
  return ⟨symbol, ← charOffset source byte⟩

/-! ## Pieces -/

def skip : Step Unit := modify fun s => { s with ahead := s.ahead.tail }

/-- The first of the pieces and where it stops, if it is a lexeme that starts at the byte offset. -/
def adjacentTo (byte : Nat) : List Piece → Option (Lexeme × Nat)
  | .lexeme l start stop :: _ => if start = byte then some (l, stop) else none
  | _ => none

def adjacent (byte : Nat) : Step (Option (Lexeme × Nat)) := do
  return adjacentTo byte (← get).ahead

/-! ## Words -/

/-- Each character and the bytes before it. -/
def charIndices : List Char → List (Nat × Char)
  | [] => []
  | c :: cs => (0, c) :: (charIndices cs).map fun (b, d) => (b + c.utf8Size, d)

/-- The value between the quotes: a backslash takes the next character for itself. -/
def unescape : List Char → List Char
  | [] => []
  | ['\\'] => []
  | '\\' :: c :: cs => c :: unescape cs
  | c :: cs => c :: unescape cs

def expectSeparator (stop : Nat) : Step Unit := do
  match (← cutFrom source stop).head? with
  | none => return ()
  | some c => if c = ')' ∨ Text.isBlank c = true then return () else fail source (.badAfterWord c) stop

/-- A word without a value after it. -/
def bareWord (text : List Char) (start stop : Nat) : Step Token := do
  if text.head? = some '-' then fail source .hyphenWithoutKey start
  else match (charIndices text).find? fun (_, c) => !Token.isWordChar c with
    | some (offset, c) => fail source (.badInWord c) (start + offset)
    | none => do
      expectSeparator source stop
      symbolAt source (Token.keyword (String.ofList text)) start

/-- The value after a colon and where it stops. -/
def value (start : Nat) : Step (List Char × Nat) := do
  match ← adjacent start with
  | some (.text, stop) => do
    skip
    return (← cut source start stop, stop)
  | some (.quoted, stop) => do
    skip
    return (unescape (← cut source (start + 1) (stop - 1)), stop)
  | _ =>
    if (← cutFrom source start).head? = some '"' then fail source .unclosedQuote start
    else fail source .badAfterColon start

/-- A word whose first character is right: a key if a colon is next to it. -/
def keyOrWord (text : List Char) (start stop : Nat) : Step Token := do
  match ← adjacent stop with
  | some (.colon, colon) => do
    skip
    let (v, valueStop) ← value source colon
    expectSeparator source valueStop
    symbolAt source (.pair (String.ofList text) (String.ofList v)) start
  | _ => bareWord source text start stop

def word (start stop : Nat) : Step Token := do
  let text ← cut source start stop
  match text.head?.filter fun c => !Token.isWordChar c with
  | some c => fail source (.badStart c) start
  | none => keyOrWord source text start stop

/-! ## Tokens -/

def unexpected (start : Nat) : Step Token := do
  match (← cutFrom source start).head? with
  | some c =>
    if c = '&' ∨ c = '|' then fail source (.halfOperator c) (start + 1)
    else if c = '"' then fail source .unclosedQuote start
    else fail source (.unexpectedCharacter c) start
  | none => fail source .unexpectedEnd start

def token : Piece → Step Token
  | .lexeme .bracketLeft start _ => symbolAt source .bracketLeft start
  | .lexeme .bracketRight start _ => symbolAt source .bracketRight start
  | .lexeme .not start _ => symbolAt source .not start
  | .lexeme .and start _ => symbolAt source .and start
  | .lexeme .or start _ => symbolAt source .or start
  | .lexeme .text start stop => word source start stop
  | .lexeme .colon start _ => fail source .noKeyBeforeColon start
  | .lexeme .quoted start _ => fail source .noKeyBeforeQuoted start
  | .unmatched start => unexpected source start

end

/-! ## Calls -/

/-- What a call for the next token brings. After the end of the query, or an error, there is nothing. -/
inductive Answer where
  | token (t : Token)
  | stop (position : Nat)
  | error (e : Error)
  | nothing
  deriving DecidableEq

namespace Scanner

def start (source : List Char) : Scanner := ⟨piecesFrom 0 source, ⟨0, 0⟩, false, [], []⟩

/-- Answers a call; `none` is a fault. -/
def next (source : List Char) (s : Scanner) : Option (Answer × Scanner) :=
  if s.finished then some (.nothing, s)
  else match s.ahead with
    | [] => (charOffset source (String.utf8Len source) { s with finished := true }).map fun
      | (.ok position, t) => (.stop position, t)
      | (.error e, t) => (.error e, t)
    | piece :: ahead => (token source piece { s with ahead := ahead }).map fun
      | (.ok found, t) => (.token found, t)
      | (.error e, t) => (.error e, { t with finished := true })

/-- The answers of so many calls from the start on. -/
def calls (source : List Char) : Nat → Option (List Answer × Scanner)
  | 0 => some ([], start source)
  | n + 1 => do
    let (answers, s) ← calls source n
    let (answer, t) ← s.next source
    return (answers ++ [answer], t)

end Scanner

end Triage.Scan
