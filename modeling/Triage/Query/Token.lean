/-
  Triage.Query.Token — the tokens of a query, and what can be wrong with it.

  A position counts characters from the start of the query. `Cause.message` gives the wording of an error.

  The value of a key is bare, a run of `isBareChar`, or quoted, where a backslash takes the next character for itself.
  `Value.write` quotes what would not read back bare; `Value.quoted` reads a quoted value.

  A token is a bracket, an operator, a word or a key with its value, and the place where it starts. Key, colon and
  value stand together, and a word or a value is followed by a blank, a closing bracket or the end. A place is told
  by what is left of the query there: `total` characters less the length of the rest.
-/

import Triage.Text

namespace Triage.Query

/-! ## Errors -/

/-- The operators that stand between or before operands. -/
inductive Operator where
  | not
  | and
  | or
  deriving DecidableEq, Repr

def Operator.name : Operator → String
  | .not => "NOT"
  | .and => "AND"
  | .or => "OR"

inductive Cause where
  | unexpectedCharacter (c : Char)
  | badStart (c : Char)
  | badInWord (c : Char)
  | badAfterWord (c : Char)
  | badAfterColon
  | noKeyBeforeColon
  | noKeyBeforeQuoted
  | unclosedQuote
  | hyphenWithoutKey
  | halfOperator (c : Char)
  | emptyQuery
  | unexpectedEnd
  | unexpectedToken
  | unexpectedWord (word : String)
  | missingBefore (op : Operator)
  | missingAfter (op : Operator)
  | emptyBrackets
  | unclosedBracket
  | unmatchedBracket
  | unknownKey (key : String)
  | unknownValue (key value : String)
  deriving DecidableEq, Repr

def Cause.message : Cause → String
  | .unexpectedCharacter c => "Unexpected character '" ++ c.toString ++ "'"
  | .badStart c => "Invalid character '" ++ c.toString ++ "' at the start of a word"
  | .badInWord c => "Invalid character '" ++ c.toString ++ "' in word"
  | .badAfterWord c => "Invalid character '" ++ c.toString ++ "' after word"
  | .badAfterColon => "Invalid character after ':'"
  | .noKeyBeforeColon => "Missing key before ':'"
  | .noKeyBeforeQuoted => "Missing key before quoted value"
  | .unclosedQuote => "Missing matching '\"'"
  | .hyphenWithoutKey => "'-' is only allowed at the start of a key"
  | .halfOperator c => "Missing second '" ++ c.toString ++ "' of '" ++ c.toString ++ c.toString ++ "'"
  | .emptyQuery => "Empty query"
  | .unexpectedEnd => "Unexpected end of query"
  | .unexpectedToken => "Unexpected token"
  | .unexpectedWord word => "Unexpected word '" ++ word ++ "'"
  | .missingBefore op => "Missing expression before " ++ op.name
  | .missingAfter op => "Missing expression after " ++ op.name
  | .emptyBrackets => "Empty expression in brackets"
  | .unclosedBracket => "Missing matching bracket ')'"
  | .unmatchedBracket => "Unmatched ')'"
  | .unknownKey key => "Unknown key '" ++ key ++ "'"
  | .unknownValue key value => "Unknown value '" ++ value ++ "' for '" ++ key ++ "'"

structure Error where
  cause : Cause
  position : Nat
  deriving DecidableEq, Repr

def Error.message (e : Error) : String := e.cause.message ++ " at position " ++ toString e.position

/-! ## Values -/

namespace Value

def isBareChar (c : Char) : Bool := c.isAlphanum || c == '_' || c == '.' || c == '-' || c == '/'

def isBare (s : String) : Bool := !s.toList.isEmpty && s.toList.all isBareChar

def escape (cs : List Char) : List Char := cs.flatMap fun c => if c = '"' ∨ c = '\\' then ['\\', c] else [c]

def write (s : String) : String := if isBare s then s else String.ofList ('"' :: escape s.toList ++ ['"'])

/-- The value whose opening quote has been read, and what follows its closing quote. A line feed is not escaped. -/
def quoted : List Char → Option (List Char × List Char)
  | [] => none
  | '"' :: cs => some ([], cs)
  | '\\' :: c :: cs => if c = '\n' then none else (quoted cs).map fun (v, rest) => (c :: v, rest)
  | c :: cs => if c = '\\' then none else (quoted cs).map fun (v, rest) => (c :: v, rest)

theorem quoted_length {cs v rest : List Char} (h : quoted cs = some (v, rest)) : rest.length < cs.length := by
  induction cs using quoted.induct generalizing v rest with
  | case1 => cases h
  | case2 cs => simp only [quoted, Option.some.injEq, Prod.mk.injEq] at h; simp [h.2]
  | case3 cs => simp [quoted] at h
  | case4 c cs hc ih =>
    simp only [quoted, if_neg hc, Option.map_eq_some_iff, Prod.mk.injEq, Prod.exists] at h
    obtain ⟨_, _, hq, -, rfl⟩ := h
    have := ih hq
    simp only [List.length_cons]; omega
  | case5 cs h1 h2 => rw [quoted] at h <;> simp_all
  | case6 c cs h1 h2 hc ih =>
    rw [quoted] at h
    · simp only [if_neg hc, Option.map_eq_some_iff, Prod.mk.injEq, Prod.exists] at h
      obtain ⟨_, _, hq, -, rfl⟩ := h
      have := ih hq
      simp only [List.length_cons]; omega
    · exact h1
    · exact h2

end Value

/-! ## Tokens -/

inductive Symbol where
  | bracketLeft
  | bracketRight
  | not
  | and
  | or
  | word (text : String)
  | pair (key value : String)
  deriving DecidableEq, Repr

structure Token where
  symbol : Symbol
  position : Nat
  deriving DecidableEq, Repr

/-- The tokens of a whole query, and the place of its end. -/
structure Tokens where
  items : List Token
  stop : Nat
  deriving DecidableEq, Repr

namespace Token

/-- The blanks between tokens. -/
def isGap (c : Char) : Bool := c == ' ' || c == '\t' || c == '\r' || c == '\n' || c == '\x0c'

def isWordChar (c : Char) : Bool := c.isAlpha || c == '_' || c == '.' || c == '-'

def fail {α : Type} (total : Nat) (cause : Cause) (rest : List Char) : Except Error α :=
  .error ⟨cause, total - rest.length⟩

/-- A symbol that ends where `rest` starts. -/
def separated (total : Nat) (symbol : Symbol) : List Char → Except Error (Symbol × List Char)
  | [] => .ok (symbol, [])
  | c :: rest =>
    if c = ')' ∨ Text.isBlank c = true then .ok (symbol, c :: rest) else fail total (.badAfterWord c) (c :: rest)

def keyword (word : String) : Symbol :=
  if Text.sameName word "and" then .and
  else if Text.sameName word "or" then .or
  else if Text.sameName word "not" then .not
  else .word word

/-- A word without a value after it. -/
def bareWord (total : Nat) (word rest : List Char) : Except Error (Symbol × List Char) :=
  if word.head? = some '-' then fail total .hyphenWithoutKey (word ++ rest)
  else match word.dropWhile isWordChar with
    | [] => separated total (keyword (String.ofList word)) rest
    | c :: more => fail total (.badInWord c) (c :: more ++ rest)

/-- The value of a key whose colon has been read. -/
def keyed (total : Nat) (key : List Char) : List Char → Except Error (Symbol × List Char)
  | [] => fail total .badAfterColon []
  | c :: cs =>
    if c = '"' then
      match Value.quoted cs with
      | some (v, rest) => separated total (.pair (String.ofList key) (String.ofList v)) rest
      | none => fail total .unclosedQuote (c :: cs)
    else if Value.isBareChar c then
      separated total (.pair (String.ofList key) (String.ofList ((c :: cs).takeWhile Value.isBareChar)))
        ((c :: cs).dropWhile Value.isBareChar)
    else fail total .badAfterColon (c :: cs)

/-- What starts with the bare character `c`. -/
def wordOrPair (total : Nat) (c : Char) (cs : List Char) : Except Error (Symbol × List Char) :=
  if isWordChar c then
    let word := (c :: cs).takeWhile Value.isBareChar
    match (c :: cs).dropWhile Value.isBareChar with
    | ':' :: rest => keyed total word rest
    | rest => bareWord total word rest
  else fail total (.badStart c) (c :: cs)

/-- An operator that is written as one character twice. -/
def doubled (total : Nat) (c : Char) (symbol : Symbol) (cs : List Char) : Except Error (Symbol × List Char) :=
  match cs with
  | [] => fail total (.halfOperator c) cs
  | d :: rest => if d = c then .ok (symbol, rest) else fail total (.halfOperator c) cs

/-- The symbol that starts with `c`, which is no gap, and what follows it. -/
def next (total : Nat) (c : Char) (cs : List Char) : Except Error (Symbol × List Char) :=
  if c = '(' then .ok (.bracketLeft, cs)
  else if c = ')' then .ok (.bracketRight, cs)
  else if c = '!' then .ok (.not, cs)
  else if c = '&' then doubled total c .and cs
  else if c = '|' then doubled total c .or cs
  else if c = ':' then fail total .noKeyBeforeColon (c :: cs)
  else if c = '"' then
    fail total (if (Value.quoted cs).isSome then .noKeyBeforeQuoted else .unclosedQuote) (c :: cs)
  else if Value.isBareChar c then wordOrPair total c cs
  else fail total (.unexpectedCharacter c) (c :: cs)

/-! ## Progress -/

theorem dropWhile_length_le (p : Char → Bool) (cs : List Char) : (cs.dropWhile p).length ≤ cs.length := by
  induction cs with
  | nil => exact Nat.le_refl _
  | cons c cs ih =>
    rw [List.dropWhile_cons]
    split
    · simp only [List.length_cons]; omega
    · exact Nat.le_refl _

theorem separated_rest {total : Nat} {symbol s : Symbol} {cs rest : List Char}
    (h : separated total symbol cs = .ok (s, rest)) : rest = cs := by
  unfold separated at h
  split at h
  · cases h; rfl
  · split at h
    · cases h; rfl
    · cases h

theorem bareWord_rest {total : Nat} {word cs rest : List Char} {s : Symbol}
    (h : bareWord total word cs = .ok (s, rest)) : rest = cs := by
  unfold bareWord at h
  split at h
  · cases h
  · split at h
    · exact separated_rest h
    · cases h

theorem keyed_length {total : Nat} {key cs rest : List Char} {s : Symbol} (h : keyed total key cs = .ok (s, rest)) :
    rest.length ≤ cs.length := by
  unfold keyed at h
  split at h
  · cases h
  · split at h
    · split at h
      · rename_i hq
        rw [separated_rest h]
        have := Value.quoted_length hq
        simp only [List.length_cons]; omega
      · cases h
    · split at h
      · rw [separated_rest h]; exact dropWhile_length_le _ _
      · cases h

theorem wordOrPair_length {total : Nat} {c : Char} {cs rest : List Char} {s : Symbol}
    (hc : Value.isBareChar c = true) (h : wordOrPair total c cs = .ok (s, rest)) : rest.length ≤ cs.length := by
  have hd : (c :: cs).dropWhile Value.isBareChar = cs.dropWhile Value.isBareChar := by rw [List.dropWhile_cons, if_pos hc]
  have hle := dropWhile_length_le Value.isBareChar cs
  unfold wordOrPair at h
  rw [hd] at h
  split at h
  · dsimp only at h
    split at h
    · rename_i hv
      rw [hv] at hle
      have := keyed_length h
      simp only [List.length_cons] at hle; omega
    · rw [bareWord_rest h]; exact hle
  · cases h

theorem doubled_length {total : Nat} {c : Char} {symbol s : Symbol} {cs rest : List Char}
    (h : doubled total c symbol cs = .ok (s, rest)) : rest.length ≤ cs.length := by
  unfold doubled at h
  split at h
  · cases h
  · split at h
    · cases h; exact Nat.le_succ _
    · cases h

theorem next_length {total : Nat} {c : Char} {cs rest : List Char} {s : Symbol} (h : next total c cs = .ok (s, rest)) :
    rest.length ≤ cs.length := by
  unfold next at h
  iterate 3
    split at h
    · cases h; exact Nat.le_refl _
  iterate 2
    split at h
    · exact doubled_length h
  iterate 2
    split at h
    · cases h
  split at h
  · rename_i hc
    exact wordOrPair_length hc h
  · cases h

end Token

/-- The tokens of what is left of a query of `total` characters. -/
def tokensFrom (total : Nat) : List Char → Except Error (List Token)
  | [] => .ok []
  | c :: cs =>
    if Token.isGap c then tokensFrom total cs
    else match _h : Token.next total c cs with
      | .error e => .error e
      | .ok (symbol, rest) => (tokensFrom total rest).map (⟨symbol, total - (c :: cs).length⟩ :: ·)
  termination_by cs => cs.length
  decreasing_by
    · simp
    · have := Token.next_length _h; simp only [List.length_cons]; omega

def tokenize (query : String) : Except Error Tokens :=
  let total := query.toList.length
  (tokensFrom total query.toList).map (⟨·, total⟩)

end Triage.Query
