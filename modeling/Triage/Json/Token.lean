/-
  Triage.Json.Token — the tokens of a JSON text.

  `tokenize` splits a text into punctuation and atoms, between which only the four JSON blanks may stand. It is
  strict on the form of numbers, escapes and words; a number's size and a half surrogate are left to whoever takes
  the value.
-/

import Triage.Json.Quoted
import Triage.Json.Value

namespace Triage.Json

inductive Token where
  | atom (v : Value)
  | openArray
  | closeArray
  | openObject
  | closeObject
  | comma
  | colon

namespace Token

def isBlank (c : Char) : Bool := c == ' ' || c == '\n' || c == '\t' || c == '\r'

/-! ## Numbers -/

def digits (cs : List Char) : List Char × List Char := (cs.takeWhile Char.isDigit, cs.dropWhile Char.isDigit)

/-- Digits of which there has to be one. -/
def digits1 (cs : List Char) : Option (List Char × List Char) :=
  match digits cs with
  | ([], _) => none
  | r => some r

/-- A whole part has no leading zero. -/
def whole (cs : List Char) : Option (List Char × List Char) :=
  match digits1 cs with
  | some ('0' :: _ :: _, _) => none
  | r => r

def fraction : List Char → Option (List Char × List Char)
  | '.' :: cs => (digits1 cs).map fun (ds, rest) => ('.' :: ds, rest)
  | cs => some ([], cs)

def exponent : List Char → Option (List Char × List Char)
  | e :: cs =>
    if e = 'e' ∨ e = 'E' then
      match cs with
      | s :: cs' =>
        if s = '+' ∨ s = '-' then (digits1 cs').map fun (ds, rest) => (e :: s :: ds, rest)
        else (digits1 cs).map fun (ds, rest) => (e :: ds, rest)
      | [] => none
    else some ([], e :: cs)
  | [] => some ([], [])

def unsigned (cs : List Char) : Option (List Char × List Char) := do
  let (w, cs) ← whole cs
  let (f, cs) ← fraction cs
  let (e, cs) ← exponent cs
  return (w ++ f ++ e, cs)

/-! ## Tokens -/

/-- What follows `word`, if the text starts with it. -/
def after? (word cs : List Char) : Option (List Char) :=
  if word.isPrefixOf cs then some (cs.drop word.length) else none

/-- The token that starts with `c`, and what follows it. -/
def next (c : Char) (cs : List Char) : Option (Token × List Char) :=
  match c with
  | '[' => some (.openArray, cs)
  | ']' => some (.closeArray, cs)
  | '{' => some (.openObject, cs)
  | '}' => some (.closeObject, cs)
  | ',' => some (.comma, cs)
  | ':' => some (.colon, cs)
  | '"' => (Quoted.scan cs).map fun (ps, rest) => (.atom (.string ((Quoted.join ps).map String.ofList)), rest)
  | 't' => (after? ['r', 'u', 'e'] cs).map ((.atom (.bool true), ·))
  | 'f' => (after? ['a', 'l', 's', 'e'] cs).map ((.atom (.bool false), ·))
  | 'n' => (after? ['u', 'l', 'l'] cs).map ((.atom .null, ·))
  | '-' => (unsigned cs).map fun (n, rest) => (.atom (.number (String.ofList ('-' :: n))), rest)
  | c => (unsigned (c :: cs)).map fun (n, rest) => (.atom (.number (String.ofList n)), rest)

theorem digits1_length {cs ds rest : List Char} (h : digits1 cs = some (ds, rest)) : rest.length < cs.length := by
  have hlen : cs.length = (cs.takeWhile Char.isDigit).length + (cs.dropWhile Char.isDigit).length := by
    rw [← List.length_append, List.takeWhile_append_dropWhile]
  unfold digits1 digits at h
  split at h
  · cases h
  · rename_i hne
    simp only [Option.some.injEq, Prod.mk.injEq] at h
    obtain ⟨rfl, rfl⟩ := h
    cases htake : cs.takeWhile Char.isDigit with
    | nil => exact absurd (by rw [htake]) (hne (cs.dropWhile Char.isDigit))
    | cons d ds => rw [htake] at hlen; simp only [List.length_cons] at hlen; omega

/-- Digits after a mark are followed by less. -/
theorem length_of_map_digits1 {cs t rest : List Char} {f : List Char → List Char}
    (h : (digits1 cs).map (fun p => (f p.1, p.2)) = some (t, rest)) : rest.length < cs.length := by
  obtain ⟨⟨ds, r⟩, hd, heq⟩ := Option.map_eq_some_iff.mp h
  cases heq
  exact digits1_length hd

theorem whole_length {cs ds rest : List Char} (h : whole cs = some (ds, rest)) : rest.length < cs.length := by
  unfold whole at h
  split at h
  · cases h
  · exact digits1_length h

theorem fraction_length {cs ds rest : List Char} (h : fraction cs = some (ds, rest)) : rest.length ≤ cs.length := by
  unfold fraction at h
  split at h
  · exact Nat.le_of_lt (Nat.lt_succ_of_lt (length_of_map_digits1 h))
  · cases h; exact Nat.le_refl _

theorem exponent_length {cs ds rest : List Char} (h : exponent cs = some (ds, rest)) : rest.length ≤ cs.length := by
  unfold exponent at h
  split at h
  · split at h
    · split at h
      · split at h
        · exact Nat.le_of_lt (Nat.lt_succ_of_lt (Nat.lt_succ_of_lt (length_of_map_digits1 (f := (_ :: _ :: ·)) h)))
        · exact Nat.le_of_lt (Nat.lt_succ_of_lt (length_of_map_digits1 h))
      · cases h
    · cases h; exact Nat.le_refl _
  · cases h; exact Nat.le_refl _

theorem unsigned_length {cs n rest : List Char} (h : unsigned cs = some (n, rest)) : rest.length < cs.length := by
  simp only [unsigned, Option.bind_eq_bind, Option.bind_eq_some_iff, Option.pure_def, Option.some.injEq,
    Prod.mk.injEq, Prod.exists] at h
  obtain ⟨w, c1, hw, f, c2, hf, e, c3, he, -, rfl⟩ := h
  exact Nat.lt_of_le_of_lt (exponent_length he) (Nat.lt_of_le_of_lt (fraction_length hf) (whole_length hw))

theorem after?_length {word cs rest : List Char} (h : after? word cs = some rest) : rest.length ≤ cs.length := by
  unfold after? at h
  split at h
  · cases h; simp
  · cases h

theorem next_length {c : Char} {cs rest : List Char} {t : Token} (h : next c cs = some (t, rest)) :
    rest.length ≤ cs.length := by
  unfold next at h
  split at h
  iterate 6 (cases h; exact Nat.le_refl _)
  · obtain ⟨⟨ps, r⟩, hs, heq⟩ := Option.map_eq_some_iff.mp h
    cases heq; exact Nat.le_of_lt (Quoted.scan_length hs)
  iterate 3
    obtain ⟨r, hs, heq⟩ := Option.map_eq_some_iff.mp h
    cases heq; exact after?_length hs
  · obtain ⟨⟨n, r⟩, hs, heq⟩ := Option.map_eq_some_iff.mp h
    cases heq; exact Nat.le_of_lt (unsigned_length hs)
  · obtain ⟨⟨n, r⟩, hs, heq⟩ := Option.map_eq_some_iff.mp h
    cases heq; exact Nat.le_of_lt_succ (unsigned_length hs)

end Token

/-- The tokens of a text, or `none` where no token can be read. -/
def tokenize : List Char → Option (List Token)
  | [] => some []
  | c :: cs =>
    if Token.isBlank c then tokenize cs
    else match _h : Token.next c cs with
      | none => none
      | some (t, rest) => (tokenize rest).map (t :: ·)
  termination_by cs => cs.length
  decreasing_by
    · simp
    · have := Token.next_length _h; simp only [List.length_cons]; omega

end Triage.Json
