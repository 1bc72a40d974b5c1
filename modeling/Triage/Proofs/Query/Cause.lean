/-
  Triage.Proofs.Query.Cause — which errors come from the order of the tokens.

  An error says that the tokens do not stand where they could (`Cause.isStructural`), or something about one of them:
  how it is spelled or what it names. Tokenizing and looking up a leaf give only errors of the second kind
  (`tokenize_not_structural`, `leaf_not_structural`). The messages about brackets and left-over tokens are each that
  of one cause (`eq_of_message_eq`).
-/

import Triage.Proofs.Query.Spelling
import Triage.Query.Parser

namespace Triage.Query

/-- The tokens do not stand where they could, whatever they are spelled like or name. -/
def Cause.isStructural : Cause → Bool
  | .emptyQuery | .unexpectedEnd | .unexpectedToken | .unexpectedWord _ | .missingBefore _ | .missingAfter _
  | .emptyBrackets | .unclosedBracket | .unmatchedBracket => true
  | _ => false

theorem ne_of_not_structural {c d : Cause} (hc : c.isStructural = false) (hd : d.isStructural = true) : c ≠ d := by
  rintro rfl
  rw [hc] at hd
  cases hd

/-! ## Messages -/

theorem isPrefix_of_append {a b s : String} (h : (a ++ b).toList <+: s.toList) : a.toList <+: s.toList := by
  rw [String.toList_append] at h
  exact (List.prefix_append _ _).trans h

/-- No other message reads the same: those that tell what they are about start with other words. -/
theorem eq_of_message_eq {c d : Cause} (hd : d = .unexpectedToken ∨ d = .unclosedBracket ∨ d = .unmatchedBracket)
    (h : c.message = d.message) : c = d := by
  have hstart : c.message.toList <+: d.message.toList := h ▸ List.prefix_rfl
  cases c with
  | unexpectedCharacter | badStart | badInWord | badAfterWord | unexpectedWord | unknownKey =>
    have hwords := isPrefix_of_append (isPrefix_of_append hstart)
    rcases hd with rfl | rfl | rfl <;> exact absurd hwords (by decide)
  | missingBefore | missingAfter =>
    have hwords := isPrefix_of_append hstart
    rcases hd with rfl | rfl | rfl <;> exact absurd hwords (by decide)
  | unknownValue =>
    have hwords := isPrefix_of_append (isPrefix_of_append (isPrefix_of_append (isPrefix_of_append hstart)))
    rcases hd with rfl | rfl | rfl <;> exact absurd hwords (by decide)
  | halfOperator =>
    have hwords := isPrefix_of_append (isPrefix_of_append (isPrefix_of_append (isPrefix_of_append hstart)))
    rcases hd with rfl | rfl | rfl <;> exact absurd (isPrefix_of_append hwords) (by decide)
  | badAfterColon | noKeyBeforeColon | noKeyBeforeQuoted | unclosedQuote | hyphenWithoutKey | emptyQuery
  | unexpectedEnd | unexpectedToken | emptyBrackets | unclosedBracket | unmatchedBracket =>
    rcases hd with rfl | rfl | rfl <;> first | rfl | exact absurd h (by decide)

/-! ## Tokens -/

section Tokens

variable {α : Type} {total : Nat} {e : Error}

theorem fail_not_structural {cause : Cause} {rest : List Char} (hc : cause.isStructural = false)
    (h : (Token.fail total cause rest : Except Error α) = .error e) : e.cause.isStructural = false := by
  cases h
  exact hc

theorem separated_not_structural {s : Symbol} {cs : List Char} (h : Token.separated total s cs = .error e) :
    e.cause.isStructural = false := by
  unfold Token.separated at h
  split at h
  · cases h
  · split at h
    · cases h
    · exact fail_not_structural rfl h

theorem bareWord_not_structural {word rest : List Char} (h : Token.bareWord total word rest = .error e) :
    e.cause.isStructural = false := by
  unfold Token.bareWord at h
  split at h
  · exact fail_not_structural rfl h
  · split at h
    · exact separated_not_structural h
    · exact fail_not_structural rfl h

theorem keyed_not_structural {key cs : List Char} (h : Token.keyed total key cs = .error e) :
    e.cause.isStructural = false := by
  unfold Token.keyed at h
  split at h
  · exact fail_not_structural rfl h
  · split at h
    · split at h
      · exact separated_not_structural h
      · exact fail_not_structural rfl h
    · split at h
      · exact separated_not_structural h
      · exact fail_not_structural rfl h

theorem wordOrPair_not_structural {c : Char} {cs : List Char} (h : Token.wordOrPair total c cs = .error e) :
    e.cause.isStructural = false := by
  unfold Token.wordOrPair at h
  split at h
  · dsimp only at h
    split at h
    · exact keyed_not_structural h
    · exact bareWord_not_structural h
  · exact fail_not_structural rfl h

theorem doubled_not_structural {c : Char} {s : Symbol} {cs : List Char} (h : Token.doubled total c s cs = .error e) :
    e.cause.isStructural = false := by
  unfold Token.doubled at h
  split at h
  · exact fail_not_structural rfl h
  · split at h
    · cases h
    · exact fail_not_structural rfl h

theorem next_not_structural {c : Char} {cs : List Char} (h : Token.next total c cs = .error e) :
    e.cause.isStructural = false := by
  unfold Token.next at h
  repeat' split at h
  all_goals first
    | (cases h; done)
    | exact doubled_not_structural h
    | exact wordOrPair_not_structural h
    | exact fail_not_structural rfl h

theorem tokensFrom_not_structural {cs : List Char} (h : tokensFrom total cs = .error e) :
    e.cause.isStructural = false := by
  induction cs using tokensFrom.induct total with
  | case1 =>
    rw [tokensFrom] at h
    cases h
  | case2 c cs hc ih =>
    rw [tokensFrom, if_pos hc] at h
    exact ih h
  | case3 c cs hc e' he =>
    rw [tokensFrom_error hc he] at h
    cases h
    exact next_not_structural he
  | case4 c cs hc s rest hnext ih =>
    rw [tokensFrom_next hc hnext] at h
    cases hrest : tokensFrom total rest with
    | error e' =>
      rw [hrest] at h
      cases h
      exact ih hrest
    | ok ts =>
      rw [hrest] at h
      cases h

end Tokens

theorem tokenize_not_structural {query : String} {e : Error} (h : tokenize query = .error e) :
    e.cause.isStructural = false := by
  cases hts : tokensFrom query.toList.length query.toList with
  | error e' =>
    rw [tokenize, hts] at h
    cases h
    exact tokensFrom_not_structural hts
  | ok ts =>
    rw [tokenize, hts] at h
    cases h

/-! ## Leaves -/

section Leaf

variable {leaves : Leaves} {key value : String} {cause : Cause}

theorem ite_not_structural {c : Prop} [Decidable c] {x y : Except Cause Formula}
    (hx : x = .error cause → cause.isStructural = false) (hy : y = .error cause → cause.isStructural = false)
    (h : (if c then x else y) = .error cause) : cause.isStructural = false := by
  split at h
  · exact hx h
  · exact hy h

theorem leaf_not_structural (h : leaf leaves key value = .error cause) : cause.isStructural = false := by
  have hok : ∀ f : Formula, .ok f = Except.error cause → cause.isStructural = false := by
    rintro f ⟨⟩
  have hkey : (.error (.unknownKey key) : Except Cause Formula) = .error cause → cause.isStructural = false := by
    rintro ⟨⟩
    rfl
  have hvalue : ∀ k, (.error (.unknownValue k value) : Except Cause Formula) = .error cause →
      cause.isStructural = false := by
    rintro k ⟨⟩
    rfl
  rw [leaf] at h
  refine ite_not_structural (hok _) (ite_not_structural (hok _) (ite_not_structural (hok _) ?_)) h
  refine ite_not_structural (hok _) (ite_not_structural ?_ (ite_not_structural ?_ hkey))
  · exact ite_not_structural (hok _) (ite_not_structural (hok _) (hvalue "no"))
  · refine ite_not_structural (hok _) (ite_not_structural (hok _) (ite_not_structural (hok _) ?_))
    refine ite_not_structural (hok _) ?_
    cases leaves.find? value with
    | some f => exact hok f
    | none => exact hvalue "is"

end Leaf

end Triage.Query
