/-
  Triage.Proofs.Query.Moves — the parser goes through the tokens one by one, until it halts.

  `Reading` is all that the parser holds between two tokens. It uses the next token and holds something else (`Moves`),
  or it halts with a formula or an error (`Halts`); there is nothing else that it can do (`run_goes`). So what holds
  of the start and is kept by each move holds where the parser halts (`Goes.keeps`), and how it halts says the rest:
  what is to be shown of an expression is shown of the moves.
-/

import Triage.Query.Parser

namespace Triage.Query

/-- What the parser holds between two tokens. -/
structure Reading where
  awaited : Awaited
  group : Group
  /-- The brackets that are open, innermost first. -/
  outer : List (Nat × Group)

namespace Reading

/-- Nothing has been read. -/
def start : Reading := ⟨.first, .empty, []⟩

def run (leaves : Leaves) (stop : Nat) (s : Reading) (ts : List Token) : Outcome :=
  Query.run leaves stop s.awaited s.group s.outer ts

end Reading

/-- The token is used, and the parser goes on. -/
inductive Moves (leaves : Leaves) : Token → Reading → Reading → Prop
  | not {p : Nat} {awaited : Awaited} {g : Group} {outer : List (Nat × Group)} :
      Moves leaves ⟨.not, p⟩ ⟨awaited, g, outer⟩ ⟨.afterOperator .not p, { g with nots := g.nots + 1 }, outer⟩
  | bracketLeft {p : Nat} {awaited : Awaited} {g : Group} {outer : List (Nat × Group)} :
      Moves leaves ⟨.bracketLeft, p⟩ ⟨awaited, g, outer⟩ ⟨.afterBracket p, .empty, (p, g) :: outer⟩
  | pair {key value : String} {p : Nat} {f : Formula} {awaited : Awaited} {g : Group} {outer : List (Nat × Group)} :
      leaf leaves key value = .ok f →
      Moves leaves ⟨.pair key value, p⟩ ⟨awaited, g, outer⟩ ⟨.operator, g.push f, outer⟩
  | and {p : Nat} {g : Group} {outer : List (Nat × Group)} :
      Moves leaves ⟨.and, p⟩ ⟨.operator, g, outer⟩ ⟨.afterOperator .and p, g, outer⟩
  | or {p : Nat} {g : Group} {outer : List (Nat × Group)} :
      Moves leaves ⟨.or, p⟩ ⟨.operator, g, outer⟩ ⟨.afterOperator .or p, g.nextAlternative, outer⟩
  | bracketRight {p q : Nat} {g g' : Group} {outer : List (Nat × Group)} :
      Moves leaves ⟨.bracketRight, p⟩ ⟨.operator, g, (q, g') :: outer⟩ ⟨.operator, g'.push g.close, outer⟩

/-- No operand starts with the first of the tokens. -/
def NoOperand (ts : List Token) : Prop := ∀ t ∈ ts.head?, t.symbol ∈ [Symbol.and, .or, .bracketRight]

/-- The parser ends with what is left of the tokens. -/
inductive Halts (leaves : Leaves) (stop : Nat) : Reading → List Token → Outcome → Prop
  | done {g : Group} {ts : List Token} : (∀ t ∈ ts.head?, t.symbol = .bracketRight) →
      Halts leaves stop ⟨.operator, g, []⟩ ts ⟨.ok g.close, ts⟩
  | unclosed {p : Nat} {g g' : Group} {outer : List (Nat × Group)} :
      Halts leaves stop ⟨.operator, g, (p, g') :: outer⟩ [] (.failed .unclosedBracket p [])
  | unknown {s : Reading} {key value : String} {p : Nat} {cause : Cause} {ts : List Token} :
      leaf leaves key value = .error cause →
      Halts leaves stop s (⟨.pair key value, p⟩ :: ts) (.failed cause p ts)
  | word {s : Reading} {text : String} {p : Nat} {ts : List Token} :
      Halts leaves stop s (⟨.word text, p⟩ :: ts) (.failed (.unexpectedWord text) p ts)
  | missing {s : Reading} {ts : List Token} : s.awaited ≠ .operator → NoOperand ts →
      Halts leaves stop s ts (noOperand stop s.awaited ts)

/-- The tokens are used one after the other. -/
inductive Goes (leaves : Leaves) : List Token → Reading → Reading → Prop
  | refl (s : Reading) : Goes leaves [] s s
  | cons {t : Token} {ts : List Token} {s s' s'' : Reading} : Moves leaves t s s' → Goes leaves ts s' s'' →
      Goes leaves (t :: ts) s s''

variable {leaves : Leaves} {stop : Nat}

/-- What each move keeps holds wherever the parser has come, of the tokens that it has read. -/
theorem Goes.keeps {inv : List Token → Reading → Prop}
    (hmove : ∀ read t s s', inv read s → Moves leaves t s s' → inv (read ++ [t]) s') {read used : List Token}
    {s s' : Reading} (h : Goes leaves used s s') (hs : inv read s) : inv (read ++ used) s' := by
  induction h generalizing read with
  | refl s => rwa [List.append_nil]
  | cons ht _ ih =>
    rw [List.append_cons]
    exact ih (hmove _ _ _ _ hs ht)

theorem halts_nil (s : Reading) : Halts leaves stop s [] (s.run leaves stop []) := by
  obtain ⟨awaited, g, outer⟩ := s
  by_cases ha : awaited = .operator
  · subst ha
    cases outer with
    | nil => exact .done (by rintro _ ⟨⟩)
    | cons q outer => exact .unclosed
  · have hrun : Query.run leaves stop awaited g outer [] = noOperand stop awaited [] := by
      cases outer <;> rw [Query.run, if_neg ha]
    rw [Reading.run, hrun]
    exact .missing ha (by rintro _ ⟨⟩)

variable (leaves stop) in
/-- With a token the parser moves or halts. -/
theorem moves_or_halts (s : Reading) (t : Token) (ts : List Token) :
    (∃ s', Moves leaves t s s' ∧ s.run leaves stop (t :: ts) = s'.run leaves stop ts) ∨
      Halts leaves stop s (t :: ts) (s.run leaves stop (t :: ts)) := by
  obtain ⟨awaited, g, outer⟩ := s
  obtain ⟨symbol, p⟩ := t
  have hmissing : awaited ≠ .operator → symbol ∈ [Symbol.and, .or, .bracketRight] →
      Query.run leaves stop awaited g outer (⟨symbol, p⟩ :: ts) = noOperand stop awaited (⟨symbol, p⟩ :: ts) →
      Halts leaves stop ⟨awaited, g, outer⟩ (⟨symbol, p⟩ :: ts)
        (Query.run leaves stop awaited g outer (⟨symbol, p⟩ :: ts)) := by
    intro ha hs hrun
    rw [hrun]
    refine .missing ha ?_
    rintro _ ⟨⟩
    exact hs
  unfold Reading.run
  cases symbol with
  | not => exact .inl ⟨_, .not, rfl⟩
  | bracketLeft => exact .inl ⟨_, .bracketLeft, rfl⟩
  | word text => exact .inr .word
  | pair key value =>
    cases hf : leaf leaves key value with
    | ok f => exact .inl ⟨_, .pair hf, by simp only [Query.run, hf]⟩
    | error cause =>
      have hrun : Query.run leaves stop awaited g outer (⟨.pair key value, p⟩ :: ts) = .failed cause p ts := by
        simp only [Query.run, hf]
      rw [hrun]
      exact .inr (.unknown hf)
  | and =>
    by_cases ha : awaited = .operator
    · subst ha
      exact .inl ⟨_, .and, rfl⟩
    · exact .inr (hmissing ha (by simp) (by rw [Query.run, if_neg ha]))
  | or =>
    by_cases ha : awaited = .operator
    · subst ha
      exact .inl ⟨_, .or, rfl⟩
    · exact .inr (hmissing ha (by simp) (by rw [Query.run, if_neg ha]))
  | bracketRight =>
    by_cases ha : awaited = .operator
    · subst ha
      cases outer with
      | nil => exact .inr (.done (by rintro _ ⟨⟩; rfl))
      | cons q outer => exact .inl ⟨_, .bracketRight, rfl⟩
    · exact .inr (hmissing ha (by simp) (by cases outer <;> rw [Query.run, if_neg ha]))

variable (leaves stop) in
/-- Whatever the tokens, the parser uses some of them and halts before the others. -/
theorem run_goes (s : Reading) (ts : List Token) : ∃ used rest s', ts = used ++ rest ∧ Goes leaves used s s' ∧
    Halts leaves stop s' rest (s.run leaves stop ts) := by
  induction ts generalizing s with
  | nil => exact ⟨[], [], s, rfl, .refl s, halts_nil s⟩
  | cons t ts ih =>
    rcases moves_or_halts leaves stop s t ts with ⟨s', ht, hrun⟩ | h
    · obtain ⟨used, rest, s'', rfl, hused, hhalts⟩ := ih s'
      rw [hrun]
      exact ⟨t :: used, rest, s'', rfl, .cons ht hused, hhalts⟩
    · exact ⟨[], t :: ts, s, rfl, .refl s, h⟩

/-! ## Halting -/

theorem noOperand_rest (stop : Nat) (awaited : Awaited) (ts : List Token) :
    (noOperand stop awaited ts).rest <:+ ts := by
  unfold noOperand
  split <;> first | exact List.suffix_rfl | exact List.suffix_cons _ _

theorem noOperand_result (stop : Nat) (awaited : Awaited) (ts : List Token) :
    ∃ e, (noOperand stop awaited ts).result = .error e ∧ e.cause ≠ .unexpectedToken ∧ e.cause ≠ .unclosedBracket := by
  unfold noOperand
  split <;> exact ⟨_, rfl, by simp, by simp⟩

namespace Halts

variable {s : Reading} {ts : List Token} {o : Outcome}

theorem rest_suffix (h : Halts leaves stop s ts o) : o.rest <:+ ts := by
  cases h with
  | done | unclosed => exact List.suffix_rfl
  | unknown | word => exact List.suffix_cons _ _
  | missing => exact noOperand_rest _ _ _

/-- At first the parser uses a token, or finds that it is no operand, which uses it too. -/
theorem uses_one {t : Token} (h : Halts leaves stop .start (t :: ts) o) : o.rest <:+ ts := by
  cases h with
  | unknown | word => exact List.suffix_rfl
  | missing _ ht =>
    obtain ⟨symbol, p⟩ := t
    have hs := ht _ rfl
    simp only [List.mem_cons, List.not_mem_nil, or_false] at hs
    rcases hs with rfl | rfl | rfl <;> exact List.suffix_rfl

/-- With a formula the parser halts outside all brackets, at the end or at a closing bracket. -/
theorem done_of_ok {f : Formula} (h : Halts leaves stop s ts o) (ho : o.result = .ok f) :
    ∃ g, s = ⟨.operator, g, []⟩ ∧ f = g.close ∧ o.rest = ts ∧ ∀ t ∈ ts.head?, t.symbol = .bracketRight := by
  cases h with
  | done hnext =>
    cases ho
    exact ⟨_, rfl, rfl, rfl, hnext⟩
  | unclosed | unknown | word => cases ho
  | missing =>
    obtain ⟨e, he, -⟩ := noOperand_result stop s.awaited ts
    rw [he] at ho
    cases ho

end Halts

/-! ## Expressions -/

section Expression

variable {ts : List Token} {p : Parser}

/-- Where tokens are left, the parser goes through some of them and halts. -/
theorem expression_goes (leaves : Leaves) (stop : Nat) (t : Token) (ts : List Token) :
    ∃ used rest s o, t :: ts = used ++ rest ∧ Goes leaves used .start s ∧ Halts leaves stop s rest o ∧
      (Parser.mk leaves (t :: ts) stop).expression = (o.result, ⟨leaves, o.rest, stop⟩) := by
  obtain ⟨used, rest, s, hts, hused, hhalts⟩ := run_goes leaves stop .start (t :: ts)
  exact ⟨used, rest, s, _, hts, hused, hhalts, rfl⟩

theorem goes_of_expression_ok {f : Formula} (h : (Parser.mk leaves ts stop).expression = (.ok f, p)) :
    ∃ used g, ts = used ++ p.rest ∧ Goes leaves used .start ⟨.operator, g, []⟩ ∧ f = g.close ∧
      ∀ t ∈ p.rest.head?, t.symbol = .bracketRight := by
  cases ts with
  | nil => cases h
  | cons t ts =>
    obtain ⟨used, rest, s, o, hts, hused, hhalts, he⟩ := expression_goes leaves stop t ts
    obtain ⟨ho, rfl⟩ := Prod.mk.inj (he.symm.trans h)
    obtain ⟨g, rfl, hf, rfl, hnext⟩ := hhalts.done_of_ok ho
    exact ⟨used, g, hts, hused, hf, hnext⟩

theorem halts_of_expression_error {e : Error} (h : (Parser.mk leaves ts stop).expression = (.error e, p)) :
    (ts = [] ∧ e = ⟨.emptyQuery, stop⟩) ∨
      ∃ used rest s o, ts = used ++ rest ∧ Goes leaves used .start s ∧ Halts leaves stop s rest o ∧
        o.result = .error e := by
  cases ts with
  | nil =>
    cases h
    exact .inl ⟨rfl, rfl⟩
  | cons t ts =>
    obtain ⟨used, rest, s, o, hts, hused, hhalts, he⟩ := expression_goes leaves stop t ts
    obtain ⟨ho, -⟩ := Prod.mk.inj (he.symm.trans h)
    exact .inr ⟨used, rest, s, o, hts, hused, hhalts, ho⟩

end Expression

end Triage.Query
