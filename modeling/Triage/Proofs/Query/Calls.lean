/-
  Triage.Proofs.Query.Calls — a parser that is called again and again stays within its tokens.

  Each call leaves a part of the tokens that is at the end of those before (`Parser.follows_call`). An expression that is asked
  for where tokens are left uses one of them at least, since the parser awaits an operand at first and halts before
  no token then (`Halts.uses_one`). After a call that has no error the next token closes a bracket, or there is none:
  that is how the parser halts with a formula. So there is no token that a whole query could be said not to expect
  (`parse_ne_unexpectedToken`).
-/

import Triage.Proofs.Query.Cause
import Triage.Proofs.Query.Derivation

namespace Triage.Query

variable {leaves : Leaves} {stop : Nat}

/-! ## One expression -/

theorem Halts.cause_ne_unexpectedToken {s : Reading} {ts : List Token} {o : Outcome} {e : Error}
    (h : Halts leaves stop s ts o) (ho : o.result = .error e) : e.cause ≠ .unexpectedToken := by
  cases h with
  | done => cases ho
  | unclosed | word =>
    cases ho
    simp
  | unknown hf =>
    cases ho
    exact ne_of_not_structural (leaf_not_structural hf) rfl
  | missing =>
    obtain ⟨e', he', hne, -⟩ := noOperand_result stop s.awaited ts
    rw [he'] at ho
    cases ho
    exact hne

/-- At the end there is no expression. -/
theorem expression_of_nil {p : Parser} (h : p.rest = []) : p.expression = (.error ⟨.emptyQuery, p.stop⟩, p) := by
  rw [Parser.expression, h]

theorem expression_of_cons {p : Parser} {t : Token} {ts : List Token} (h : p.rest = t :: ts) :
    p.expression.2.rest <:+ ts := by
  obtain ⟨leaves, _, stop⟩ := p
  subst h
  obtain ⟨used, rest, s, o, hts, hused, hhalts, he⟩ := expression_goes leaves stop t ts
  rw [he]
  cases hused with
  | refl =>
    obtain rfl : t :: ts = rest := hts
    exact hhalts.uses_one
  | @cons _ used' =>
    obtain ⟨-, rfl⟩ := List.cons.inj hts
    exact hhalts.rest_suffix.trans (List.suffix_append _ _)

theorem expression_next {ts : List Token} {f : Formula} {p : Parser}
    (h : (Parser.mk leaves ts stop).expression = (.ok f, p)) : ∀ t ∈ p.rest.head?, t.symbol = .bracketRight := by
  obtain ⟨-, -, -, -, -, hnext⟩ := goes_of_expression_ok h
  exact hnext

theorem expression_cause {ts : List Token} {e : Error} {p : Parser}
    (h : (Parser.mk leaves ts stop).expression = (.error e, p)) : e.cause ≠ .unexpectedToken := by
  rcases halts_of_expression_error h with ⟨-, rfl⟩ | ⟨_, _, _, _, -, -, hhalts, ho⟩
  · simp
  · exact hhalts.cause_ne_unexpectedToken ho

/-! ## Calls -/

namespace Parser

/-- What a parser can be asked: one more expression, or whether it is at the end. -/
inductive Call where
  | expression
  | finish

/-- The answer to a call, and the parser after it. -/
def call (p : Parser) : Call → Except Error (Option Formula) × Parser
  | .expression => (p.expression.1.map some, p.expression.2)
  | .finish => (p.finish.map fun _ => none, p)

/-- The parser after the calls, one after the other, whatever the answers are. -/
def calls (p : Parser) (cs : List Call) : Parser := cs.foldl (fun p c => (p.call c).2) p

/-- The parser reads the same tokens with the same leaves, and has come no less far. -/
structure Follows (p p' : Parser) : Prop where
  leaves_eq : p'.leaves = p.leaves
  stop_eq : p'.stop = p.stop
  rest_suffix : p'.rest <:+ p.rest

theorem Follows.refl (p : Parser) : p.Follows p := ⟨rfl, rfl, List.suffix_rfl⟩

theorem Follows.trans {p p' p'' : Parser} (h : p.Follows p') (h' : p'.Follows p'') : p.Follows p'' :=
  ⟨h'.leaves_eq.trans h.leaves_eq, h'.stop_eq.trans h.stop_eq, h'.rest_suffix.trans h.rest_suffix⟩

theorem follows_expression (p : Parser) : p.Follows p.expression.2 := by
  cases h : p.rest with
  | nil =>
    rw [expression_of_nil h]
    exact .refl p
  | cons t ts =>
    refine ⟨?_, ?_, h ▸ (expression_of_cons h).trans (List.suffix_cons t ts)⟩
    all_goals
      rw [Parser.expression, h]

theorem follows_call (p : Parser) (c : Call) : p.Follows (p.call c).2 := by
  cases c with
  | expression => exact p.follows_expression
  | finish => exact .refl p

theorem follows_calls (p : Parser) (cs : List Call) : p.Follows (p.calls cs) := by
  induction cs generalizing p with
  | nil => exact .refl p
  | cons c cs ih => exact (p.follows_call c).trans (ih (p.call c).2)

theorem call_next {p p' : Parser} {c : Call} {a : Option Formula} (h : p.call c = (.ok a, p')) :
    ∀ t ∈ p'.rest.head?, t.symbol = .bracketRight := by
  cases c with
  | expression =>
    cases he : p.expression with
    | mk result p'' =>
      rw [call, he] at h
      cases result with
      | error e => cases h
      | ok f =>
        cases h
        exact expression_next he
  | finish =>
    cases hend : p.finish with
    | error e =>
      rw [call, hend] at h
      cases h
    | ok _ =>
      rw [call, hend] at h
      cases h
      rw [rest_eq_nil_of_finish hend]
      rintro _ ⟨⟩

end Parser

/-! ## Whole queries -/

/-- What is left over after an expression is a closing bracket. -/
theorem finish_cause {ts : List Token} {f : Formula} {p : Parser} {e : Error}
    (h : (Parser.mk leaves ts stop).expression = (.ok f, p)) (hend : p.finish = .error e) :
    ∃ rest, p.rest = ⟨.bracketRight, e.position⟩ :: rest ∧ e.cause = .unmatchedBracket := by
  have hnext := expression_next h
  obtain ⟨leaves', rest, stop'⟩ := p
  cases rest with
  | nil => cases hend
  | cons t rest =>
    obtain ⟨symbol, q⟩ := t
    obtain rfl : symbol = .bracketRight := hnext _ rfl
    cases hend
    exact ⟨rest, rfl, rfl⟩

theorem parse_ne_unexpectedToken {query : String} {e : Error} (h : parse leaves query = .error e) :
    e.cause ≠ .unexpectedToken := by
  rcases parts_of_parse_error h with ht | ⟨ts, p, -, he | ⟨f, he, hend⟩⟩
  · exact ne_of_not_structural (tokenize_not_structural ht) rfl
  · exact expression_cause he
  · obtain ⟨rest, -, hcause⟩ := finish_cause he hend
    rw [hcause]
    simp

/-- Whatever a parser has been asked, it stands at a place of its tokens. Asked for the end it does not move, nor where
    it is asked for an expression at the end, which is an error; asked for one elsewhere it uses a token at least. After
    an answer that is no error a closing bracket is next, or the end; so no whole query has a token that is not
    expected. -/
theorem calls_keep_place (leaves : Leaves) (query : String) :
    (∀ p₀, Parser.start leaves query = .ok p₀ → tokenize query = .ok ⟨p₀.rest, p₀.stop⟩ ∧
      ∀ cs : List Parser.Call, let p := p₀.calls cs
        p₀.Follows p ∧ (p.call .finish).2 = p ∧
        (p.rest = [] → p.call .expression = (.error ⟨.emptyQuery, p₀.stop⟩, p)) ∧
        (∀ t ts, p.rest = t :: ts → (p.call .expression).2.rest <:+ ts) ∧
        ∀ c a p', p.call c = (.ok a, p') → ∀ t ∈ p'.rest.head?, t.symbol = .bracketRight) ∧
    ∀ e, parse leaves query = .error e → e.cause.message ≠ "Unexpected token" := by
  refine ⟨fun p₀ h => ⟨?_, fun cs => ?_⟩, fun e h hm => ?_⟩
  · cases ht : tokenize query with
    | error e =>
      rw [Parser.start, ht] at h
      cases h
    | ok ts =>
      rw [Parser.start, ht] at h
      cases h
      rfl
  · have hfollows := p₀.follows_calls cs
    refine ⟨hfollows, rfl, fun hend => ?_, fun t ts => expression_of_cons, fun c a p' => Parser.call_next⟩
    rw [Parser.call, expression_of_nil hend, hfollows.stop_eq]
    rfl
  · exact parse_ne_unexpectedToken h (eq_of_message_eq (.inl rfl) hm)

/-- An expression that a bracket ends, an error that uses the bracket, an error after an operator, and the end. -/
theorem calls_keep_place_resumed :
    ∃ p₀, Parser.start .empty "label:x) is:open OR" = .ok p₀ ∧
      (∀ t ∈ (p₀.calls [.expression]).rest.head?, t.symbol = .bracketRight) ∧
      (p₀.calls [.expression, .finish, .expression]).rest.map Token.symbol = [.pair "is" "open", .or] ∧
      (let p := p₀.calls [.expression, .finish, .expression, .expression]
       p₀.Follows p ∧ p.call .expression = (.error ⟨.emptyQuery, 19⟩, p)) ∧
      ∀ e, parse .empty "label:x) is:open OR" = .error e → e.cause.message ≠ "Unexpected token" := by
  have ht : tokenize "label:x) is:open OR" =
      .ok ⟨[⟨.pair "label" "x", 0⟩, ⟨.bracketRight, 7⟩, ⟨.pair "is" "open", 9⟩, ⟨.or, 17⟩], 19⟩ := by decide +kernel
  have hstart : Parser.start .empty "label:x) is:open OR" =
      .ok ⟨.empty, [⟨.pair "label" "x", 0⟩, ⟨.bracketRight, 7⟩, ⟨.pair "is" "open", 9⟩, ⟨.or, 17⟩], 19⟩ := by
    rw [Parser.start, ht]
    rfl
  obtain ⟨hparser, hparse⟩ := calls_keep_place .empty "label:x) is:open OR"
  obtain ⟨-, hcalls⟩ := hparser _ hstart
  obtain ⟨-, -, -, -, hnext⟩ := hcalls []
  obtain ⟨hfollows, -, hend, -⟩ := hcalls [.expression, .finish, .expression, .expression]
  exact ⟨_, hstart, hnext .expression (some (.leaf (.label "x"))) _ rfl, rfl, ⟨hfollows, hend rfl⟩, hparse⟩

end Triage.Query
