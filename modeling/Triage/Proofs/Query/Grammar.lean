/-
  Triage.Proofs.Query.Grammar — the grammar of queries, and that the parser reads what it derives.

  A query is one or more alternatives with OR between them, an alternative one or more operands with or without AND
  between them, an operand a pair, an operand after NOT or a query in brackets. `run` goes through the tokens of an
  operand, of the operands of AND or of alternatives and leaves them in the group around the place
  (`run_single`, `run_operands`, `run_alternatives`), whatever comes after.
-/

import Triage.Query.Parser

namespace Triage.Query

mutual

/-- The symbols are one operand, which stands for the formula. -/
inductive Single (leaves : Leaves) : List Symbol → Formula → Prop
  | not {w : List Symbol} {f : Formula} : Single leaves w f → Single leaves (.not :: w) (.not f)
  | bracket {w : List Symbol} {fs : List Formula} : Alternatives leaves w fs →
      Single leaves (.bracketLeft :: (w ++ [.bracketRight])) (joined .or fs)
  | pair {key value : String} {f : Formula} : leaf leaves key value = .ok f → Single leaves [.pair key value] f

/-- The symbols are operands of AND, which may be left out. -/
inductive Operands (leaves : Leaves) : List Symbol → List Formula → Prop
  | one {w : List Symbol} {f : Formula} : Single leaves w f → Operands leaves w [f]
  | and {w w' : List Symbol} {f : Formula} {fs : List Formula} : Single leaves w f → Operands leaves w' fs →
      Operands leaves (w ++ .and :: w') (f :: fs)
  | beside {w w' : List Symbol} {f : Formula} {fs : List Formula} : Single leaves w f → Operands leaves w' fs →
      Operands leaves (w ++ w') (f :: fs)

/-- The symbols are alternatives with OR between them. -/
inductive Alternatives (leaves : Leaves) : List Symbol → List Formula → Prop
  | one {w : List Symbol} {fs : List Formula} : Operands leaves w fs → Alternatives leaves w [joined .and fs]
  | or {w w' : List Symbol} {fs gs : List Formula} : Operands leaves w fs → Alternatives leaves w' gs →
      Alternatives leaves (w ++ .or :: w') (joined .and fs :: gs)

end

/-! ## Groups -/

namespace Group

theorem negated_not (f : Formula) (n : Nat) : negated (.not f) n = .not (negated f n) := by
  induction n with
  | zero => rfl
  | succ n ih => rw [negated, ih]; rfl

theorem push_nots_succ (g : Group) (f : Formula) :
    ({ g with nots := g.nots + 1 } : Group).push f = g.push (.not f) := by
  rw [push, push, negated_not]
  rfl

theorem alternative_reverse (ors fs : List Formula) : (⟨ors, fs.reverse, 0⟩ : Group).alternative = joined .and fs := by
  rw [alternative, List.reverse_reverse]

end Group

/-! ## What the parser does with what is derived -/

section Run

variable {leaves : Leaves}

/-- Wherever an operand is awaited, tokens of these symbols are read as one and leave its formula in the group. -/
def ReadsOperand (leaves : Leaves) (w : List Symbol) (f : Formula) : Prop :=
  ∀ ts : List Token, ts.map Token.symbol = w → ∀ stop awaited g outer more,
    run leaves stop awaited g outer (ts ++ more) = run leaves stop .operator (g.push f) outer more

/-- The same of several operands, with no NOT before the first. -/
def ReadsOperands (leaves : Leaves) (w : List Symbol) (fs : List Formula) : Prop :=
  ∀ ts : List Token, ts.map Token.symbol = w → ∀ stop awaited ors ands outer more,
    run leaves stop awaited ⟨ors, ands, 0⟩ outer (ts ++ more) =
      run leaves stop .operator ⟨ors, fs.reverse ++ ands, 0⟩ outer more

/-- The same of several alternatives, where no operand of the first has been read. -/
def ReadsAlternatives (leaves : Leaves) (w : List Symbol) (fs : List Formula) : Prop :=
  ∀ ts : List Token, ts.map Token.symbol = w → ∀ stop awaited ors outer more, ∃ g : Group,
    g.close = joined .or (ors.reverse ++ fs) ∧
      run leaves stop awaited ⟨ors, [], 0⟩ outer (ts ++ more) = run leaves stop .operator g outer more

theorem ReadsOperand.not {w : List Symbol} {f : Formula} (h : ReadsOperand leaves w f) :
    ReadsOperand leaves (.not :: w) (.not f) := by
  intro ts hw stop awaited g outer more
  obtain ⟨⟨_, p⟩, ts, rfl, rfl, ht⟩ := List.map_eq_cons_iff.mp hw
  rw [List.cons_append, run, h ts ht, Group.push_nots_succ]

theorem ReadsOperand.pair {key value : String} {f : Formula} (h : leaf leaves key value = .ok f) :
    ReadsOperand leaves [.pair key value] f := by
  intro ts hw stop awaited g outer more
  obtain ⟨⟨_, p⟩, _, rfl, rfl, hnil⟩ := List.map_eq_cons_iff.mp hw
  obtain rfl := List.map_eq_nil_iff.mp hnil
  rw [List.singleton_append, run, h]

theorem ReadsAlternatives.bracket {w : List Symbol} {fs : List Formula} (h : ReadsAlternatives leaves w fs) :
    ReadsOperand leaves (.bracketLeft :: (w ++ [.bracketRight])) (joined .or fs) := by
  intro ts hw stop awaited g outer more
  obtain ⟨⟨_, p⟩, ts, rfl, rfl, ht⟩ := List.map_eq_cons_iff.mp hw
  obtain ⟨inner, last, rfl, hinner, hlast⟩ := List.map_eq_append_iff.mp ht
  obtain ⟨⟨_, q⟩, _, rfl, rfl, hnil⟩ := List.map_eq_cons_iff.mp hlast
  obtain rfl := List.map_eq_nil_iff.mp hnil
  obtain ⟨g', hclose, hrun⟩ := h inner hinner stop (.afterBracket p) [] ((p, g) :: outer) (⟨.bracketRight, q⟩ :: more)
  rw [List.cons_append, List.append_assoc, List.singleton_append, run]
  show run leaves stop (.afterBracket p) ⟨[], [], 0⟩ ((p, g) :: outer) (inner ++ ⟨.bracketRight, q⟩ :: more) = _
  rw [hrun, run, if_pos rfl, hclose]
  rfl

theorem ReadsOperand.one {w : List Symbol} {f : Formula} (h : ReadsOperand leaves w f) :
    ReadsOperands leaves w [f] := by
  intro ts hw stop awaited ors ands outer more
  exact h ts hw stop awaited ⟨ors, ands, 0⟩ outer more

theorem ReadsOperand.beside {w w' : List Symbol} {f : Formula} {fs : List Formula} (h : ReadsOperand leaves w f)
    (hs : ReadsOperands leaves w' fs) : ReadsOperands leaves (w ++ w') (f :: fs) := by
  intro ts hw stop awaited ors ands outer more
  obtain ⟨ts, ts', rfl, ht, ht'⟩ := List.map_eq_append_iff.mp hw
  rw [List.append_assoc, h ts ht]
  show run leaves stop .operator ⟨ors, f :: ands, 0⟩ outer (ts' ++ more) = _
  rw [hs ts' ht', List.reverse_cons, List.append_assoc, List.singleton_append]

theorem ReadsOperand.and {w w' : List Symbol} {f : Formula} {fs : List Formula} (h : ReadsOperand leaves w f)
    (hs : ReadsOperands leaves w' fs) : ReadsOperands leaves (w ++ .and :: w') (f :: fs) := by
  intro ts hw stop awaited ors ands outer more
  obtain ⟨ts, rest, rfl, ht, hrest⟩ := List.map_eq_append_iff.mp hw
  obtain ⟨⟨_, p⟩, ts', rfl, rfl, ht'⟩ := List.map_eq_cons_iff.mp hrest
  rw [List.append_assoc, List.cons_append, h ts ht, run, if_pos rfl]
  show run leaves stop (.afterOperator .and p) ⟨ors, f :: ands, 0⟩ outer (ts' ++ more) = _
  rw [hs ts' ht', List.reverse_cons, List.append_assoc, List.singleton_append]

theorem ReadsOperands.one {w : List Symbol} {fs : List Formula} (h : ReadsOperands leaves w fs) :
    ReadsAlternatives leaves w [joined .and fs] := by
  intro ts hw stop awaited ors outer more
  refine ⟨⟨ors, fs.reverse, 0⟩, ?_, ?_⟩
  · rw [Group.close, Group.alternative_reverse, List.reverse_cons]
  · rw [h ts hw, List.append_nil]

theorem ReadsOperands.or {w w' : List Symbol} {fs gs : List Formula} (h : ReadsOperands leaves w fs)
    (hs : ReadsAlternatives leaves w' gs) : ReadsAlternatives leaves (w ++ .or :: w') (joined .and fs :: gs) := by
  intro ts hw stop awaited ors outer more
  obtain ⟨ts, rest, rfl, ht, hrest⟩ := List.map_eq_append_iff.mp hw
  obtain ⟨⟨_, p⟩, ts', rfl, rfl, ht'⟩ := List.map_eq_cons_iff.mp hrest
  obtain ⟨g, hclose, hrun⟩ := hs ts' ht' stop (.afterOperator .or p) (joined .and fs :: ors) outer more
  refine ⟨g, ?_, ?_⟩
  · rw [hclose, List.reverse_cons, List.append_assoc, List.singleton_append]
  · rw [List.append_assoc, List.cons_append, h ts ht, List.append_nil, run, if_pos rfl, Group.nextAlternative,
      Group.alternative_reverse]
    exact hrun

mutual

theorem run_single {w : List Symbol} {f : Formula} : Single leaves w f → ReadsOperand leaves w f
  | .not h => (run_single h).not
  | .bracket h => (run_alternatives h).bracket
  | .pair h => .pair h

theorem run_operands {w : List Symbol} {fs : List Formula} : Operands leaves w fs → ReadsOperands leaves w fs
  | .one h => (run_single h).one
  | .and h hs => (run_single h).and (run_operands hs)
  | .beside h hs => (run_single h).beside (run_operands hs)

theorem run_alternatives {w : List Symbol} {fs : List Formula} : Alternatives leaves w fs →
    ReadsAlternatives leaves w fs
  | .one h => (run_operands h).one
  | .or h hs => (run_operands h).or (run_alternatives hs)

end

theorem expression_cons (t : Token) (ts : List Token) (stop : Nat) :
    (Parser.mk leaves (t :: ts) stop).expression =
      ((run leaves stop .first .empty [] (t :: ts)).result,
        ⟨leaves, (run leaves stop .first .empty [] (t :: ts)).rest, stop⟩) := rfl

/-- Alternatives that take all the tokens are one expression, with nothing left. -/
theorem expression_of_alternatives {ts : List Token} {fs : List Formula}
    (h : Alternatives leaves (ts.map Token.symbol) fs) (stop : Nat) :
    (Parser.mk leaves ts stop).expression = (.ok (joined .or fs), ⟨leaves, [], stop⟩) := by
  obtain ⟨g, hclose, hrun⟩ := run_alternatives h ts rfl stop .first [] [] []
  have hend : run leaves stop .operator g [] [] = ⟨.ok (joined .or fs), []⟩ := by
    rw [run, if_pos rfl, hclose]
    rfl
  rw [List.append_nil, hend] at hrun
  cases ts with
  | nil =>
    -- The parser finds an operand in the tokens of alternatives, so there are some.
    rw [run, if_neg (by decide)] at hrun
    cases congrArg Outcome.result hrun
  | cons t ts =>
    rw [expression_cons, Group.empty, hrun]

theorem parse_eq (leaves : Leaves) (query : String) :
    parse leaves query = (tokenize query).bind fun ts =>
      (Parser.mk leaves ts.items ts.stop).expression.1.bind fun f =>
        (Parser.mk leaves ts.items ts.stop).expression.2.finish.map fun _ => f := by
  rw [parse, Parser.start]
  cases tokenize query <;> rfl

/-- A formula is that of one expression with nothing left over. -/
theorem parts_of_parse_ok {query : String} {f : Formula} (h : parse leaves query = .ok f) :
    ∃ ts p, tokenize query = .ok ts ∧ (Parser.mk leaves ts.items ts.stop).expression = (.ok f, p) ∧
      p.finish = .ok () := by
  rw [parse_eq] at h
  cases ht : tokenize query with
  | error e =>
    rw [ht] at h
    cases h
  | ok ts =>
    refine ⟨ts, ?_⟩
    rw [ht] at h
    simp only [Except.bind] at h
    cases he : (Parser.mk leaves ts.items ts.stop).expression with
    | mk result p =>
      rw [he] at h
      cases result with
      | error e => cases h
      | ok f' =>
        cases hend : p.finish with
        | error e =>
          rw [hend] at h
          cases h
        | ok _ =>
          rw [hend] at h
          cases h
          exact ⟨p, rfl, rfl, hend⟩

/-- An error is one of the tokens, of the expression that they start with or of what is left over after it. -/
theorem parts_of_parse_error {query : String} {e : Error} (h : parse leaves query = .error e) :
    tokenize query = .error e ∨ ∃ ts p, tokenize query = .ok ts ∧
      ((Parser.mk leaves ts.items ts.stop).expression = (.error e, p) ∨
        ∃ f, (Parser.mk leaves ts.items ts.stop).expression = (.ok f, p) ∧ p.finish = .error e) := by
  rw [parse_eq] at h
  cases ht : tokenize query with
  | error e' =>
    rw [ht] at h
    cases h
    exact .inl rfl
  | ok ts =>
    refine .inr ⟨ts, ?_⟩
    rw [ht] at h
    simp only [Except.bind] at h
    cases he : (Parser.mk leaves ts.items ts.stop).expression with
    | mk result p =>
      rw [he] at h
      cases result with
      | error e' =>
        cases h
        exact ⟨p, rfl, .inl rfl⟩
      | ok f =>
        cases hend : p.finish with
        | error e' =>
          rw [hend] at h
          cases h
          exact ⟨p, rfl, .inr ⟨f, rfl, hend⟩⟩
        | ok _ =>
          rw [hend] at h
          cases h

/-- A query of tokens that the grammar derives is the formula of the derivation. -/
theorem parse_of_alternatives {query : String} {ts : Tokens} (ht : tokenize query = .ok ts) {fs : List Formula}
    (h : Alternatives leaves (ts.items.map Token.symbol) fs) : parse leaves query = .ok (joined .or fs) := by
  rw [parse_eq, ht]
  show (Parser.mk leaves ts.items ts.stop).expression.1.bind _ = _
  rw [expression_of_alternatives h]
  rfl

end Run

end Triage.Query
