/-
  Triage.Proofs.Query.Brackets — an error about a bracket stands at one that has no partner.

  `openAfter` counts the brackets that are open after some symbols, and `Balanced` says that each bracket among them
  has a partner. The parser keeps the places of the brackets that are open: before, between and after those brackets
  the others are balanced (`Enclosed`), and each move keeps that. So where it halts for want of a closing bracket,
  nothing after the place that it names closes that bracket, and what is left over after an expression closes nothing.
  Where an operand is awaited, a closing bracket has this error only as the first token: after an operator or inside
  brackets there is another one (`first_of_unmatched`).
-/

import Triage.Proofs.Query.Calls

namespace Triage.Query

/-! ## Balanced brackets -/

/-- How many brackets are open after the symbol where so many are before; none if it closes nothing. -/
def Symbol.openAfter : Symbol → Nat → Option Nat
  | .bracketLeft, n => some (n + 1)
  | .bracketRight, 0 => none
  | .bracketRight, n + 1 => some n
  | .not, n | .and, n | .or, n | .word _, n | .pair _ _, n => some n

/-- The same for symbols one after the other. -/
def openAfter (n : Nat) (w : List Symbol) : Option Nat := w.foldlM (fun n s => s.openAfter n) n

/-- Each bracket has a partner. -/
def Balanced (w : List Symbol) : Prop := openAfter 0 w = some 0

instance (w : List Symbol) : Decidable (Balanced w) := inferInstanceAs (Decidable (openAfter 0 w = some 0))

theorem openAfter_cons (n : Nat) (s : Symbol) (w : List Symbol) :
    openAfter n (s :: w) = (s.openAfter n).bind fun m => openAfter m w := List.foldlM_cons

theorem openAfter_append (n : Nat) (w w' : List Symbol) :
    openAfter n (w ++ w') = (openAfter n w).bind fun m => openAfter m w' := List.foldlM_append

/-- Brackets that are open around the symbols stay open. -/
theorem openAfter_add {n m : Nat} {w : List Symbol} (h : openAfter n w = some m) (k : Nat) :
    openAfter (n + k) w = some (m + k) := by
  induction w generalizing n with
  | nil =>
    cases h
    rfl
  | cons s w ih =>
    rw [openAfter_cons] at h ⊢
    cases hs : s.openAfter n with
    | none =>
      rw [hs] at h
      cases h
    | some n' =>
      rw [hs] at h
      have hstep : s.openAfter (n + k) = some (n' + k) := by
        cases s with
        | bracketLeft | not | and | or | word | pair =>
          cases hs
          simp [Symbol.openAfter, Nat.add_right_comm]
        | bracketRight =>
          cases n with
          | zero => cases hs
          | succ n =>
            cases hs
            rw [Nat.add_right_comm]
            rfl
      rw [hstep]
      exact ih h

namespace Balanced

variable {w w' : List Symbol}

theorem nil : Balanced [] := rfl

theorem append (h : Balanced w) (h' : Balanced w') : Balanced (w ++ w') := by
  rw [Balanced, openAfter_append, h]
  exact h'

theorem bracket (h : Balanced w) : Balanced (.bracketLeft :: (w ++ [.bracketRight])) := by
  have hinside : openAfter 1 w = some 1 := by simpa using openAfter_add h 1
  rw [Balanced, openAfter_cons]
  show openAfter 1 (w ++ [.bracketRight]) = some 0
  rw [openAfter_append, hinside]
  rfl

/-- After balanced symbols a closing bracket would close nothing. -/
theorem not_closed {rest : List Symbol} (h : Balanced (w ++ .bracketRight :: rest)) : ¬ Balanced w := by
  intro hw
  rw [Balanced, openAfter_append, hw] at h
  cases h

end Balanced

/-! ## Brackets around the place -/

/-- The tokens that have been read hold the brackets that are open, each where it stands, and no other bracket without
    a partner. -/
inductive Enclosed : List Token → List (Nat × Group) → Prop
  | none {read : List Token} : Balanced (read.map Token.symbol) → Enclosed read []
  | bracket {before inside : List Token} {p : Nat} {g : Group} {outer : List (Nat × Group)} : Enclosed before outer →
      Balanced (inside.map Token.symbol) → Enclosed (before ++ ⟨.bracketLeft, p⟩ :: inside) ((p, g) :: outer)

theorem Enclosed.append {read more : List Token} {outer : List (Nat × Group)} (h : Enclosed read outer)
    (hm : Balanced (more.map Token.symbol)) : Enclosed (read ++ more) outer := by
  cases h with
  | none hread =>
    refine .none ?_
    rw [List.map_append]
    exact hread.append hm
  | bracket houter hinside =>
    rw [List.append_assoc, List.cons_append]
    refine .bracket houter ?_
    rw [List.map_append]
    exact hinside.append hm

/-- What each move of the parser keeps: the brackets are those of the tokens, and there is none as long as the first
    operand is awaited. -/
structure Bracketed (read : List Token) (s : Reading) : Prop where
  enclosed : Enclosed read s.outer
  outer_of_first : s.awaited = .first → s.outer = []

theorem Bracketed.start : Bracketed [] .start := ⟨.none .nil, fun _ => rfl⟩

variable {leaves : Leaves} {stop : Nat}

theorem Bracketed.move {read : List Token} {t : Token} {s s' : Reading} (h : Bracketed read s)
    (ht : Moves leaves t s s') : Bracketed (read ++ [t]) s' := by
  obtain ⟨henclosed, -⟩ := h
  cases ht with
  | not | pair | and | or => exact ⟨henclosed.append rfl, by rintro ⟨⟩⟩
  | bracketLeft => exact ⟨.bracket henclosed .nil, by rintro ⟨⟩⟩
  | bracketRight =>
    refine ⟨?_, by rintro ⟨⟩⟩
    cases henclosed with
    | bracket houter hinside =>
      rw [List.append_assoc, List.cons_append]
      refine houter.append ?_
      rw [List.map_cons, List.map_append]
      exact hinside.bracket

theorem bracketed_of_goes {used : List Token} {s : Reading} (h : Goes leaves used .start s) : Bracketed used s :=
  h.keeps (fun _ _ _ _ hs ht => Bracketed.move hs ht) .start

/-! ## Where errors about brackets stand -/

theorem first_of_unmatched {awaited : Awaited} {ts : List Token} {e : Error} (ha : awaited ≠ .operator)
    (he : (noOperand stop awaited ts).result = .error e) (hc : e.cause = .unmatchedBracket) :
    awaited = .first ∧ ∃ rest, ts = ⟨.bracketRight, e.position⟩ :: rest := by
  unfold noOperand at he
  split at he <;> cases he <;> try cases hc
  rename_i p rest hoperator hbracket
  refine ⟨?_, rest, rfl⟩
  cases awaited with
  | first => rfl
  | afterBracket q => exact absurd rfl (hbracket q)
  | afterOperator op q => exact absurd rfl (hoperator op q)
  | operator => exact absurd rfl ha

namespace Halts

variable {s : Reading} {ts : List Token} {o : Outcome} {e : Error}

theorem of_unmatched (h : Halts leaves stop s ts o) (ho : o.result = .error e) (hc : e.cause = .unmatchedBracket) :
    s.awaited = .first ∧ ∃ rest, ts = ⟨.bracketRight, e.position⟩ :: rest := by
  cases h with
  | done => cases ho
  | unclosed | word =>
    cases ho
    cases hc
  | unknown hf =>
    cases ho
    exact absurd hc (ne_of_not_structural (leaf_not_structural hf) rfl)
  | missing ha => exact first_of_unmatched ha ho hc

theorem of_unclosed (h : Halts leaves stop s ts o) (ho : o.result = .error e) (hc : e.cause = .unclosedBracket) :
    ts = [] ∧ ∃ g outer, s.outer = (e.position, g) :: outer := by
  cases h with
  | done => cases ho
  | unclosed =>
    cases ho
    exact ⟨rfl, _, _, rfl⟩
  | word =>
    cases ho
    cases hc
  | unknown hf =>
    cases ho
    exact absurd hc (ne_of_not_structural (leaf_not_structural hf) rfl)
  | missing =>
    obtain ⟨e', he', -, hne⟩ := noOperand_result stop s.awaited ts
    rw [he'] at ho
    cases ho
    exact absurd hc hne

end Halts

section Expression

variable {ts : List Token} {p : Parser}

theorem expression_unmatched {e : Error} (h : (Parser.mk leaves ts stop).expression = (.error e, p))
    (hc : e.cause = .unmatchedBracket) :
    ∃ before after, ts = before ++ ⟨.bracketRight, e.position⟩ :: after ∧ Balanced (before.map Token.symbol) := by
  rcases halts_of_expression_error h with ⟨-, rfl⟩ | ⟨used, rest, s, o, hts, hused, hhalts, ho⟩
  · cases hc
  · obtain ⟨hfirst, after, rfl⟩ := hhalts.of_unmatched ho hc
    obtain ⟨henclosed, houter⟩ := bracketed_of_goes hused
    rw [houter hfirst] at henclosed
    cases henclosed with
    | none hbalanced => exact ⟨used, after, hts, hbalanced⟩

theorem expression_unclosed {e : Error} (h : (Parser.mk leaves ts stop).expression = (.error e, p))
    (hc : e.cause = .unclosedBracket) :
    ∃ before after, ts = before ++ ⟨.bracketLeft, e.position⟩ :: after ∧ Balanced (after.map Token.symbol) := by
  rcases halts_of_expression_error h with ⟨-, rfl⟩ | ⟨used, rest, s, o, hts, hused, hhalts, ho⟩
  · cases hc
  · obtain ⟨rfl, g, outer, houter⟩ := hhalts.of_unclosed ho hc
    obtain ⟨henclosed, -⟩ := bracketed_of_goes hused
    rw [houter] at henclosed
    rw [List.append_nil] at hts
    cases henclosed with
    | @bracket before inside _ _ _ _ hinside => exact ⟨before, inside, hts, hinside⟩

/-- What one expression uses has no bracket without a partner. -/
theorem expression_balanced {f : Formula} (h : (Parser.mk leaves ts stop).expression = (.ok f, p)) :
    ∃ used, ts = used ++ p.rest ∧ Balanced (used.map Token.symbol) := by
  obtain ⟨used, g, hts, hused, -, -⟩ := goes_of_expression_ok h
  obtain ⟨henclosed, -⟩ := bracketed_of_goes hused
  cases henclosed with
  | none hbalanced => exact ⟨used, hts, hbalanced⟩

end Expression

/-! ## Whole queries -/

/-- Each token stands after those before it. -/
theorem Tiled.increasing {before cs : List Char} {ts : List Token} (h : Tiled before cs ts) :
    (ts.map Token.position).Pairwise (· < ·) ∧ ∀ t ∈ ts, before.length ≤ t.position := by
  induction h with
  | done => exact ⟨.nil, by rintro _ ⟨⟩⟩
  | @token before gap x rest s ts _ hx _ ih =>
    obtain ⟨hpairwise, hle⟩ := ih
    obtain ⟨c, cs, rfl, -⟩ := next_of_spelled hx
    have hlater : ∀ t ∈ ts, (before ++ gap).length < t.position := by
      intro t ht
      have := hle t ht
      simp only [List.length_append, List.length_cons] at this ⊢
      omega
    refine ⟨List.pairwise_cons.mpr ⟨List.forall_mem_map.mpr hlater, hpairwise⟩, List.forall_mem_cons.mpr ⟨?_, ?_⟩⟩
    · simp
    · intro t ht
      have := hlater t ht
      simp only [List.length_append] at this
      omega

theorem parse_error_unmatched {query : String} {e : Error} (h : parse leaves query = .error e)
    (hc : e.cause = .unmatchedBracket) : ∃ ts before after, tokenize query = .ok ts ∧
      ts.items = before ++ ⟨.bracketRight, e.position⟩ :: after ∧ Balanced (before.map Token.symbol) := by
  rcases parts_of_parse_error h with ht | ⟨ts, p, ht, he | ⟨f, he, hend⟩⟩
  · exact absurd hc (ne_of_not_structural (tokenize_not_structural ht) rfl)
  · obtain ⟨before, after, hts, hb⟩ := expression_unmatched he hc
    exact ⟨ts, before, after, ht, hts, hb⟩
  · obtain ⟨after, hrest, -⟩ := finish_cause he hend
    obtain ⟨used, hts, hb⟩ := expression_balanced he
    exact ⟨ts, used, after, ht, hrest ▸ hts, hb⟩

theorem parse_error_unclosed {query : String} {e : Error} (h : parse leaves query = .error e)
    (hc : e.cause = .unclosedBracket) : ∃ ts before after, tokenize query = .ok ts ∧
      ts.items = before ++ ⟨.bracketLeft, e.position⟩ :: after ∧ Balanced (after.map Token.symbol) := by
  rcases parts_of_parse_error h with ht | ⟨ts, p, ht, he | ⟨f, he, hend⟩⟩
  · exact absurd hc (ne_of_not_structural (tokenize_not_structural ht) rfl)
  · obtain ⟨before, after, hts, hb⟩ := expression_unclosed he hc
    exact ⟨ts, before, after, ht, hts, hb⟩
  · obtain ⟨-, -, hc'⟩ := finish_cause he hend
    rw [hc'] at hc
    cases hc

theorem parse_ok_balanced {query : String} {f : Formula} (h : parse leaves query = .ok f) :
    ∃ ts, tokenize query = .ok ts ∧ Balanced (ts.items.map Token.symbol) := by
  obtain ⟨ts, p, ht, he, hend⟩ := parts_of_parse_ok h
  obtain ⟨used, hts, hb⟩ := expression_balanced he
  rw [rest_eq_nil_of_finish hend, List.append_nil] at hts
  exact ⟨ts, ht, hts ▸ hb⟩

/-- A closing bracket that is said to match none stands after balanced brackets, and an opening one that is said to
    have no match stands before balanced brackets, so that none of them closes it. A query that is parsed has only
    balanced brackets. No two tokens stand at one place. -/
theorem bracket_errors_stand_at_unpartnered (leaves : Leaves) (query : String) :
    (∀ e, parse leaves query = .error e → e.cause.message = "Unmatched ')'" →
      ∃ ts before after, tokenize query = .ok ts ∧ ts.items = before ++ ⟨.bracketRight, e.position⟩ :: after ∧
        Balanced (before.map Token.symbol)) ∧
    (∀ e, parse leaves query = .error e → e.cause.message = "Missing matching bracket ')'" →
      ∃ ts before after, tokenize query = .ok ts ∧ ts.items = before ++ ⟨.bracketLeft, e.position⟩ :: after ∧
        Balanced (after.map Token.symbol) ∧
        ∀ inside p rest, after = inside ++ ⟨.bracketRight, p⟩ :: rest → ¬ Balanced (inside.map Token.symbol)) ∧
    (∀ f, parse leaves query = .ok f → ∃ ts, tokenize query = .ok ts ∧ Balanced (ts.items.map Token.symbol)) ∧
    ∀ ts, tokenize query = .ok ts → (ts.items.map Token.position).Pairwise (· < ·) := by
  refine ⟨fun e h hm => ?_, fun e h hm => ?_, fun f => parse_ok_balanced, fun ts ht => ?_⟩
  · exact parse_error_unmatched h (eq_of_message_eq (.inr (.inr rfl)) hm)
  · obtain ⟨ts, before, after, ht, hts, hb⟩ := parse_error_unclosed h (eq_of_message_eq (.inr (.inl rfl)) hm)
    refine ⟨ts, before, after, ht, hts, hb, ?_⟩
    rintro inside p rest rfl
    rw [List.map_append, List.map_cons] at hb
    exact hb.not_closed
  · exact (tiled_of_tokenize ht).1.increasing.1

/-- A bracket too many after two pairs, and two too few, of which the inner one is named. -/
theorem bracket_errors_stand_at_unpartnered_nested :
    (parse .empty "(is:open) !(is:pr))" = .error ⟨.unmatchedBracket, 18⟩ ∧
      ∃ ts before after, tokenize "(is:open) !(is:pr))" = .ok ts ∧ ts.items = before ++ ⟨.bracketRight, 18⟩ :: after ∧
        Balanced (before.map Token.symbol)) ∧
    (parse .empty "(label:x (is:open (is:pr)" = .error ⟨.unclosedBracket, 9⟩ ∧
      ∃ ts before after, tokenize "(label:x (is:open (is:pr)" = .ok ts ∧
        ts.items = before ++ ⟨.bracketLeft, 9⟩ :: after ∧ Balanced (after.map Token.symbol)) := by
  have hmany : tokenize "(is:open) !(is:pr))" =
      .ok ⟨[⟨.bracketLeft, 0⟩, ⟨.pair "is" "open", 1⟩, ⟨.bracketRight, 8⟩, ⟨.not, 10⟩, ⟨.bracketLeft, 11⟩,
        ⟨.pair "is" "pr", 12⟩, ⟨.bracketRight, 17⟩, ⟨.bracketRight, 18⟩], 19⟩ := by decide +kernel
  have hfew : tokenize "(label:x (is:open (is:pr)" =
      .ok ⟨[⟨.bracketLeft, 0⟩, ⟨.pair "label" "x", 1⟩, ⟨.bracketLeft, 9⟩, ⟨.pair "is" "open", 10⟩, ⟨.bracketLeft, 18⟩,
        ⟨.pair "is" "pr", 19⟩, ⟨.bracketRight, 24⟩], 25⟩ := by decide +kernel
  have hunmatched : parse .empty "(is:open) !(is:pr))" = .error ⟨.unmatchedBracket, 18⟩ := by
    rw [parse_eq, hmany]
    rfl
  have hunclosed : parse .empty "(label:x (is:open (is:pr)" = .error ⟨.unclosedBracket, 9⟩ := by
    rw [parse_eq, hfew]
    rfl
  obtain ⟨ts, before, after, ht, hts, hb, -⟩ := (bracket_errors_stand_at_unpartnered .empty _).2.1 _ hunclosed rfl
  exact ⟨⟨hunmatched, (bracket_errors_stand_at_unpartnered .empty _).1 _ hunmatched rfl⟩, hunclosed,
    ts, before, after, ht, hts, hb⟩

end Triage.Query
