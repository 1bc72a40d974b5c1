/-
  Triage.Proofs.Query.Completion — an error stands where the query could still have gone on.

  The characters before the place of an error are the start of a query that has no error. For the tokens that is shown
  spelling by spelling (`Interrupted`): what stands before a bad character is a whole word or value, or lacks a value
  or the second half of an operator. For the parser it is shown with what it holds: wherever it is, an operand and a
  closing bracket for each bracket that is open complete the query (`OperandAwaited.completable`). An error does not
  always stand where the parser is: it may stand at the operator or the bracket before, which is why the invariant
  (`Reached`) has all the places that the parser holds be such (`Passed`). Each move of the parser keeps it.
-/

import Triage.Proofs.Query.Derivation
import Triage.Proofs.Query.Token

namespace Triage.Query

/-! ## What follows a spelling -/

/-- What ends a word still does so if the text is cut off later. -/
theorem Ended.cut {start left more : List Char} (h : Ended (start ++ left)) (hm : start = [] → Ended more) :
    Ended (start ++ more) := by
  cases start with
  | nil => exact hm rfl
  | cons c start => exact h

theorem Spelled.followed {rest rest' x : List Char} {s : Symbol} (h : Spelled rest x s)
    (hr : Ended rest → Ended rest') : Spelled rest' x s := by
  cases h with
  | bracketLeft => exact .bracketLeft
  | bracketRight => exact .bracketRight
  | not => exact .not
  | and => exact .and
  | or => exact .or
  | word hc hword hs he => exact .word hc hword hs (hr he)
  | pair hkey hvalue he => exact .pair hkey hvalue (hr he)

/-! ## Errors in tokens -/

/-- The text before the place of the error can go on: it is read to the end where `more` follows. -/
inductive Interrupted (total : Nat) (cs : List Char) (e : Error) : Prop
  | intro {start left more : List Char} {w : List Symbol} : cs = start ++ left → e.position = total - left.length →
      (start = [] → Ended more) → Reads w (start ++ more) [] → Interrupted total cs e

section Interrupted

variable {total : Nat} {e : Error}

theorem Interrupted.at_start {α : Type} {cause : Cause} {cs : List Char}
    (h : (Token.fail total cause cs : Except Error α) = .error e) : Interrupted total cs e := by
  cases h
  exact .intro (List.nil_append cs).symm rfl (fun _ => .nil) (.refl [])

/-- The error stands right after a whole spelling. -/
theorem Interrupted.after_spelling {α : Type} {cause : Cause} {x left : List Char} {s : Symbol} (hx : Spelled [] x s)
    (h : (Token.fail total cause left : Except Error α) = .error e) : Interrupted total (x ++ left) e := by
  cases h
  exact .intro rfl rfl (fun _ => .nil) (.spelled hx)

theorem Interrupted.gap {c : Char} {cs : List Char} (hc : Token.isGap c = true) (h : Interrupted total cs e) :
    Interrupted total (c :: cs) e := by
  obtain ⟨rfl, hp, -, hread⟩ := h
  exact .intro (List.cons_append).symm hp (fun hnil => nomatch hnil) (.gap hc hread)

theorem Interrupted.spelled {x rest : List Char} {s : Symbol} (hx : Spelled rest x s) (h : Interrupted total rest e) :
    Interrupted total (x ++ rest) e := by
  obtain @⟨start, left, more, w, rfl, hp, hmore, hread⟩ := h
  have hfollowed : Spelled (start ++ more) x s := hx.followed fun he => he.cut hmore
  have hwhole : Reads ([s] ++ w) (x ++ start ++ more) [] := by
    rw [List.append_assoc]
    exact (Reads.spelled hfollowed).trans hread
  refine .intro (List.append_assoc x start left).symm hp ?_ hwhole
  intro hnil
  exact hmore (List.append_eq_nil_iff.mp hnil).2

theorem interrupted_of_separated {x rest : List Char} {s s' : Symbol} (hx : Spelled [] x s')
    (h : Token.separated total s rest = .error e) : Interrupted total (x ++ rest) e := by
  cases rest with
  | nil => cases h
  | cons c rest =>
    rw [Token.separated] at h
    split at h
    · cases h
    · exact .after_spelling hx h

/-- Where a value is missing or bad, a bare one could stand. -/
theorem interrupted_after_colon {α : Type} {cause : Cause} {key cs : List Char} (hk : SpelledKey key)
    (h : (Token.fail total cause cs : Except Error α) = .error e) : Interrupted total (key ++ ':' :: cs) e := by
  have hvalue : SpelledValue ['a'] ['a'] := .bare (List.cons_ne_nil _ _) (List.all_eq_true.mp (by decide))
  have hpair := Reads.spelled (.pair hk hvalue .nil)
  rw [List.append_nil, List.append_cons] at hpair
  cases h
  refine .intro (List.append_cons key ':' cs) rfl ?_ hpair
  intro hnil
  simp at hnil

theorem interrupted_of_keyed {key cs : List Char} (hk : SpelledKey key) (h : Token.keyed total key cs = .error e) :
    Interrupted total (key ++ ':' :: cs) e := by
  cases cs with
  | nil => exact interrupted_after_colon hk h
  | cons c cs =>
    rw [Token.keyed] at h
    split at h
    · rename_i hc
      subst hc
      split at h
      · rename_i v rest hq
        obtain ⟨body, rfl, hb⟩ := quotedBody_of_quoted hq
        have hi := interrupted_of_separated (.pair hk (.quoted hb) .nil) h
        simpa using hi
      · exact interrupted_after_colon hk h
    · split at h
      · rename_i hc
        have hne : (c :: cs).takeWhile Value.isBareChar ≠ [] := by
          rw [List.takeWhile_cons, if_pos hc]
          exact List.cons_ne_nil _ _
        have hbare : SpelledValue ((c :: cs).takeWhile Value.isBareChar) ((c :: cs).takeWhile Value.isBareChar) :=
          .bare hne fun d hd => List.mem_takeWhile_imp hd
        have hi := interrupted_of_separated (.pair hk hbare .nil) h
        rwa [List.append_assoc, List.cons_append, List.takeWhile_append_dropWhile] at hi
      · exact interrupted_after_colon hk h

theorem interrupted_of_bareWord {c : Char} {cs rest : List Char} (hc : Token.isWordChar c = true)
    (h : Token.bareWord total (c :: cs) rest = .error e) : Interrupted total (c :: cs ++ rest) e := by
  rw [Token.bareWord] at h
  split at h
  · exact .at_start h
  · rename_i hhyphen
    have hfirst : c ≠ '-' := by
      intro hc
      exact hhyphen (congrArg some hc)
    have hsplit : (c :: cs).takeWhile Token.isWordChar ++ (c :: cs).dropWhile Token.isWordChar = c :: cs :=
      List.takeWhile_append_dropWhile
    -- The word up to its first bad character is a word.
    have hword : Spelled [] ((c :: cs).takeWhile Token.isWordChar)
        (Token.keyword (String.ofList ((c :: cs).takeWhile Token.isWordChar))) := by
      have hchars : ∀ d ∈ (c :: cs).takeWhile Token.isWordChar, Token.isWordChar d = true := fun d hd =>
        List.mem_takeWhile_imp hd
      rw [List.takeWhile_cons, if_pos hc] at hchars ⊢
      exact .word hfirst hchars (spelledWord_keyword _) .nil
    split at h
    · rename_i hnil
      rw [hnil, List.append_nil] at hsplit
      rw [hsplit] at hword
      exact interrupted_of_separated hword h
    · rename_i d more hbad
      rw [hbad] at hsplit
      rw [← hsplit, List.append_assoc]
      exact .after_spelling hword h

theorem interrupted_of_wordOrPair {c : Char} {cs : List Char} (hc : Value.isBareChar c = true)
    (h : Token.wordOrPair total c cs = .error e) : Interrupted total (c :: cs) e := by
  rw [Token.wordOrPair] at h
  split at h
  · rename_i hword
    have hsplit : c :: cs.takeWhile Value.isBareChar ++ cs.dropWhile Value.isBareChar = c :: cs := by
      rw [List.cons_append, List.takeWhile_append_dropWhile]
    rw [List.takeWhile_cons, if_pos hc, List.dropWhile_cons, if_pos hc] at h
    dsimp only at h
    split at h
    · rename_i rest hrest
      rw [hrest] at hsplit
      rw [← hsplit]
      exact interrupted_of_keyed (.intro hword fun d hd => List.mem_takeWhile_imp hd) h
    · rw [← hsplit]
      exact interrupted_of_bareWord hword h
  · exact .at_start h

theorem interrupted_of_doubled {c : Char} {s s' : Symbol} {cs : List Char} (hs : Spelled [] [c, c] s')
    (h : Token.doubled total c s cs = .error e) : Interrupted total (c :: cs) e := by
  have hhalf : ∀ {cause : Cause}, (Token.fail total cause cs : Except Error (Symbol × List Char)) = .error e →
      Interrupted total (c :: cs) e := by
    intro cause h
    have hwhole : Reads [s'] ([c] ++ [c]) [] := .spelled hs
    cases h
    exact .intro List.singleton_append.symm rfl (fun hnil => nomatch hnil) hwhole
  cases cs with
  | nil => exact hhalf h
  | cons d cs =>
    rw [Token.doubled] at h
    split at h
    · cases h
    · exact hhalf h

theorem interrupted_of_next {c : Char} {cs : List Char} (h : Token.next total c cs = .error e) :
    Interrupted total (c :: cs) e := by
  rw [Token.next] at h
  split at h
  · cases h
  split at h
  · cases h
  split at h
  · cases h
  split at h
  · rename_i hc
    subst hc
    exact interrupted_of_doubled .and h
  split at h
  · rename_i hc
    subst hc
    exact interrupted_of_doubled .or h
  split at h
  · exact .at_start h
  split at h
  · exact .at_start h
  split at h
  · exact interrupted_of_wordOrPair ‹_› h
  · exact .at_start h

theorem interrupted_of_tokensFrom {cs : List Char} (h : tokensFrom total cs = .error e) : Interrupted total cs e := by
  induction cs using tokensFrom.induct total with
  | case1 =>
    rw [tokensFrom] at h
    cases h
  | case2 c cs hc ih =>
    rw [tokensFrom, if_pos hc] at h
    exact .gap hc (ih h)
  | case3 c cs hc e' he =>
    rw [tokensFrom_error hc he] at h
    cases h
    exact interrupted_of_next he
  | case4 c cs hc s rest hnext ih =>
    obtain ⟨x, hx, hs⟩ := spelled_of_next hnext
    rw [tokensFrom_next hc hnext] at h
    rw [hx]
    cases hrest : tokensFrom total rest with
    | error e' =>
      rw [hrest] at h
      cases h
      exact .spelled hs (ih hrest)
    | ok ts =>
      rw [hrest] at h
      cases h

end Interrupted

/-! ## Places of tokens -/

/-- Where the first of the tokens starts, or the query ends. -/
def place (stop : Nat) : List Token → Nat
  | [] => stop
  | t :: _ => t.position

theorem place_mem (stop : Nat) (read rest : List Token) :
    place stop rest ∈ stop :: (read ++ rest).map Token.position := by
  cases rest with
  | nil => exact List.mem_cons_self
  | cons t rest => simp [place]

/-- Cut at the place of a token, the text is read to the tokens before, whatever ends it. -/
theorem Tiled.cut {before cs : List Char} {read rest : List Token} (h : Tiled before cs (read ++ rest)) :
    ∃ start left, cs = start ++ left ∧ place (before ++ cs).length rest = (before ++ start).length ∧
      ∀ more, Ended more → Reads (read.map Token.symbol) (start ++ more) more := by
  generalize hts : read ++ rest = ts at h
  induction h generalizing read with
  | @done before gap hgap =>
    obtain ⟨rfl, rfl⟩ := List.append_eq_nil_iff.mp hts
    exact ⟨gap, [], (List.append_nil gap).symm, rfl, fun more _ => (Reads.refl more).gaps hgap⟩
  | @token before gap x left s ts hgap hx _ ih =>
    cases read with
    | nil =>
      obtain rfl : rest = _ := hts
      exact ⟨gap, x ++ left, List.append_assoc gap x left, rfl, fun more _ => (Reads.refl more).gaps hgap⟩
    | cons t read =>
      obtain ⟨rfl, hread⟩ := List.cons.inj hts
      obtain ⟨start, left, rfl, hplace, hreads⟩ := ih hread
      refine ⟨gap ++ x ++ start, left, by simp, ?_, fun more hmore => ?_⟩
      · simpa using hplace
      · have hfollowed : Spelled (start ++ more) x s := hx.followed fun he => he.cut fun _ => hmore
        have hwhole := ((Reads.spelled hfollowed).trans (hreads more hmore)).gaps hgap
        simpa using hwhole

/-! ## Completing what the parser has read -/

section Completable

variable {leaves : Leaves}

/-- Some text completes the symbols to a query. -/
def Completable (leaves : Leaves) (w : List Symbol) : Prop :=
  ∃ more w' f, Ended more ∧ Reads w' more [] ∧ Derives leaves (w ++ w') f

theorem Derives.completable {w : List Symbol} {f : Formula} (h : Derives leaves w f) : Completable leaves w := by
  refine ⟨[], [], f, .nil, .refl [], ?_⟩
  rwa [List.append_nil]

theorem reads_brackets (n : Nat) : Reads (List.replicate n .bracketRight) (List.replicate n ')') [] := by
  induction n with
  | zero => exact .refl []
  | succ n ih => exact (reads_bracketRight _).trans ih

/-- An operand of which nothing needs to be known. -/
theorem reads_open {rest : List Char} (hr : Ended rest) : Reads [.pair "is" "open"] (" is:open".toList ++ rest) rest := by
  have hkey : SpelledKey ['i', 's'] := .intro (by decide) (List.all_eq_true.mp (by decide))
  have hvalue : SpelledValue "open".toList "open".toList := .bare (by decide) (List.all_eq_true.mp (by decide))
  exact .gap rfl (.spelled (.pair hkey hvalue hr))

theorem ended_brackets (n : Nat) : Ended (List.replicate n ')') := by
  cases n with
  | zero => exact .nil
  | succ n => exact .bracketRight _

/-- After an operand, a closing bracket for each open one completes the query. -/
theorem OperandRead.closed {v w : List Symbol} {g : Group} {outer : List (Nat × Group)} (ho : Opened leaves v outer)
    (hg : OperandRead leaves w g) :
    ∃ f, Derives leaves (v ++ (w ++ List.replicate outer.length .bracketRight)) f := by
  induction ho generalizing w g with
  | none => exact ⟨g.close, _, by simpa using hg.close, rfl⟩
  | @bracket v u g' outer p _ hu ih =>
    obtain ⟨f, hf⟩ := ih (hu.push hg.bracket)
    refine ⟨f, ?_⟩
    rw [List.length_cons, List.replicate_succ]
    simpa using hf

theorem OperandAwaited.completable {v w : List Symbol} {g : Group} {outer : List (Nat × Group)}
    (ho : Opened leaves v outer) (hg : OperandAwaited leaves w g) : Completable leaves (v ++ w) := by
  have hopen : Single leaves [.pair "is" "open"] (.leaf (.isOpen true)) := .pair rfl
  obtain ⟨f, hf⟩ := (hg.push hopen).closed ho
  have hbrackets := ended_brackets outer.length
  refine ⟨_, _, f, .blank _, (reads_open hbrackets).trans (reads_brackets outer.length), ?_⟩
  simpa using hf

/-! ## Errors of the parser -/

/-- The place is that of a token, or the end, and the tokens before can be completed. -/
def Viable (leaves : Leaves) (stop : Nat) (ts : List Token) (p : Nat) : Prop :=
  ∃ read rest, ts = read ++ rest ∧ p = place stop rest ∧ Completable leaves (read.map Token.symbol)

/-- The place of what an operand is awaited after. -/
def Awaited.position? : Awaited → Option Nat
  | .afterBracket p | .afterOperator _ p => some p
  | .first | .operator => none

/-- Without an operand, the error stands at what comes next or at what the operand is awaited after. -/
theorem noOperand_position {stop : Nat} {awaited : Awaited} {ts : List Token} {e : Error} (hts : NoOperand ts)
    (h : (noOperand stop awaited ts).result = .error e) :
    e.position = place stop ts ∨ e.position ∈ awaited.position? := by
  unfold noOperand at h
  split at h
  · cases h
    exact Or.inr rfl
  · cases h
    exact Or.inr rfl
  · cases h
    exact Or.inl rfl
  · cases h
    exact Or.inl rfl
  · cases h
    exact Or.inl rfl
  · rename_i hand hor hright _
    cases h
    cases ts with
    | nil => exact Or.inl rfl
    | cons t ts =>
      obtain ⟨s, p⟩ := t
      have hs := hts _ rfl
      simp only [List.mem_cons, List.not_mem_nil, or_false] at hs
      rcases hs with rfl | rfl | rfl
      · exact absurd rfl (hand p ts)
      · exact absurd rfl (hor p ts)
      · exact absurd rfl (hright p ts)

/-- The place is that of a token that has been read, and the tokens before it can be completed. -/
def Passed (leaves : Leaves) (read : List Token) (p : Nat) : Prop :=
  ∃ before t after, read = before ++ t :: after ∧ p = t.position ∧ Completable leaves (before.map Token.symbol)

theorem Passed.concat {read : List Token} {p : Nat} (h : Passed leaves read p) (t : Token) :
    Passed leaves (read ++ [t]) p := by
  obtain ⟨before, t', after, rfl, hp, hc⟩ := h
  exact ⟨before, t', after ++ [t], by rw [List.append_assoc, List.cons_append], hp, hc⟩

theorem Passed.viable {read : List Token} {p : Nat} (h : Passed leaves read p) (stop : Nat) (ts : List Token) :
    Viable leaves stop (read ++ ts) p := by
  obtain ⟨before, t, after, rfl, rfl, hc⟩ := h
  exact ⟨before, t :: after ++ ts, by rw [List.append_assoc], rfl, hc⟩

theorem Begun.completable {w : List Symbol} {s : Reading} (h : Begun leaves w s) : Completable leaves w := by
  obtain ⟨ho, hg, -⟩ := h
  exact hg.completable ho

/-- What the parser has read begins a derivation, and up to every place that it holds it can be completed. -/
structure Reached (leaves : Leaves) (read : List Token) (s : Reading) : Prop where
  begun : Begun leaves (read.map Token.symbol) s
  awaited : ∀ p ∈ s.awaited.position?, Passed leaves read p
  outer : ∀ q ∈ s.outer, Passed leaves read q.1

namespace Reached

variable {read : List Token} {t : Token} {s s' : Reading}

theorem start : Reached leaves [] .start := ⟨.start, by rintro _ ⟨⟩, by rintro _ ⟨⟩⟩

theorem move (h : Reached leaves read s) (ht : Moves leaves t s s') : Reached leaves (read ++ [t]) s' := by
  have hnew : Passed leaves (read ++ [t]) t.position := ⟨read, t, [], rfl, rfl, h.begun.completable⟩
  have hold : ∀ q ∈ s.outer, Passed leaves (read ++ [t]) q.1 := fun q hq => (h.outer q hq).concat t
  have hbegun := h.begun.move ht
  rw [← List.map_singleton, ← List.map_append] at hbegun
  refine ⟨hbegun, fun p hp => ?_, ?_⟩
  · cases ht with
    | not | bracketLeft | and | or =>
      cases hp
      exact hnew
    | pair | bracketRight => cases hp
  · cases ht with
    | bracketLeft => exact List.forall_mem_cons.mpr ⟨hnew, hold⟩
    | bracketRight => exact (List.forall_mem_cons.mp hold).2
    | not | pair | and | or => exact hold

/-- Where the parser halts with an error, the tokens up to it can be completed. -/
theorem viable_of_error {stop : Nat} {ts : List Token} {o : Outcome} {e : Error} (h : Reached leaves read s)
    (hhalts : Halts leaves stop s ts o) (ho : o.result = .error e) : Viable leaves stop (read ++ ts) e.position := by
  have hhere : Viable leaves stop (read ++ ts) (place stop ts) := ⟨read, ts, rfl, rfl, h.begun.completable⟩
  cases hhalts with
  | done => cases ho
  | unclosed =>
    cases ho
    exact (h.outer _ List.mem_cons_self).viable stop _
  | unknown | word =>
    cases ho
    exact hhere
  | missing _ hts =>
    rcases noOperand_position hts ho with hp | hp
    · rw [hp]
      exact hhere
    · exact (h.awaited _ hp).viable stop ts

end Reached

theorem expression_error {stop : Nat} {ts : List Token} {e : Error} {p : Parser}
    (h : (Parser.mk leaves ts stop).expression = (.error e, p)) : Viable leaves stop ts e.position := by
  rcases halts_of_expression_error h with ⟨rfl, rfl⟩ | ⟨used, rest, s, o, rfl, hused, hhalts, ho⟩
  · exact ⟨[], [], rfl, rfl, Begun.start.completable⟩
  · have hreached : Reached leaves used s := hused.keeps (fun _ _ _ _ hs ht => Reached.move hs ht) .start
    exact hreached.viable_of_error hhalts ho

/-- What is left over is no part of the expression, which is complete. -/
theorem finish_error {stop : Nat} {ts : List Token} {f : Formula} {e : Error} {p : Parser}
    (h : (Parser.mk leaves ts stop).expression = (.ok f, p)) (hend : p.finish = .error e) :
    Viable leaves stop ts e.position := by
  obtain ⟨used, hts, hd⟩ := expression_derives h
  refine ⟨used, p.rest, hts, ?_, hd.completable⟩
  unfold Parser.finish at hend
  split at hend
  · cases hend
  · rename_i t rest hrest
    rw [hrest]
    split at hend <;> cases hend <;> rfl

theorem parse_error_viable {query : String} {ts : Tokens} {e : Error} (ht : tokenize query = .ok ts)
    (h : parse leaves query = .error e) : Viable leaves ts.stop ts.items e.position := by
  rcases parts_of_parse_error h with ht' | ⟨ts', p, ht', he⟩
  · rw [ht] at ht'
    cases ht'
  · obtain rfl : ts = ts' := Except.ok.inj (ht.symm.trans ht')
    rcases he with he | ⟨f, he, hend⟩
    · exact expression_error he
    · exact finish_error he hend

end Completable

/-! ## Queries -/

theorem tokenize_error_interrupted {query : String} {e : Error} (h : tokenize query = .error e) :
    Interrupted query.toList.length query.toList e := by
  cases hts : tokensFrom query.toList.length query.toList with
  | error e' =>
    rw [tokenize, hts] at h
    cases h
    exact interrupted_of_tokensFrom hts
  | ok ts =>
    rw [tokenize, hts] at h
    cases h

/-- Up to the place of an error in its tokens a query can go on to one that has tokens, and up to the place of an error
    of the parser, which is that of a token or of the end, to one that is parsed. -/
theorem errors_stand_where_queries_go_on (leaves : Leaves) (query : String) :
    (∀ e, tokenize query = .error e → e.position ≤ query.toList.length ∧
      ∃ more ts, tokenize (String.ofList (query.toList.take e.position ++ more)) = .ok ts) ∧
    ∀ ts e, tokenize query = .ok ts → parse leaves query = .error e →
      e.position ∈ ts.stop :: ts.items.map Token.position ∧
      ∃ more f, parse leaves (String.ofList (query.toList.take e.position ++ more)) = .ok f := by
  refine ⟨fun e h => ?_, fun ts e ht h => ?_⟩
  · obtain @⟨start, left, more, w, hcs, hp, -, hread⟩ := tokenize_error_interrupted h
    have hstart : e.position = start.length := by
      rw [hp, hcs, List.length_append]
      omega
    obtain ⟨ts, hts, -⟩ := tokenize_of_reads hread
    refine ⟨by rw [hstart, hcs, List.length_append]; omega, more, ts, ?_⟩
    rw [hstart, hcs, List.take_left]
    exact hts
  · obtain ⟨read, rest, hitems, hp, more, w, f, hended, hmore, hd⟩ := parse_error_viable ht h
    obtain ⟨htiled, hstop⟩ := tiled_of_tokenize ht
    rw [hitems] at htiled
    obtain ⟨start, left, hcs, hplace, hreads⟩ := htiled.cut
    have hstart : e.position = start.length := by
      rw [hp, hstop]
      simpa using hplace
    refine ⟨by rw [hp, hitems]; exact place_mem _ _ _, more, f, ?_⟩
    obtain ⟨ts', hts', hw⟩ := tokenize_of_reads ((hreads more hended).trans hmore)
    rw [hstart, hcs, List.take_left]
    exact Derives.parse hts' (hw ▸ hd)

/-- A word that no separator ends, and an operator without an operand after it, inside two brackets that are open. -/
theorem errors_stand_where_queries_go_on_nested :
    (tokenize "label:x AND(" = .error ⟨.badAfterWord '(', 11⟩ ∧
      ∃ more ts, tokenize (String.ofList ("label:x AND(".toList.take 11 ++ more)) = .ok ts) ∧
    parse .empty "is:open (label:x OR !(no:milestone AND" = .error ⟨.missingAfter .and, 35⟩ ∧
      ∃ more f, parse .empty
        (String.ofList ("is:open (label:x OR !(no:milestone AND".toList.take 35 ++ more)) = .ok f := by
  have hword : tokenize "label:x AND(" = .error ⟨.badAfterWord '(', 11⟩ := by decide +kernel
  have ht : tokenize "is:open (label:x OR !(no:milestone AND" =
      .ok ⟨[⟨.pair "is" "open", 0⟩, ⟨.bracketLeft, 8⟩, ⟨.pair "label" "x", 9⟩, ⟨.or, 17⟩, ⟨.not, 20⟩, ⟨.bracketLeft, 21⟩,
        ⟨.pair "no" "milestone", 22⟩, ⟨.and, 35⟩], 38⟩ := by decide +kernel
  have hoperand : parse .empty "is:open (label:x OR !(no:milestone AND" = .error ⟨.missingAfter .and, 35⟩ := by
    rw [parse_eq, ht]
    rfl
  exact ⟨⟨hword, ((errors_stand_where_queries_go_on .empty _).1 _ hword).2⟩, hoperand,
    ((errors_stand_where_queries_go_on .empty _).2 _ _ ht hoperand).2⟩

end Triage.Query
