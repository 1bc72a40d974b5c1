/-
  Triage.Proofs.Scan.Calls — what a scanner answers.

  As long as a scanner is part of the way, its answers are the tokens of what it has read and the tokens of what is
  left go on from there (`Partway`). A call reads one more of them, or brings the end or an error, and after that there
  is nothing. So no call ends with a fault, and the answers of enough calls tell of a query what reading it as
  characters tells (`Answered.told`). Whatever was converted in such a run is as counted from the start.
-/

import Triage.Proofs.Scan.Scanner

namespace Triage.Scan

open Query

variable {source : List Char}

/-! ## Answers -/

/-- What complete answers tell of a query. After its end, or an error, there is nothing. -/
def told : List Answer → Option (Except Error Tokens)
  | [] => none
  | .token t :: answers => (told answers).map fun r => r.map fun ts => ⟨t :: ts.items, ts.stop⟩
  | .stop position :: answers => if ∀ a ∈ answers, a = .nothing then some (.ok ⟨[], position⟩) else none
  | .error e :: answers => if ∀ a ∈ answers, a = .nothing then some (.error e) else none
  | .nothing :: _ => none

theorem told_stop (ts : List Token) (position : Nat) :
    told (ts.map .token ++ [.stop position]) = some (.ok ⟨ts, position⟩) := by
  induction ts with
  | nil => rfl
  | cons t ts ih =>
    rw [List.map_cons, List.cons_append, told, ih]
    rfl

theorem told_error (ts : List Token) (e : Error) : told (ts.map .token ++ [.error e]) = some (.error e) := by
  induction ts with
  | nil => rfl
  | cons t ts ih =>
    rw [List.map_cons, List.cons_append, told, ih]
    rfl

theorem told_nothing {answers : List Answer} {r : Except Error Tokens} (h : told answers = some r) :
    told (answers ++ [.nothing]) = some r := by
  have hlater {later : List Answer} (hall : ∀ a ∈ later, a = .nothing) : ∀ a ∈ later ++ [.nothing], a = .nothing :=
    List.forall_mem_append.mpr ⟨hall, fun _ ha => List.mem_singleton.mp ha⟩
  induction answers generalizing r with
  | nil => cases h
  | cons a answers ih =>
    cases a with
    | token t =>
      obtain ⟨r', hr', rfl⟩ := Option.map_eq_some_iff.mp h
      rw [List.cons_append, told, ih hr']
      rfl
    | stop position =>
      rw [told] at h
      split at h
      · rename_i hall
        rw [List.cons_append, told, if_pos (hlater hall)]
        exact h
      · cases h
    | error e =>
      rw [told] at h
      split at h
      · rename_i hall
        rw [List.cons_append, told, if_pos (hlater hall)]
        exact h
      · cases h
    | nothing => cases h

/-! ## One call -/

section

variable {s t : Scanner}

theorem next_stop {position : Nat} (hfin : s.finished = false) (hahead : s.ahead = [])
    (h : charOffset source (String.utf8Len source) { s with finished := true } = some (.ok position, t)) :
    s.next source = some (.stop position, t) := by
  obtain ⟨ahead, cursor, finished, cuts, conversions⟩ := s
  obtain rfl : finished = false := hfin
  obtain rfl : ahead = [] := hahead
  show (charOffset source (String.utf8Len source) _).map _ = _
  rw [h]
  rfl

theorem next_piece {piece : Piece} {ahead : List Piece} (hfin : s.finished = false)
    (hahead : s.ahead = piece :: ahead) :
    s.next source = (token source piece { s with ahead := ahead }).map fun
      | (.ok found, t) => (.token found, t)
      | (.error e, t) => (.error e, { t with finished := true }) := by
  obtain ⟨ahead', cursor, finished, cuts, conversions⟩ := s
  obtain rfl : finished = false := hfin
  obtain rfl : ahead' = piece :: ahead := hahead
  rfl

theorem next_finished (hfin : s.finished = true) : s.next source = some (.nothing, s) := by
  rw [Scanner.next, if_pos hfin]

end

/-! ## Part of the way -/

/-- The scanner has read these tokens, and `rest` is left of the query. -/
structure Partway (source : List Char) (ts : List Token) (rest : List Char) (s : Scanner) : Prop where
  going : s.finished = false
  ahead : s.ahead = left source rest
  tokens : tokensFrom source.length source = (tokensFrom source.length rest).map (ts ++ ·)
  before : ∃ front, source = front ++ rest ∧ ts.length ≤ front.length

theorem partway_start : Partway source [] source (.start source) := by
  refine ⟨rfl, ?_, ?_, [], rfl, Nat.le_refl 0⟩
  · rw [left, Nat.sub_self]
    rfl
  · cases tokensFrom source.length source with
    | error e => rfl
    | ok ts => rfl

theorem left_gap {front gap rest : List Char} (h : source = front ++ gap ++ rest)
    (hgap : ∀ c ∈ gap, Token.isGap c = true) : left source (gap ++ rest) = left source rest := by
  rw [left_eq (show source = front ++ (gap ++ rest) by rw [h, List.append_assoc]), left_eq h]
  clear h
  induction gap generalizing front with
  | nil => rw [List.append_nil, List.nil_append]
  | cons c gap ih =>
    obtain ⟨hc, hgap⟩ := List.forall_mem_cons.mp hgap
    have hone : String.utf8Len (front ++ [c]) = String.utf8Len front + c.utf8Size := by
      rw [String.utf8Len_append, String.utf8Len_cons, String.utf8Len_nil, Nat.zero_add]
    rw [List.cons_append, piecesFrom_gap hc, ← hone, ih hgap, ← List.append_cons]

namespace Partway

variable {ts : List Token} {s : Scanner}

theorem gap {gap rest : List Char} (h : Partway source ts (gap ++ rest) s) (hgap : ∀ c ∈ gap, Token.isGap c = true) :
    Partway source ts rest s := by
  obtain ⟨front, hsource, hlength⟩ := h.before
  rw [← List.append_assoc] at hsource
  refine ⟨h.going, ?_, ?_, _, hsource, ?_⟩
  · rw [h.ahead, left_gap hsource hgap]
  · rw [h.tokens, tokensFrom_gap hgap]
  · rw [List.length_append]
    omega

/-- At the end there is no piece, and the position is that of the end. -/
theorem stop (h : Partway source ts [] s) (hs : Sound source s) :
    ∃ t, s.next source = some (.stop source.length, t) ∧ Sound source t ∧ t.finished = true ∧
      tokensFrom source.length source = .ok ts := by
  have hahead : s.ahead = [] := by rw [h.ahead, left, piecesFrom]
  have hstop : Counted source ⟨String.utf8Len source, source.length⟩ := ⟨source, [], (List.append_nil _).symm, rfl, rfl⟩
  obtain ⟨t, hrun, ht, hfin, -⟩ :=
    charOffset_scans hstop { s with finished := true } ⟨hs.cursor, hs.conversions, hs.cuts⟩ rfl
  refine ⟨t, next_stop h.going hahead hrun, ht, hfin, ?_⟩
  rw [h.tokens, tokensFrom]
  exact congrArg Except.ok (List.append_nil ts)

theorem error {c : Char} {cs : List Char} {e : Error} (h : Partway source ts (c :: cs) s) (hs : Sound source s)
    (hc : ¬ Token.isGap c = true) (he : Token.next source.length c cs = .error e) :
    ∃ t, s.next source = some (.error e, t) ∧ Sound source t ∧ t.finished = true ∧
      tokensFrom source.length source = .error e := by
  obtain ⟨front, hsource, -⟩ := h.before
  obtain ⟨piece, ahead, hleft, hscans⟩ := next_reads hsource hc
  rw [he] at hscans
  obtain ⟨t, hrun, ht, -, -⟩ := hscans { s with ahead := ahead } ⟨hs.cursor, hs.conversions, hs.cuts⟩ rfl
  refine ⟨{ t with finished := true }, ?_, ⟨ht.cursor, ht.conversions, ht.cuts⟩, rfl, ?_⟩
  · rw [next_piece h.going (h.ahead.trans hleft), hrun]
    rfl
  · rw [h.tokens, tokensFrom_error hc he]
    rfl

/-- One more token is read. -/
theorem token {c : Char} {cs rest : List Char} {symbol : Symbol} (h : Partway source ts (c :: cs) s)
    (hs : Sound source s) (hc : ¬ Token.isGap c = true) (hnext : Token.next source.length c cs = .ok (symbol, rest)) :
    ∃ found t, s.next source = some (.token found, t) ∧ Sound source t ∧ Partway source (ts ++ [found]) rest t := by
  obtain ⟨front, hsource, hlength⟩ := h.before
  obtain ⟨piece, ahead, hleft, hscans⟩ := next_reads hsource hc
  rw [hnext] at hscans
  obtain ⟨t, hrun, ht, hfin, hahead⟩ := hscans { s with ahead := ahead } ⟨hs.cursor, hs.conversions, hs.cuts⟩ rfl
  have hposition : source.length - (c :: cs).length = front.length := by
    rw [hsource, List.length_append, Nat.add_sub_cancel]
  refine ⟨⟨symbol, front.length⟩, t, ?_, ht, hfin.trans h.going, hahead _ rfl, ?_, ?_⟩
  · rw [next_piece h.going (h.ahead.trans hleft), hrun]
    rfl
  · rw [h.tokens, tokensFrom_next hc hnext, hposition]
    cases tokensFrom source.length rest with
    | error e => rfl
    | ok more => exact congrArg Except.ok (List.append_cons ts _ more)
  · -- At least one character is read with the token.
    obtain ⟨x, hx, -⟩ := spelled_of_next hnext
    refine ⟨front ++ x, by rw [hsource, hx, List.append_assoc], ?_⟩
    have hmore := Token.next_length hnext
    have hall := congrArg List.length hx
    simp only [List.length_append, List.length_cons, List.length_nil] at hall ⊢
    omega

end Partway

/-! ## Runs -/

/-- The answers so far: tokens only, or what reading the query as characters tells. -/
inductive Answered (source : List Char) : List Answer → Scanner → Prop where
  | going {ts : List Token} {rest : List Char} {s : Scanner} (h : Partway source ts rest s) :
      Answered source (ts.map .token) s
  | ended {answers : List Answer} {s : Scanner} (hfin : s.finished = true)
      (h : told answers = some ((tokensFrom source.length source).map (⟨·, source.length⟩))) :
      Answered source answers s

/-- A call ends without a fault. -/
theorem Answered.next {answers : List Answer} {s : Scanner} (h : Answered source answers s) (hs : Sound source s) :
    ∃ answer t, s.next source = some (answer, t) ∧ Sound source t ∧ Answered source (answers ++ [answer]) t := by
  cases h with
  | ended hfin h => exact ⟨.nothing, s, next_finished hfin, hs, .ended hfin (told_nothing h)⟩
  | @going ts rest _ h =>
    rw [← List.takeWhile_append_dropWhile (p := Token.isGap) (l := rest)] at h
    have hgap := h.gap fun c hc => List.mem_takeWhile_imp hc
    cases hrest : rest.dropWhile Token.isGap with
    | nil =>
      rw [hrest] at hgap
      obtain ⟨t, hnext, ht, hfin, htokens⟩ := hgap.stop hs
      refine ⟨_, t, hnext, ht, .ended hfin ?_⟩
      rw [told_stop, htokens]
      rfl
    | cons c cs =>
      have hc : ¬ Token.isGap c = true := by
        have hhead := List.head?_dropWhile_not Token.isGap rest
        rw [hrest] at hhead
        simpa using hhead
      rw [hrest] at hgap
      cases hsymbol : Token.next source.length c cs with
      | error e =>
        obtain ⟨t, hnext, ht, hfin, htokens⟩ := hgap.error hs hc hsymbol
        refine ⟨_, t, hnext, ht, .ended hfin ?_⟩
        rw [told_error, htokens]
        rfl
      | ok p =>
        obtain ⟨found, t, hnext, ht, hpart⟩ := hgap.token hs hc hsymbol
        refine ⟨_, t, hnext, ht, ?_⟩
        have hgoing := Answered.going hpart
        rwa [List.map_append] at hgoing

theorem answered_calls (source : List Char) (n : Nat) :
    ∃ answers s, Scanner.calls source n = some (answers, s) ∧ answers.length = n ∧ Sound source s ∧
      Answered source answers s := by
  induction n with
  | zero => exact ⟨[], .start source, rfl, rfl, sound_start, .going partway_start⟩
  | succ n ih =>
    obtain ⟨answers, s, hcalls, hlength, hs, h⟩ := ih
    obtain ⟨answer, t, hnext, ht, h'⟩ := h.next hs
    refine ⟨answers ++ [answer], t, ?_, by rw [List.length_append, hlength]; rfl, ht, h'⟩
    rw [Scanner.calls, hcalls]
    show (s.next source).bind _ = _
    rw [hnext]
    rfl

/-- Each token takes a character at least, so there are not more of them. -/
theorem Answered.told {answers : List Answer} {s : Scanner} (h : Answered source answers s)
    (hlength : source.length < answers.length) :
    Scan.told answers = some ((tokensFrom source.length source).map (⟨·, source.length⟩)) := by
  cases h with
  | ended _ h => exact h
  | going h =>
    obtain ⟨front, hsource, hle⟩ := h.before
    have hfront := congrArg List.length hsource
    rw [List.length_append] at hfront
    rw [List.length_map] at hlength
    omega

theorem isValid_of_counted {query : String} {c : Cursor} (h : Counted query.toList c) :
    (String.Pos.Raw.mk c.byte).IsValid query := by
  obtain ⟨front, back, hquery, hbyte, -⟩ := h
  exact Text.exists_takeBytes_iff.mp ⟨front, Text.takeBytes_eq_some_iff.mpr ⟨⟨back, hquery.symm⟩, hbyte⟩⟩

/-- No call is ever a fault. A byte offset that is converted lies between characters and the answer is their number
before it, counted from the start; a cut goes from one place between characters to a later one. From wherever a scanner
has come to, any offsets in any order are converted as by counting each from the start. The answers of enough calls tell
the tokens of the query, or its first error. -/
theorem offsets_count_from_start (query : String) (n : Nat) (offsets : List Nat) :
    ∃ answers s, Scanner.calls query.toList n = some (answers, s) ∧
      (∀ c ∈ s.conversions, (String.Pos.Raw.mk c.byte).IsValid query ∧
        countBefore query.toList c.byte = some c.chars) ∧
      (∀ p ∈ s.cuts, p.1 ≤ p.2 ∧ (String.Pos.Raw.mk p.1).IsValid query ∧ (String.Pos.Raw.mk p.2).IsValid query) ∧
      ((offsets.mapM (charOffset query.toList)) s).map Prod.fst =
        (offsets.mapM (countBefore query.toList)).map Except.ok ∧
      (query.length < n → told answers = some (tokenize query)) := by
  obtain ⟨answers, s, hcalls, hlength, hs, h⟩ := answered_calls query.toList n
  refine ⟨answers, s, hcalls, fun c hc => ?_, fun p hp => ?_, charOffsets_eq offsets hs, fun hn => ?_⟩
  · have hcounted := hs.conversions c hc
    exact ⟨isValid_of_counted hcounted, countBefore_eq_some_iff.mpr hcounted⟩
  · obtain ⟨x, hx⟩ := hs.cuts p hp
    exact Text.isValid_of_slice hx
  · rw [← String.length_toList, ← hlength] at hn
    exact h.told hn

/-- Twenty calls on a query with accents, and then some offsets asked backwards and forwards. -/
theorem offsets_count_from_start_accented :
    ∃ answers s, Scanner.calls "label:\"été\" is:open".toList 20 = some (answers, s) ∧
      (([14, 9, 10, 0].mapM (charOffset "label:\"été\" is:open".toList)) s).map Prod.fst = some (.ok [12, 8, 9, 0]) ∧
      told answers = some (.ok ⟨[⟨.pair "label" "été", 0⟩, ⟨.pair "is" "open", 12⟩], 19⟩) := by
  have htokens : tokenize "label:\"été\" is:open" = .ok ⟨[⟨.pair "label" "été", 0⟩, ⟨.pair "is" "open", 12⟩], 19⟩ := by
    decide +kernel
  have hcount : [14, 9, 10, 0].mapM (countBefore "label:\"été\" is:open".toList) = some [12, 8, 9, 0] := by
    decide +kernel
  obtain ⟨answers, s, hcalls, -, -, hoffsets, htold⟩ :=
    offsets_count_from_start "label:\"été\" is:open" 20 [14, 9, 10, 0]
  rw [hcount] at hoffsets
  rw [htokens] at htold
  exact ⟨answers, s, hcalls, hoffsets, htold (by decide)⟩

end Triage.Scan
