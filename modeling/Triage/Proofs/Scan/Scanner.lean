/-
  Triage.Proofs.Scan.Scanner — byte offsets are converted as by counting from the start.

  Each step of the scanner ends as the reading of characters does that it stands for (`separated_scans` to
  `next_reads`): with the same symbol or the same error, at the number of characters before it, and with the pieces
  of what is left. So a call keeps the scanner sound, whatever was asked of it before.
-/

import Triage.Proofs.Scan.Scans

namespace Triage.Scan

open Query

variable {source : List Char}

/-! ## What is left -/

/-- The pieces of what is left of the query. -/
def left (source rest : List Char) : List Piece := piecesFrom (String.utf8Len source - String.utf8Len rest) rest

theorem left_eq {front rest : List Char} (h : source = front ++ rest) :
    left source rest = piecesFrom (String.utf8Len front) rest := by
  rw [left, h, String.utf8Len_append, Nat.add_sub_cancel]

theorem left_lexeme {front more rest : List Char} {c : Char} {l : Lexeme} (h : source = front ++ c :: more ++ rest)
    (hc : ¬ Token.isGap c = true) (hl : longest c (more ++ rest) = some (l, more)) :
    left source (c :: more ++ rest) =
      .lexeme l (String.utf8Len front) (String.utf8Len (front ++ c :: more)) :: left source rest := by
  have hfront : source = front ++ (c :: more ++ rest) := by rw [h, List.append_assoc]
  rw [left_eq hfront, left_eq h, List.cons_append, piecesFrom_lexeme hc hl, String.utf8Len_append]

/-- A symbol that was read, as a token that starts behind so many characters. -/
def placed (source : List Char) (position : Nat) (r : Except Error (Symbol × List Char)) :
    Except Error (Token × List Piece) :=
  r.map fun (symbol, rest) => (⟨symbol, position⟩, left source rest)

/-! ## Words -/

theorem separated_scans {front rest : List Char} (h : source = front ++ rest) {c : Cursor} (hc : Counted source c)
    (symbol : Symbol) :
    Scans source (expectSeparator source (String.utf8Len front) >>= fun _ => symbolAt source symbol c.byte)
      (left source rest) (placed source c.chars (Token.separated source.length symbol rest)) := by
  have hcut : Scans source (cutFrom source (String.utf8Len front)) (left source rest) (.ok (rest, left source rest)) :=
    cutFrom_scans h
  cases rest with
  | nil => exact Scans.bind (hcut.bind (Scans.pure ())) (symbolAt_scans hc symbol)
  | cons d rest =>
    rw [Token.separated]
    by_cases hd : d = ')' ∨ Text.isBlank d = true
    · rw [if_pos hd]
      have hends : Scans source (expectSeparator source (String.utf8Len front)) (left source (d :: rest))
          (.ok ((), left source (d :: rest))) := by
        refine hcut.bind ?_
        rw [List.head?_cons]
        dsimp only
        rw [if_pos hd]
        exact Scans.pure ()
      exact hends.bind (symbolAt_scans hc symbol)
    · rw [if_neg hd]
      refine Scans.bind_error (hcut.bind ?_)
      rw [List.head?_cons]
      dsimp only
      rw [if_neg hd]
      exact fail_scans h _

theorem find?_charIndices (p : Char → Bool) (cs : List Char) :
    ((charIndices cs).find? fun (_, c) => !p c) =
      (cs.dropWhile p).head?.map fun c => (String.utf8Len (cs.takeWhile p), c) := by
  induction cs with
  | nil => rfl
  | cons c cs ih =>
    rw [charIndices, List.find?_cons, List.dropWhile_cons, List.takeWhile_cons]
    cases hc : p c with
    | false => simp [hc]
    | true =>
      have hlater : (((charIndices cs).map fun (b, d) => (b + c.utf8Size, d)).find? fun (_, d) => !p d) =
          ((charIndices cs).find? fun (_, d) => !p d).map fun (b, d) => (b + c.utf8Size, d) := List.find?_map
      simp only [hc, Bool.not_true, if_true]
      rw [hlater, ih, Option.map_map]
      rfl

theorem bareWord_scans {front word rest : List Char} (h : source = front ++ word ++ rest) :
    Scans source (bareWord source word (String.utf8Len front) (String.utf8Len (front ++ word))) (left source rest)
      (placed source front.length (Token.bareWord source.length word rest)) := by
  have hword : source = front ++ (word ++ rest) := by rw [h, List.append_assoc]
  rw [bareWord, Token.bareWord]
  by_cases hhyphen : word.head? = some '-'
  · rw [if_pos hhyphen, if_pos hhyphen]
    exact fail_scans hword _
  · rw [if_neg hhyphen, if_neg hhyphen, find?_charIndices]
    cases hbad : word.dropWhile Token.isWordChar with
    | nil => exact separated_scans h (Counted.front hword) _
    | cons c more =>
      have hsplit : source = front ++ word.takeWhile Token.isWordChar ++ (c :: more ++ rest) := by
        rw [hword, ← hbad, List.append_assoc, ← List.append_assoc (word.takeWhile _), List.takeWhile_append_dropWhile]
      have hfail : Scans source
          (fail source (.badInWord c) (String.utf8Len (front ++ word.takeWhile Token.isWordChar)) : Step Token)
          (left source rest) (Token.fail source.length (.badInWord c) (c :: more ++ rest)) := fail_scans hsplit _
      rw [String.utf8Len_append] at hfail
      exact hfail

theorem not_isBareChar_after_bare {cs : List Char} :
    ∀ c ∈ (cs.dropWhile Value.isBareChar).head?, Value.isBareChar c = false := by
  intro c hc
  have hhead := List.head?_dropWhile_not Value.isBareChar cs
  rwa [hc] at hhead

theorem unescape_of_quotedBody {body v : List Char} (h : QuotedBody body v) : unescape body = v := by
  induction h with
  | nil => rfl
  | @plain c cs v _ hc _ ih =>
    rw [unescape, ih]
    · exact fun hb => absurd hb hc
    · exact fun _ _ hb => absurd hb hc
  | escaped _ _ ih => rw [unescape, ih]

/-- A colon starts at a byte offset only where the text has one. -/
theorem adjacentTo_ne_colon {start stop : Nat} {cs : List Char} (h : cs.head? ≠ some ':') :
    adjacentTo start (piecesFrom start cs) ≠ some (.colon, stop) := by
  intro hcolon
  obtain ⟨x, hx, rfl⟩ := exists_of_adjacentTo hcolon
  obtain ⟨rest, rfl⟩ := hx
  exact h rfl

/-- What starts neither with a bare character nor with a closed quote is no value. -/
theorem value_fails {front cs : List Char} (h : source = front ++ cs)
    (hbare : ∀ c ∈ cs.head?, Value.isBareChar c = false) (hquoted : ∀ t, cs = '"' :: t → Value.quoted t = none) :
    Scans source (value source (String.utf8Len front)) (left source cs)
      (Token.fail source.length (if cs.head? = some '"' then .unclosedQuote else .badAfterColon) cs) := by
  have hfails : Scans source
      (do if (← cutFrom source (String.utf8Len front)).head? = some '"' then
            fail source .unclosedQuote (String.utf8Len front)
          else fail source .badAfterColon (String.utf8Len front) : Step (List Char × Nat)) (left source cs)
      (Token.fail source.length (if cs.head? = some '"' then .unclosedQuote else .badAfterColon) cs) := by
    refine (cutFrom_scans h).bind ?_
    split
    · exact fail_scans h _
    · exact fail_scans h _
  refine (adjacent_scans _).bind ?_
  rw [left_eq h] at hfails ⊢
  match hadjacent : adjacentTo (String.utf8Len front) (piecesFrom (String.utf8Len front) cs) with
  | some (.text, stop) =>
    obtain ⟨x, ⟨rest, rfl⟩, hne, hx⟩ := exists_of_adjacentTo hadjacent
    obtain ⟨c, x, rfl⟩ := List.exists_cons_of_ne_nil hne
    have hc := hx c List.mem_cons_self
    rw [hbare c rfl] at hc
    cases hc
  | some (.quoted, stop) =>
    obtain ⟨x, ⟨rest, rfl⟩, body, v, rfl, hbody⟩ := exists_of_adjacentTo hadjacent
    have hq := hquoted (body ++ '"' :: rest) (by simp)
    rw [quoted_of_quotedBody hbody] at hq
    cases hq
  | none | some (.bracketLeft, _) | some (.bracketRight, _) | some (.not, _) | some (.and, _) | some (.or, _)
  | some (.colon, _) => exact hfails

theorem value_bare {front x rest : List Char} (h : source = front ++ x ++ rest) (hne : x ≠ [])
    (hx : ∀ c ∈ x, Value.isBareChar c = true) (hrest : ∀ c ∈ rest.head?, Value.isBareChar c = false) :
    Scans source (value source (String.utf8Len front)) (left source (x ++ rest))
      (.ok ((x, String.utf8Len (front ++ x)), left source rest)) := by
  obtain ⟨c, more, rfl⟩ := List.exists_cons_of_ne_nil hne
  obtain ⟨hc, hmore⟩ := List.forall_mem_cons.mp hx
  have hlongest : longest c (more ++ rest) = some (.text, more) := by
    rw [longest_bare hc, (takeWhile_bare hmore hrest).1]
  rw [left_lexeme h (not_isGap_of_isBareChar hc) hlongest]
  refine (adjacent_scans _).bind ?_
  rw [adjacentTo, if_pos rfl]
  refine skip_scans.bind (Scans.bind (cut_scans ?_) (Scans.pure _))
  rw [h]
  exact slice_append _ _ _

theorem value_quoted {front body v rest : List Char} (h : source = front ++ ('"' :: (body ++ ['"'])) ++ rest)
    (hbody : QuotedBody body v) :
    Scans source (value source (String.utf8Len front)) (left source ('"' :: (body ++ '"' :: rest)))
      (.ok ((v, String.utf8Len (front ++ '"' :: (body ++ ['"']))), left source rest)) := by
  have hleft := left_lexeme h (by decide) (longest_quoted hbody rest)
  rw [List.cons_append, ← List.append_cons body] at hleft
  rw [hleft]
  refine (adjacent_scans _).bind ?_
  rw [adjacentTo, if_pos rfl]
  have hinner : Text.slice (String.utf8Len front + 1) (String.utf8Len (front ++ '"' :: (body ++ ['"'])) - 1) source =
      some body := by
    refine Text.slice_eq_some_iff.mpr ⟨front ++ ['"'], '"' :: rest, ?_, ?_, ?_⟩
    · rw [h]
      simp
    · rw [String.utf8Len_append]
      rfl
    · simp only [String.utf8Len_append, String.utf8Len_cons, String.utf8Len_nil]
      have hquote : '"'.utf8Size = 1 := rfl
      omega
  refine skip_scans.bind (Scans.bind (cut_scans hinner) ?_)
  rw [unescape_of_quotedBody hbody]
  exact Scans.pure _

/-- After the colon of a key: its value and what may follow it. -/
theorem keyed_scans {front cs : List Char} (h : source = front ++ cs) {c : Cursor} (hc : Counted source c)
    (key : List Char) :
    Scans source
      (do let (v, stop) ← value source (String.utf8Len front)
          expectSeparator source stop
          symbolAt source (.pair (String.ofList key) (String.ofList v)) c.byte)
      (left source cs) (placed source c.chars (Token.keyed source.length key cs)) := by
  cases cs with
  | nil =>
    have hfails := value_fails h (fun _ hd => by cases hd) (fun _ ht => by cases ht)
    exact Scans.bind_error hfails
  | cons d ds =>
    rw [Token.keyed]
    by_cases hquote : d = '"'
    · subst hquote
      rw [if_pos rfl]
      cases hq : Value.quoted ds with
      | none =>
        have hunclosed : ∀ t, '"' :: ds = '"' :: t → Value.quoted t = none := by
          intro t ht
          cases ht
          exact hq
        have hfails := value_fails h (fun _ hd => by cases hd; rfl) hunclosed
        exact Scans.bind_error hfails
      | some p =>
        obtain ⟨v, rest⟩ := p
        obtain ⟨body, rfl, hbody⟩ := quotedBody_of_quoted hq
        have hsource : source = front ++ '"' :: (body ++ ['"']) ++ rest := by rw [h]; simp
        exact (value_quoted hsource hbody).bind (separated_scans hsource hc _)
    · rw [if_neg hquote]
      have hsplit : (d :: ds).takeWhile Value.isBareChar ++ (d :: ds).dropWhile Value.isBareChar = d :: ds :=
        List.takeWhile_append_dropWhile
      cases hbare : Value.isBareChar d with
      | true =>
        have hsource : source =
            front ++ (d :: ds).takeWhile Value.isBareChar ++ (d :: ds).dropWhile Value.isBareChar := by
          rw [h, List.append_assoc, hsplit]
        have hne : (d :: ds).takeWhile Value.isBareChar ≠ [] := by
          rw [List.takeWhile_cons, if_pos hbare]
          exact List.cons_ne_nil _ _
        have hvalue := value_bare hsource hne (fun e he => List.mem_takeWhile_imp he) not_isBareChar_after_bare
        rw [hsplit] at hvalue
        exact hvalue.bind (separated_scans hsource hc _)
      | false =>
        have hquoteless : ∀ t, d :: ds = '"' :: t → Value.quoted t = none := by
          intro t ht
          cases ht
          exact absurd rfl hquote
        have hfails := value_fails h (fun e he => by cases he; exact hbare) hquoteless
        rw [List.head?_cons, if_neg fun hd => hquote (Option.some.inj hd)] at hfails
        exact Scans.bind_error hfails

theorem key_scans {front text more : List Char} (h : source = front ++ text ++ ':' :: more) :
    Scans source (keyOrWord source text (String.utf8Len front) (String.utf8Len (front ++ text)))
      (left source (':' :: more)) (placed source front.length (Token.keyed source.length text more)) := by
  have hstart : Counted source ⟨String.utf8Len front, front.length⟩ :=
    ⟨front, text ++ ':' :: more, by rw [h, List.append_assoc], rfl, rfl⟩
  have hcolon : source = front ++ text ++ [':'] ++ more := by rw [h, List.append_assoc _ [':'], List.singleton_append]
  have hleft : left source ([':'] ++ more) = .lexeme .colon (String.utf8Len (front ++ text))
      (String.utf8Len (front ++ text ++ [':'])) :: left source more := left_lexeme hcolon (by decide) rfl
  rw [List.singleton_append] at hleft
  have hkeyed := keyed_scans hcolon hstart text
  refine (adjacent_scans _).bind ?_
  rw [hleft, adjacentTo, if_pos rfl]
  exact skip_scans.bind hkeyed

theorem keyless_scans {front text rest : List Char} (h : source = front ++ text ++ rest)
    (hrest : rest.head? ≠ some ':') :
    Scans source (keyOrWord source text (String.utf8Len front) (String.utf8Len (front ++ text))) (left source rest)
      (placed source front.length (Token.bareWord source.length text rest)) := by
  have hword := bareWord_scans h
  refine (adjacent_scans _).bind ?_
  rw [left_eq h] at hword ⊢
  match hadjacent : adjacentTo (String.utf8Len (front ++ text)) (piecesFrom (String.utf8Len (front ++ text)) rest) with
  | some (.colon, stop) => exact absurd hadjacent (adjacentTo_ne_colon hrest)
  | none | some (.bracketLeft, _) | some (.bracketRight, _) | some (.not, _) | some (.and, _) | some (.or, _)
  | some (.text, _) | some (.quoted, _) => exact hword

theorem wordOrPair_keyless {c : Char} {text rest : List Char} (hc : Token.isWordChar c = true)
    (htext : ∀ d ∈ text, Value.isBareChar d = true) (hrest : ∀ d ∈ rest.head?, Value.isBareChar d = false)
    (hcolon : rest.head? ≠ some ':') (total : Nat) :
    Token.wordOrPair total c (text ++ rest) = Token.bareWord total (c :: text) rest := by
  obtain ⟨htake, hdrop⟩ := takeWhile_bare (List.forall_mem_cons.mpr ⟨isBareChar_of_isWordChar hc, htext⟩) hrest
  rw [List.cons_append] at htake hdrop
  rw [Token.wordOrPair, if_pos hc, htake, hdrop]
  dsimp only
  split
  · exact absurd rfl hcolon
  · rfl

theorem wordOrPair_key {c : Char} {text more : List Char} (hc : Token.isWordChar c = true)
    (htext : ∀ d ∈ text, Value.isBareChar d = true) (total : Nat) :
    Token.wordOrPair total c (text ++ ':' :: more) = Token.keyed total (c :: text) more := by
  have hrest : ∀ d ∈ (':' :: more).head?, Value.isBareChar d = false := fun d hd => by
    cases hd
    rfl
  obtain ⟨htake, hdrop⟩ := takeWhile_bare (List.forall_mem_cons.mpr ⟨isBareChar_of_isWordChar hc, htext⟩) hrest
  rw [List.cons_append] at htake hdrop
  rw [Token.wordOrPair, if_pos hc, htake, hdrop]
  rfl

theorem word_scans {front text rest : List Char} {c : Char} (h : source = front ++ c :: text ++ rest)
    (htext : ∀ d ∈ text, Value.isBareChar d = true) (hrest : ∀ d ∈ rest.head?, Value.isBareChar d = false) :
    Scans source (word source (String.utf8Len front) (String.utf8Len (front ++ c :: text))) (left source rest)
      (placed source front.length (Token.wordOrPair source.length c (text ++ rest))) := by
  have hcut : Text.slice (String.utf8Len front) (String.utf8Len (front ++ c :: text)) source = some (c :: text) := by
    rw [h]
    exact slice_append _ _ _
  refine (cut_scans hcut).bind ?_
  rw [List.head?_cons, Option.filter_some]
  cases hword : Token.isWordChar c with
  | true =>
    by_cases hcolon : rest.head? = some ':'
    · obtain ⟨more, rfl⟩ := List.head?_eq_some_iff.mp hcolon
      rw [wordOrPair_key hword htext]
      exact key_scans h
    · rw [wordOrPair_keyless hword htext hrest hcolon]
      exact keyless_scans h hcolon
  | false =>
    have hfront : source = front ++ (c :: (text ++ rest)) := by rw [h, List.append_assoc, List.cons_append]
    have hstart : Token.wordOrPair source.length c (text ++ rest) =
        Token.fail source.length (.badStart c) (c :: (text ++ rest)) := by
      rw [Token.wordOrPair, hword]
      rfl
    rw [hstart]
    exact fail_scans hfront _

/-! ## Tokens -/

/-- The next piece, where `cs` is left of the query, is read with this result. -/
def Reads (source front cs : List Char) (r : Except Error (Symbol × List Char)) : Prop :=
  ∃ piece ahead, left source cs = piece :: ahead ∧
    Scans source (token source piece) ahead (placed source front.length r)

theorem Reads.lexeme {front more rest : List Char} {c : Char} {l : Lexeme} {r : Except Error (Symbol × List Char)}
    (h : source = front ++ c :: more ++ rest) (hc : ¬ Token.isGap c = true)
    (hl : longest c (more ++ rest) = some (l, more))
    (hscans : Scans source (token source (.lexeme l (String.utf8Len front) (String.utf8Len (front ++ c :: more))))
      (left source rest) (placed source front.length r)) : Reads source front (c :: more ++ rest) r :=
  ⟨_, _, left_lexeme h hc hl, hscans⟩

theorem Reads.unmatched {front cs : List Char} {c : Char} {r : Except Error (Symbol × List Char)}
    (h : source = front ++ c :: cs) (hc : ¬ Token.isGap c = true) (hl : longest c cs = none)
    (hscans : Scans source (unexpected source (String.utf8Len front)) [] (placed source front.length r)) :
    Reads source front (c :: cs) r := by
  refine ⟨.unmatched (String.utf8Len front), [], ?_, hscans⟩
  rw [left_eq h, piecesFrom_unmatched hc hl]

theorem symbol_scans {front more rest : List Char} (h : source = front ++ more ++ rest) (symbol : Symbol) :
    Scans source (symbolAt source symbol (String.utf8Len front)) (left source rest)
      (placed source front.length (.ok (symbol, rest))) := by
  have hfront : source = front ++ (more ++ rest) := by rw [h, List.append_assoc]
  exact symbolAt_scans (Counted.front hfront) symbol

theorem doubled_reads {front cs : List Char} {c : Char} {l : Lexeme} {symbol : Symbol} (h : source = front ++ c :: cs)
    (hc : c = '&' ∨ c = '|') (hl : longest c cs = doubled c l cs)
    (htoken : ∀ start stop, token source (.lexeme l start stop) = symbolAt source symbol start) :
    Reads source front (c :: cs) (Token.doubled source.length c symbol cs) := by
  have hgap : ¬ Token.isGap c = true := by
    rcases hc with rfl | rfl
    · decide
    · decide
  by_cases hhead : cs.head? = some c
  · obtain ⟨rest, rfl⟩ := List.head?_eq_some_iff.mp hhead
    have htwice : source = front ++ [c, c] ++ rest := by rw [h]; simp
    rw [Token.doubled, if_pos rfl]
    refine Reads.lexeme htwice hgap (by rw [doubled, if_pos hhead] at hl; exact hl) ?_
    rw [htoken]
    exact symbol_scans htwice symbol
  · have hfail : Token.doubled source.length c symbol cs = Token.fail source.length (.halfOperator c) cs := by
      cases cs with
      | nil => rfl
      | cons d rest => rw [Token.doubled, if_neg (fun hd => hhead (by rw [hd]; rfl))]
    have hone : String.utf8Len (front ++ [c]) = String.utf8Len front + 1 := by
      rw [String.utf8Len_append]
      rcases hc with rfl | rfl
      · rfl
      · rfl
    have hnext : source = front ++ [c] ++ cs := by rw [h, List.append_assoc, List.singleton_append]
    refine Reads.unmatched h hgap (by rw [hl, doubled, if_neg hhead]) ((cutFrom_scans h).bind ?_)
    rw [List.head?_cons]
    dsimp only
    rw [if_pos hc, hfail, ← hone]
    exact fail_scans hnext _

/-- A quote where no key stands before it. -/
theorem quoted_reads {front cs : List Char} (h : source = front ++ '"' :: cs) :
    Reads source front ('"' :: cs) (Token.fail source.length
      (if (Value.quoted cs).isSome then .noKeyBeforeQuoted else .unclosedQuote) ('"' :: cs)) := by
  cases hq : Value.quoted cs with
  | none =>
    refine Reads.unmatched h (by decide) (longest_unclosed hq) ((cutFrom_scans h).bind ?_)
    exact fail_scans h _
  | some p =>
    obtain ⟨v, rest⟩ := p
    obtain ⟨body, rfl, hbody⟩ := quotedBody_of_quoted hq
    have hclosed : source = front ++ '"' :: (body ++ ['"']) ++ rest := by rw [h]; simp
    rw [List.append_cons body, ← List.cons_append]
    refine Reads.lexeme hclosed (by decide) (longest_quoted hbody rest) (fail_scans ?_ _)
    rw [hclosed, List.append_assoc]

theorem bare_reads {front cs : List Char} {c : Char} (h : source = front ++ c :: cs)
    (hc : Value.isBareChar c = true) :
    Reads source front (c :: cs) (Token.wordOrPair source.length c cs) := by
  have hword : source = front ++ c :: cs.takeWhile Value.isBareChar ++ cs.dropWhile Value.isBareChar := by
    rw [h, List.append_assoc, List.cons_append, List.takeWhile_append_dropWhile]
  have hscans := word_scans hword (fun d hd => List.mem_takeWhile_imp hd) not_isBareChar_after_bare
  have hlongest : longest c (cs.takeWhile Value.isBareChar ++ cs.dropWhile Value.isBareChar) =
      some (.text, cs.takeWhile Value.isBareChar) := by
    rw [List.takeWhile_append_dropWhile]
    exact longest_bare hc cs
  have hreads := Reads.lexeme hword (not_isGap_of_isBareChar hc) hlongest hscans
  rwa [List.cons_append, List.takeWhile_append_dropWhile] at hreads

/-- Each token is read as it is read from the characters. -/
theorem next_reads {front cs : List Char} {c : Char} (h : source = front ++ c :: cs) (hc : ¬ Token.isGap c = true) :
    Reads source front (c :: cs) (Token.next source.length c cs) := by
  have hone : source = front ++ [c] ++ cs := by rw [h, List.append_assoc, List.singleton_append]
  rw [Token.next]
  split
  · rename_i hleft
    subst hleft
    exact Reads.lexeme hone hc rfl (symbol_scans hone _)
  split
  · rename_i hright
    subst hright
    exact Reads.lexeme hone hc rfl (symbol_scans hone _)
  split
  · rename_i hnot
    subst hnot
    exact Reads.lexeme hone hc rfl (symbol_scans hone _)
  split
  · rename_i hand
    subst hand
    exact doubled_reads h (.inl rfl) rfl fun _ _ => rfl
  split
  · rename_i hor
    subst hor
    exact doubled_reads h (.inr rfl) rfl fun _ _ => rfl
  split
  · rename_i hcolon
    subst hcolon
    exact Reads.lexeme hone hc rfl (fail_scans h _)
  split
  · rename_i hquote
    subst hquote
    exact quoted_reads h
  split
  · exact bare_reads h ‹_›
  · rename_i hleft hright hnot hand hor hcolon hquote hbare
    have hnone : longest c cs = none := by
      rw [longest, if_neg hleft, if_neg hright, if_neg hnot, if_neg hand, if_neg hor, if_neg hcolon, if_neg hquote,
        if_neg hbare]
    refine Reads.unmatched h hc hnone ((cutFrom_scans h).bind ?_)
    rw [List.head?_cons]
    dsimp only
    rw [if_neg (not_or.mpr ⟨hand, hor⟩), if_neg hquote]
    exact fail_scans h _

end Triage.Scan
