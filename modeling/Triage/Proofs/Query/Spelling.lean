/-
  Triage.Proofs.Query.Spelling — how symbols are spelled, and that the tokens of a query tile it.

  `Spelled rest x s` says that the text `x` spells the symbol `s` where `rest` follows, and `Tiled` cuts a query into
  spellings with gaps around them. What a spelling starts with and what follows it settle where to cut, so a symbol is
  read exactly where it is spelled (`next_of_spelled`, `spelled_of_next`): a run of bare characters that is cut short
  is followed by a bare character, which ends nothing (`Ended`), and a quoted value ends at its first quote that no
  backslash takes.
-/

import Triage.Query.Token
import Mathlib.Data.List.TakeWhile

namespace Triage.Query

/-! ## Spellings -/

/-- What may follow a word or a value. -/
def Ended (cs : List Char) : Prop := ∀ c ∈ cs.head?, c = ')' ∨ Text.isBlank c = true

/-- The text between quotes and the value it stands for: a backslash takes the next character for itself. -/
inductive QuotedBody : List Char → List Char → Prop
  | nil : QuotedBody [] []
  | plain {c : Char} {cs v : List Char} : c ≠ '"' → c ≠ '\\' → QuotedBody cs v → QuotedBody (c :: cs) (c :: v)
  | escaped {c : Char} {cs v : List Char} : c ≠ '\n' → QuotedBody cs v → QuotedBody ('\\' :: c :: cs) (c :: v)

/-- What stands after a colon and the value it spells. -/
inductive SpelledValue : List Char → List Char → Prop
  | bare {v : List Char} : v ≠ [] → (∀ c ∈ v, Value.isBareChar c = true) → SpelledValue v v
  | quoted {cs v : List Char} : QuotedBody cs v → SpelledValue ('"' :: (cs ++ ['"'])) v

/-- What stands before a colon. -/
inductive SpelledKey : List Char → Prop
  | intro {c : Char} {cs : List Char} : Token.isWordChar c = true → (∀ d ∈ cs, Value.isBareChar d = true) →
      SpelledKey (c :: cs)

/-- A word that is no key: an operator in any ASCII case, or just the word. -/
inductive SpelledWord (word : String) : Symbol → Prop
  | and : Text.fold word = "and" → SpelledWord word .and
  | or : Text.fold word = "or" → SpelledWord word .or
  | not : Text.fold word = "not" → SpelledWord word .not
  | word : Text.fold word ∉ ["and", "or", "not"] → SpelledWord word (.word word)

inductive Spelled (rest : List Char) : List Char → Symbol → Prop
  | bracketLeft : Spelled rest ['('] .bracketLeft
  | bracketRight : Spelled rest [')'] .bracketRight
  | not : Spelled rest ['!'] .not
  | and : Spelled rest ['&', '&'] .and
  | or : Spelled rest ['|', '|'] .or
  | word {c : Char} {cs : List Char} {s : Symbol} : c ≠ '-' → (∀ d ∈ c :: cs, Token.isWordChar d = true) →
      SpelledWord (String.ofList (c :: cs)) s → Ended rest → Spelled rest (c :: cs) s
  | pair {key cs value : List Char} : SpelledKey key → SpelledValue cs value → Ended rest →
      Spelled rest (key ++ ':' :: cs) (.pair (String.ofList key) (String.ofList value))

/-- The text after `before` is spellings with gaps around them, and a token tells how many characters stand before
    its spelling. -/
inductive Tiled : List Char → List Char → List Token → Prop
  | done {before gap : List Char} : (∀ c ∈ gap, Token.isGap c = true) → Tiled before gap []
  | token {before gap x rest : List Char} {s : Symbol} {ts : List Token} : (∀ c ∈ gap, Token.isGap c = true) →
      Spelled rest x s → Tiled (before ++ gap ++ x) rest ts →
      Tiled before (gap ++ x ++ rest) (⟨s, (before ++ gap).length⟩ :: ts)

/-! ## Characters -/

theorem isBareChar_of_isWordChar {c : Char} (h : Token.isWordChar c = true) : Value.isBareChar c = true := by
  simp only [Token.isWordChar, Value.isBareChar, Char.isAlphanum, Bool.or_eq_true] at h ⊢
  rcases h with ((h | h) | h) | h <;> simp [h]

theorem not_isBlank_of_isBareChar {c : Char} (h : Value.isBareChar c = true) : Text.isBlank c = false := by
  rw [← Bool.not_eq_true]
  intro hb
  simp only [Text.isBlank, Bool.or_eq_true, Bool.and_eq_true, decide_eq_true_eq, beq_iff_eq] at hb
  have halpha : c.isAlpha = (c.isUpper || c.isLower) := rfl
  have hupper : c.isUpper = decide ('A'.val ≤ c.val ∧ c.val ≤ 'Z'.val) := rfl
  have hlower : c.isLower = (decide ('a'.val ≤ c.val) && decide (c.val ≤ 'z'.val)) := rfl
  simp only [Value.isBareChar, Char.isAlphanum, halpha, hupper, hlower, Char.isDigit, Bool.or_eq_true, Bool.and_eq_true,
    decide_eq_true_eq, beq_iff_eq, ge_iff_le, UInt32.le_iff_toNat_le] at h
  have hc : c.val.toNat = c.toNat := rfl
  have hletters : 'A'.val.toNat = 65 ∧ 'Z'.val.toNat = 90 ∧ 'a'.val.toNat = 97 ∧ 'z'.val.toNat = 122 := by decide
  have hdigits : '0'.val.toNat = 48 ∧ '9'.val.toNat = 57 := by decide
  rcases h with (((h | rfl) | rfl) | rfl) | rfl
  · omega
  all_goals simp at hb

theorem ne_of_isBareChar {c d : Char} (hc : Value.isBareChar c = true) (hd : Value.isBareChar d = false) : c ≠ d := by
  rintro rfl
  rw [hd] at hc
  cases hc

namespace Ended

theorem nil : Ended [] := by
  intro c hc
  cases hc

theorem bracketRight (cs : List Char) : Ended (')' :: cs) := by
  rintro c ⟨⟩
  exact Or.inl rfl

theorem blank (cs : List Char) : Ended (' ' :: cs) := by
  rintro c ⟨⟩
  exact Or.inr rfl

theorem not_isBareChar {cs : List Char} (h : Ended cs) : ∀ c ∈ cs.head?, Value.isBareChar c = false := by
  intro c hc
  rcases h c hc with rfl | hb
  · decide
  · rw [← Bool.not_eq_true]
    intro hc
    rw [not_isBlank_of_isBareChar hc] at hb
    cases hb

end Ended

theorem takeWhile_bare {cs rest : List Char} (hc : ∀ c ∈ cs, Value.isBareChar c = true)
    (hr : ∀ c ∈ rest.head?, Value.isBareChar c = false) :
    (cs ++ rest).takeWhile Value.isBareChar = cs ∧ (cs ++ rest).dropWhile Value.isBareChar = rest := by
  rw [List.takeWhile_append_of_pos hc, List.dropWhile_append_of_pos hc]
  cases rest with
  | nil => exact ⟨List.append_nil cs, rfl⟩
  | cons c rest =>
    have : Value.isBareChar c = false := hr c rfl
    simp [this]

/-! ## The end of a word or a value -/

theorem separated_of_ended {cs : List Char} (h : Ended cs) (total : Nat) (s : Symbol) :
    Token.separated total s cs = .ok (s, cs) := by
  cases cs with
  | nil => rfl
  | cons c cs => rw [Token.separated, if_pos (h c rfl)]

theorem ended_of_separated {total : Nat} {s s' : Symbol} {cs rest : List Char}
    (h : Token.separated total s cs = .ok (s', rest)) : s = s' ∧ cs = rest ∧ Ended cs := by
  cases cs with
  | nil =>
    cases h
    exact ⟨rfl, rfl, .nil⟩
  | cons c cs =>
    rw [Token.separated] at h
    split at h
    · rename_i hc
      cases h
      refine ⟨rfl, rfl, ?_⟩
      rintro d ⟨⟩
      exact hc
    · cases h

/-! ## Values -/

theorem quoted_of_quotedBody {cs v : List Char} (h : QuotedBody cs v) (rest : List Char) :
    Value.quoted (cs ++ '"' :: rest) = some (v, rest) := by
  induction h with
  | nil => rfl
  | @plain c cs v hq hb _ ih =>
    rw [List.cons_append, Value.quoted, if_neg hb, ih]
    · rfl
    · exact hq
    · exact fun _ _ hc => absurd hc hb
  | @escaped c cs v hn _ ih =>
    rw [List.cons_append, List.cons_append, Value.quoted, if_neg hn, ih]
    rfl

theorem quotedBody_of_quoted {cs v rest : List Char} (h : Value.quoted cs = some (v, rest)) :
    ∃ body, cs = body ++ '"' :: rest ∧ QuotedBody body v := by
  induction cs using Value.quoted.induct generalizing v rest with
  | case1 => cases h
  | case2 cs =>
    cases h
    exact ⟨[], rfl, .nil⟩
  | case3 cs =>
    rw [Value.quoted, if_pos rfl] at h
    cases h
  | case4 c cs hc ih =>
    rw [Value.quoted, if_neg hc] at h
    obtain ⟨⟨w, rest'⟩, hq, hw⟩ := Option.map_eq_some_iff.mp h
    cases hw
    obtain ⟨body, rfl, hb⟩ := ih hq
    exact ⟨'\\' :: c :: body, rfl, .escaped hc hb⟩
  | case5 cs h1 h2 =>
    rw [Value.quoted, if_pos rfl] at h
    · cases h
    · exact h1
    · exact h2
  | case6 c cs h1 h2 hc ih =>
    rw [Value.quoted, if_neg hc] at h
    · obtain ⟨⟨w, rest'⟩, hq, hw⟩ := Option.map_eq_some_iff.mp h
      cases hw
      obtain ⟨body, rfl, hb⟩ := ih hq
      exact ⟨c :: body, rfl, .plain h1 hc hb⟩
    · exact h1
    · exact h2

theorem keyed_of_spelledValue {cs value rest : List Char} (h : SpelledValue cs value) (hr : Ended rest) (total : Nat)
    (key : List Char) :
    Token.keyed total key (cs ++ rest) = .ok (.pair (String.ofList key) (String.ofList value), rest) := by
  cases h with
  | bare hne hbare =>
    obtain ⟨ht, hd⟩ := takeWhile_bare hbare hr.not_isBareChar
    obtain ⟨c, cs, rfl⟩ := List.exists_cons_of_ne_nil hne
    have hc : Value.isBareChar c = true := hbare c List.mem_cons_self
    rw [List.cons_append] at ht hd ⊢
    rw [Token.keyed, if_neg (ne_of_isBareChar hc rfl), if_pos hc, ht, hd]
    exact separated_of_ended hr total _
  | @quoted cs _ hbody =>
    have hq : Value.quoted (cs ++ ['"'] ++ rest) = some (value, rest) := by
      rw [List.append_assoc]
      exact quoted_of_quotedBody hbody rest
    rw [List.cons_append, Token.keyed, if_pos rfl, hq]
    exact separated_of_ended hr total _

theorem spelledValue_of_keyed {total : Nat} {key cs rest : List Char} {s : Symbol}
    (h : Token.keyed total key cs = .ok (s, rest)) :
    ∃ x value, cs = x ++ rest ∧ SpelledValue x value ∧ Ended rest ∧
      s = .pair (String.ofList key) (String.ofList value) := by
  cases cs with
  | nil => cases h
  | cons c cs =>
    rw [Token.keyed] at h
    split at h
    · rename_i hc
      subst hc
      split at h
      · rename_i v rest' hq
        obtain ⟨body, rfl, hb⟩ := quotedBody_of_quoted hq
        obtain ⟨rfl, rfl, hr⟩ := ended_of_separated h
        exact ⟨'"' :: (body ++ ['"']), v, by simp, .quoted hb, hr, rfl⟩
      · cases h
    · split at h
      · rename_i hc
        obtain ⟨rfl, rfl, hr⟩ := ended_of_separated h
        refine ⟨_, _, List.takeWhile_append_dropWhile.symm, .bare ?_ fun d hd => List.mem_takeWhile_imp hd, hr, rfl⟩
        rw [List.takeWhile_cons, if_pos hc]
        exact List.cons_ne_nil _ _
      · cases h

/-! ## Words -/

theorem keyword_of_spelledWord {word : String} {s : Symbol} (h : SpelledWord word s) : Token.keyword word = s := by
  have hfold : Text.fold "and" = "and" ∧ Text.fold "or" = "or" ∧ Text.fold "not" = "not" := by decide
  simp only [Token.keyword, Text.sameName_iff, hfold]
  cases h with
  | and h | or h | not h =>
    rw [h]
    rfl
  | word h =>
    simp only [List.mem_cons, List.not_mem_nil, or_false, not_or] at h
    rw [if_neg h.1, if_neg h.2.1, if_neg h.2.2]

theorem spelledWord_keyword (word : String) : SpelledWord word (Token.keyword word) := by
  have hfold : Text.fold "and" = "and" ∧ Text.fold "or" = "or" ∧ Text.fold "not" = "not" := by decide
  simp only [Token.keyword, Text.sameName_iff, hfold]
  split
  · exact .and ‹_›
  split
  · exact .or ‹_›
  split
  · exact .not ‹_›
  · exact .word (by simp [*])

/-! ## Symbols -/

/-- What starts with a bare character is no gap, bracket or operator sign, and is read as a word. -/
theorem next_bare {c : Char} (hc : Value.isBareChar c = true) (total : Nat) (cs : List Char) :
    Token.next total c cs = Token.wordOrPair total c cs := by
  rw [Token.next, if_neg (ne_of_isBareChar hc rfl), if_neg (ne_of_isBareChar hc rfl),
    if_neg (ne_of_isBareChar hc rfl), if_neg (ne_of_isBareChar hc rfl), if_neg (ne_of_isBareChar hc rfl),
    if_neg (ne_of_isBareChar hc rfl), if_neg (ne_of_isBareChar hc rfl), if_pos hc]

theorem not_isGap_of_isBareChar {c : Char} (hc : Value.isBareChar c = true) : ¬ Token.isGap c = true := by
  simp only [Token.isGap, Bool.not_eq_true, Bool.or_eq_false_iff, beq_eq_false_iff_ne]
  exact ⟨⟨⟨⟨ne_of_isBareChar hc rfl, ne_of_isBareChar hc rfl⟩, ne_of_isBareChar hc rfl⟩, ne_of_isBareChar hc rfl⟩,
    ne_of_isBareChar hc rfl⟩

theorem next_of_spelled {x rest : List Char} {s : Symbol} (h : Spelled rest x s) :
    ∃ c cs, x = c :: cs ∧ ¬ Token.isGap c = true ∧ ∀ total, Token.next total c (cs ++ rest) = .ok (s, rest) := by
  cases h with
  | bracketLeft | bracketRight | not | and | or => exact ⟨_, _, rfl, by decide, fun _ => rfl⟩
  | @word c cs s hc hword hs hr =>
    have hbare : ∀ d ∈ c :: cs, Value.isBareChar d = true := fun d hd => isBareChar_of_isWordChar (hword d hd)
    have hcbare := hbare c List.mem_cons_self
    refine ⟨c, cs, rfl, not_isGap_of_isBareChar hcbare, fun total => ?_⟩
    obtain ⟨ht, hd⟩ := takeWhile_bare hbare hr.not_isBareChar
    have hread : Token.bareWord total (c :: cs) rest = .ok (s, rest) := by
      rw [Token.bareWord, if_neg (by simpa using hc), List.dropWhile_eq_nil_iff.mpr hword, keyword_of_spelledWord hs]
      exact separated_of_ended hr total _
    rw [List.cons_append] at ht hd
    rw [next_bare hcbare, Token.wordOrPair, if_pos (hword c List.mem_cons_self), ht, hd]
    split
    · rcases hr ':' rfl with h | h <;> cases h
    · exact hread
  | @pair key cs value hkey hvalue hr =>
    obtain @⟨c, key, hc, hbare⟩ := hkey
    have hcbare := isBareChar_of_isWordChar hc
    refine ⟨c, key ++ ':' :: cs, rfl, not_isGap_of_isBareChar hcbare, fun total => ?_⟩
    have hcolon : ∀ d ∈ (':' :: (cs ++ rest)).head?, Value.isBareChar d = false := by
      rintro d ⟨⟩
      rfl
    obtain ⟨ht, hd⟩ := takeWhile_bare (List.forall_mem_cons.mpr ⟨hcbare, hbare⟩) hcolon
    rw [List.cons_append] at ht hd
    rw [List.append_assoc, List.cons_append, next_bare hcbare, Token.wordOrPair, if_pos hc, ht, hd]
    exact keyed_of_spelledValue hvalue hr total _

theorem spelled_of_wordOrPair {total : Nat} {c : Char} {cs rest : List Char} {s : Symbol}
    (hc : Value.isBareChar c = true) (h : Token.wordOrPair total c cs = .ok (s, rest)) :
    ∃ x, c :: cs = x ++ rest ∧ Spelled rest x s := by
  rw [Token.wordOrPair] at h
  split at h
  · rename_i hword
    have hsplit : c :: cs = (c :: cs.takeWhile Value.isBareChar) ++ cs.dropWhile Value.isBareChar := by
      rw [List.cons_append, List.takeWhile_append_dropWhile]
    have htake : ∀ d ∈ cs.takeWhile Value.isBareChar, Value.isBareChar d = true := fun d hd =>
      List.mem_takeWhile_imp hd
    rw [List.takeWhile_cons, if_pos hc, List.dropWhile_cons, if_pos hc] at h
    dsimp only at h
    split at h
    · rename_i more hmore
      obtain ⟨x, value, rfl, hvalue, hr, rfl⟩ := spelledValue_of_keyed h
      rw [hmore] at hsplit
      exact ⟨_, by rw [hsplit]; simp, .pair (.intro hword htake) hvalue hr⟩
    · rw [Token.bareWord] at h
      split at h
      · cases h
      · rename_i hhyphen
        split at h
        · rename_i hnil
          obtain ⟨rfl, rfl, hr⟩ := ended_of_separated h
          refine ⟨_, hsplit, .word (by simpa using hhyphen) (List.dropWhile_eq_nil_iff.mp hnil) ?_ hr⟩
          exact spelledWord_keyword _
        · cases h
  · cases h

theorem eq_of_doubled {total : Nat} {c : Char} {s s' : Symbol} {cs rest : List Char}
    (h : Token.doubled total c s cs = .ok (s', rest)) : s = s' ∧ cs = c :: rest := by
  cases cs with
  | nil => cases h
  | cons d cs =>
    rw [Token.doubled] at h
    split at h
    · rename_i hd
      cases h
      exact ⟨rfl, by rw [hd]⟩
    · cases h

theorem spelled_of_next {total : Nat} {c : Char} {cs rest : List Char} {s : Symbol}
    (h : Token.next total c cs = .ok (s, rest)) : ∃ x, c :: cs = x ++ rest ∧ Spelled rest x s := by
  rw [Token.next] at h
  split at h
  · rename_i hc
    cases h
    exact ⟨['('], by rw [hc]; rfl, .bracketLeft⟩
  split at h
  · rename_i hc
    cases h
    exact ⟨[')'], by rw [hc]; rfl, .bracketRight⟩
  split at h
  · rename_i hc
    cases h
    exact ⟨['!'], by rw [hc]; rfl, .not⟩
  split at h
  · rename_i hc
    obtain ⟨rfl, rfl⟩ := eq_of_doubled h
    exact ⟨['&', '&'], by rw [hc]; rfl, .and⟩
  split at h
  · rename_i hc
    obtain ⟨rfl, rfl⟩ := eq_of_doubled h
    exact ⟨['|', '|'], by rw [hc]; rfl, .or⟩
  split at h
  · cases h
  split at h
  · cases h
  split at h
  · exact spelled_of_wordOrPair ‹_› h
  · cases h

/-! ## Queries -/

theorem Tiled.gap {before rest : List Char} {c : Char} {ts : List Token} (hc : Token.isGap c = true)
    (h : Tiled (before ++ [c]) rest ts) : Tiled before (c :: rest) ts := by
  cases h with
  | done hgap => exact .done (List.forall_mem_cons.mpr ⟨hc, hgap⟩)
  | @token _ gap x rest s ts hgap hx hrest =>
    have hbefore : before ++ [c] ++ gap = before ++ (c :: gap) := by simp
    rw [hbefore] at hrest ⊢
    exact .token (List.forall_mem_cons.mpr ⟨hc, hgap⟩) hx hrest

theorem tokensFrom_gap {gap : List Char} (h : ∀ c ∈ gap, Token.isGap c = true) (total : Nat) (rest : List Char) :
    tokensFrom total (gap ++ rest) = tokensFrom total rest := by
  induction gap with
  | nil => rfl
  | cons c gap ih =>
    obtain ⟨hc, hgap⟩ := List.forall_mem_cons.mp h
    rw [List.cons_append, tokensFrom, if_pos hc, ih hgap]

theorem tokensFrom_next {total : Nat} {c : Char} {cs rest : List Char} {s : Symbol} (hc : ¬ Token.isGap c = true)
    (h : Token.next total c cs = .ok (s, rest)) :
    tokensFrom total (c :: cs) = (tokensFrom total rest).map (⟨s, total - (c :: cs).length⟩ :: ·) := by
  rw [tokensFrom, if_neg hc]
  split
  · rename_i e he
    rw [h] at he
    cases he
  · rename_i s' rest' he
    rw [h] at he
    cases he
    rfl

theorem tokensFrom_error {total : Nat} {c : Char} {cs : List Char} {e : Error} (hc : ¬ Token.isGap c = true)
    (h : Token.next total c cs = .error e) : tokensFrom total (c :: cs) = .error e := by
  rw [tokensFrom, if_neg hc]
  split
  · rename_i e' he
    rw [h] at he
    cases he
    rfl
  · rename_i s rest he
    rw [h] at he
    cases he

theorem tokensFrom_of_tiled {total : Nat} {before cs : List Char} {ts : List Token}
    (htotal : (before ++ cs).length = total) (h : Tiled before cs ts) : tokensFrom total cs = .ok ts := by
  induction h with
  | @done before gap hgap =>
    have := tokensFrom_gap hgap total []
    rw [List.append_nil] at this
    rw [this, tokensFrom]
  | @token before gap x rest s ts hgap hx _ ih =>
    obtain ⟨c, cs, rfl, hc, hnext⟩ := next_of_spelled hx
    have hbefore : before ++ (gap ++ (c :: cs) ++ rest) = before ++ gap ++ (c :: cs ++ rest) := by
      simp only [List.append_assoc]
    have hposition : total - (c :: (cs ++ rest)).length = (before ++ gap).length := by
      rw [← htotal, hbefore, List.length_append, ← List.cons_append, Nat.add_sub_cancel]
    rw [List.append_assoc gap, tokensFrom_gap hgap, List.cons_append, tokensFrom_next hc (hnext _), hposition,
      ih (by rw [← htotal, hbefore, List.append_assoc (before ++ gap)])]
    rfl

theorem tiled_of_tokensFrom {total : Nat} {before cs : List Char} {ts : List Token}
    (htotal : (before ++ cs).length = total) (h : tokensFrom total cs = .ok ts) : Tiled before cs ts := by
  induction cs using tokensFrom.induct total generalizing before ts with
  | case1 =>
    rw [tokensFrom] at h
    cases h
    exact .done fun c hc => absurd hc List.not_mem_nil
  | case2 c cs hc ih =>
    rw [tokensFrom, if_pos hc] at h
    exact .gap hc (ih (by rw [← htotal, ← List.append_cons]) h)
  | case3 c cs hc e he =>
    rw [tokensFrom_error hc he] at h
    cases h
  | case4 c cs hc s rest hnext ih =>
    obtain ⟨x, hx, hs⟩ := spelled_of_next hnext
    have hbefore : before ++ (c :: cs) = before ++ x ++ rest := by rw [hx, List.append_assoc]
    have hposition : total - (c :: cs).length = (before ++ []).length := by
      rw [← htotal, List.length_append, Nat.add_sub_cancel, List.append_nil]
    rw [tokensFrom_next hc hnext, hposition] at h
    cases hmore : tokensFrom total rest with
    | error e =>
      rw [hmore] at h
      cases h
    | ok more =>
      rw [hmore] at h
      cases h
      have hrest : Tiled (before ++ [] ++ x) rest more := by
        rw [List.append_nil]
        exact ih (by rw [← htotal, hbefore]) hmore
      rw [hx]
      exact .token  (fun c hc => absurd hc List.not_mem_nil) hs hrest

theorem tiled_of_tokenize {query : String} {ts : Tokens} (h : tokenize query = .ok ts) :
    Tiled [] query.toList ts.items ∧ ts.stop = query.toList.length := by
  cases hitems : tokensFrom query.toList.length query.toList with
  | error e =>
    rw [tokenize, hitems] at h
    cases h
  | ok items =>
    rw [tokenize, hitems] at h
    cases h
    exact ⟨tiled_of_tokensFrom rfl hitems, rfl⟩

/-- The tokens of a query are those that it can be tiled with, and they end where it ends. -/
theorem tokenize_eq_ok_iff_tiled (query : String) (ts : Tokens) :
    tokenize query = .ok ts ↔ Tiled [] query.toList ts.items ∧ ts.stop = query.toList.length := by
  constructor
  · exact tiled_of_tokenize
  · obtain ⟨items, stop⟩ := ts
    rintro ⟨h, rfl⟩
    have hitems : tokensFrom query.toList.length query.toList = .ok items := tokensFrom_of_tiled rfl h
    rw [tokenize, hitems]
    rfl

end Triage.Query
