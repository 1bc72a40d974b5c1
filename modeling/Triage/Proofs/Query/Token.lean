/-
  Triage.Proofs.Query.Token — which tokens are read from a text that is put together of their spellings.

  `Reads symbols cs rest` says that reading `cs` gives tokens of these symbols and then those of `rest`, wherever in a
  query that is. Spellings compose (`Reads.trans`), so each construct needs one lemma: how it is spelled and what ends
  it.
-/

import Triage.Proofs.Query.Spelling

namespace Triage.Query

/-! ## Values -/

theorem quotedBody_escape (cs : List Char) : QuotedBody (Value.escape cs) cs := by
  induction cs with
  | nil => exact .nil
  | cons c cs ih =>
    rw [Value.escape, List.flatMap_cons, ← Value.escape]
    by_cases h : c = '"' ∨ c = '\\'
    · have hn : c ≠ '\n' := by rcases h with rfl | rfl <;> decide
      rw [if_pos h]
      exact .escaped hn ih
    · rw [if_neg h]
      obtain ⟨hq, hb⟩ := not_or.mp h
      exact .plain hq hb ih

theorem spelledValue_write (value : String) : SpelledValue (Value.write value).toList value.toList := by
  rw [Value.write]
  split
  · rename_i hb
    rw [Value.isBare, Bool.and_eq_true, Bool.not_eq_true', List.isEmpty_eq_false_iff, List.all_eq_true] at hb
    exact .bare hb.1 hb.2
  · rw [String.toList_ofList]
    exact .quoted (quotedBody_escape value.toList)

/-! ## Reading -/

def Reads (symbols : List Symbol) (cs rest : List Char) : Prop :=
  ∀ total, ∃ ts : List Token, ts.map Token.symbol = symbols ∧
    tokensFrom total cs = (tokensFrom total rest).map (ts ++ ·)

namespace Reads

theorem refl (cs : List Char) : Reads [] cs cs := by
  intro total
  refine ⟨[], rfl, ?_⟩
  cases tokensFrom total cs <;> rfl

theorem trans {s s' : List Symbol} {cs mid rest : List Char} (h : Reads s cs mid) (h' : Reads s' mid rest) :
    Reads (s ++ s') cs rest := by
  intro total
  obtain ⟨ts, hs, ht⟩ := h total
  obtain ⟨ts', hs', ht'⟩ := h' total
  refine ⟨ts ++ ts', by rw [List.map_append, hs, hs'], ?_⟩
  rw [ht, ht']
  cases tokensFrom total rest with
  | error e => rfl
  | ok more => exact congrArg Except.ok (List.append_assoc ts ts' more).symm

theorem gap {s : List Symbol} {c : Char} {cs rest : List Char} (hc : Token.isGap c = true) (h : Reads s cs rest) :
    Reads s (c :: cs) rest := by
  intro total
  rw [tokensFrom, if_pos hc]
  exact h total

theorem gaps {s : List Symbol} {gap cs rest : List Char} (hgap : ∀ c ∈ gap, Token.isGap c = true)
    (h : Reads s cs rest) : Reads s (gap ++ cs) rest := by
  intro total
  rw [tokensFrom_gap hgap]
  exact h total

theorem spelled {s : Symbol} {x rest : List Char} (h : Spelled rest x s) : Reads [s] (x ++ rest) rest := by
  obtain ⟨c, cs, rfl, hc, hnext⟩ := next_of_spelled h
  intro total
  exact ⟨[⟨s, total - (c :: (cs ++ rest)).length⟩], rfl, tokensFrom_next hc (hnext total)⟩

end Reads

/-- A text that is read to its end has tokens of these symbols. -/
theorem tokenize_of_reads {w : List Symbol} {cs : List Char} (h : Reads w cs []) :
    ∃ ts, tokenize (String.ofList cs) = .ok ts ∧ ts.items.map Token.symbol = w := by
  obtain ⟨ts, hw, hts⟩ := h cs.length
  refine ⟨⟨ts, cs.length⟩, ?_, hw⟩
  rw [tokenize, String.toList_ofList, hts, tokensFrom]
  show Except.ok (Tokens.mk (ts ++ []) _) = _
  rw [List.append_nil]

/-- A key, its colon and a written value. -/
theorem reads_pair {key : List Char} (hk : SpelledKey key) (value : String) {rest : List Char} (hr : Ended rest) :
    Reads [.pair (String.ofList key) value] (key ++ ':' :: (Value.write value).toList ++ rest) rest := by
  have h : Spelled rest (key ++ ':' :: (Value.write value).toList)
      (.pair (String.ofList key) (String.ofList value.toList)) := .pair hk (spelledValue_write value) hr
  rw [String.ofList_toList] at h
  exact .spelled h

theorem reads_bracketLeft (cs : List Char) : Reads [.bracketLeft] ('(' :: cs) cs := .spelled .bracketLeft

theorem reads_bracketRight (cs : List Char) : Reads [.bracketRight] (')' :: cs) cs := .spelled .bracketRight

theorem reads_not (cs : List Char) : Reads [.not] ('!' :: cs) cs := .spelled .not

/-- An operator between blanks, as it is written between operands. -/
theorem reads_and (cs : List Char) : Reads [.and] (" AND ".toList ++ cs) cs := by
  have h : Spelled (' ' :: cs) ['A', 'N', 'D'] .and :=
    .word (by decide) (List.all_eq_true.mp (by decide)) (.and (by decide)) (.blank cs)
  exact .gap rfl ((Reads.spelled h).trans (.gap rfl (.refl cs)))

theorem reads_or (cs : List Char) : Reads [.or] (" OR ".toList ++ cs) cs := by
  have h : Spelled (' ' :: cs) ['O', 'R'] .or :=
    .word (by decide) (List.all_eq_true.mp (by decide)) (.or (by decide)) (.blank cs)
  exact .gap rfl ((Reads.spelled h).trans (.gap rfl (.refl cs)))

end Triage.Query
