/-
  Triage.Proofs.Scan.Lexeme — the pieces of a query are its longest lexemes.

  Each lexeme has a pattern, and what is taken matches that of its lexeme (`pattern_of_longest`). A piece stands right at
  a byte offset only if its pattern does (`exists_of_adjacentTo`).
-/

import Triage.Proofs.Query.Spelling
import Triage.Scan.Scanner

namespace Triage.Scan

open Query

/-! ## Patterns -/

def Lexeme.Pattern : Lexeme → List Char → Prop
  | .bracketLeft, x => x = ['(']
  | .bracketRight, x => x = [')']
  | .not, x => x = ['!']
  | .and, x => x = ['&', '&']
  | .or, x => x = ['|', '|']
  | .colon, x => x = [':']
  | .text, x => x ≠ [] ∧ ∀ c ∈ x, Value.isBareChar c = true
  | .quoted, x => ∃ body v, x = '"' :: (body ++ ['"']) ∧ QuotedBody body v

theorem longest_bare {c : Char} (hc : Value.isBareChar c = true) (cs : List Char) :
    longest c cs = some (.text, cs.takeWhile Value.isBareChar) := by
  rw [longest, if_neg (ne_of_isBareChar hc rfl), if_neg (ne_of_isBareChar hc rfl), if_neg (ne_of_isBareChar hc rfl),
    if_neg (ne_of_isBareChar hc rfl), if_neg (ne_of_isBareChar hc rfl), if_neg (ne_of_isBareChar hc rfl),
    if_neg (ne_of_isBareChar hc rfl), if_pos hc]

theorem longest_quoted {body v : List Char} (h : QuotedBody body v) (rest : List Char) :
    longest '"' (body ++ ['"'] ++ rest) = some (.quoted, body ++ ['"']) := by
  have hq : longest '"' (body ++ ['"'] ++ rest) = (Value.quoted (body ++ ['"'] ++ rest)).map fun p =>
      (.quoted, (body ++ ['"'] ++ rest).take ((body ++ ['"'] ++ rest).length - p.2.length)) := rfl
  rw [hq, ← List.append_cons, quoted_of_quotedBody h, Option.map_some, List.append_cons, List.length_append,
    Nat.add_sub_cancel, List.take_left]

theorem longest_unclosed {cs : List Char} (h : Value.quoted cs = none) : longest '"' cs = none := by
  have hq : longest '"' cs = (Value.quoted cs).map fun p => (.quoted, cs.take (cs.length - p.2.length)) := rfl
  rw [hq, h, Option.map_none]

theorem pattern_of_doubled {c : Char} {cs more : List Char} {k l : Lexeme} (h : doubled c k cs = some (l, more)) :
    l = k ∧ more = [c] ∧ more <+: cs := by
  unfold doubled at h
  split at h
  · rename_i hhead
    cases h
    obtain ⟨rest, rfl⟩ := List.head?_eq_some_iff.mp hhead
    exact ⟨rfl, rfl, List.prefix_append [c] rest⟩
  · cases h

/-- What is taken matches the pattern of the lexeme. -/
theorem pattern_of_longest {c : Char} {cs more : List Char} {l : Lexeme} (h : longest c cs = some (l, more)) :
    l.Pattern (c :: more) ∧ more <+: cs := by
  unfold longest at h
  split at h
  · rename_i hc
    cases h
    exact ⟨by rw [hc]; rfl, List.nil_prefix⟩
  split at h
  · rename_i hc
    cases h
    exact ⟨by rw [hc]; rfl, List.nil_prefix⟩
  split at h
  · rename_i hc
    cases h
    exact ⟨by rw [hc]; rfl, List.nil_prefix⟩
  split at h
  · rename_i hc
    obtain ⟨rfl, rfl, hprefix⟩ := pattern_of_doubled h
    exact ⟨by rw [hc]; rfl, hprefix⟩
  split at h
  · rename_i hc
    obtain ⟨rfl, rfl, hprefix⟩ := pattern_of_doubled h
    exact ⟨by rw [hc]; rfl, hprefix⟩
  split at h
  · rename_i hc
    cases h
    exact ⟨by rw [hc]; rfl, List.nil_prefix⟩
  split at h
  · rename_i hc
    subst hc
    obtain ⟨⟨v, rest⟩, hq, hmore⟩ := Option.map_eq_some_iff.mp h
    obtain ⟨body, rfl, hbody⟩ := quotedBody_of_quoted hq
    have hlongest := longest_quoted hbody rest
    rw [← List.append_cons, show longest '"' (body ++ '"' :: rest) = some (l, more) from h] at hlongest
    cases hlongest
    exact ⟨⟨body, v, rfl, hbody⟩, ⟨rest, by simp⟩⟩
  split at h
  · rename_i hc
    cases h
    refine ⟨⟨List.cons_ne_nil _ _, List.forall_mem_cons.mpr ⟨hc, fun d hd => List.mem_takeWhile_imp hd⟩⟩, ?_⟩
    exact List.takeWhile_prefix _
  · cases h

/-! ## Pieces -/

theorem piecesFrom_gap {c : Char} (hc : Token.isGap c = true) (start : Nat) (cs : List Char) :
    piecesFrom start (c :: cs) = piecesFrom (start + c.utf8Size) cs := by
  rw [piecesFrom, if_pos hc]

theorem piecesFrom_lexeme {c : Char} {more rest : List Char} {l : Lexeme} (hc : ¬ Token.isGap c = true)
    (h : longest c (more ++ rest) = some (l, more)) (start : Nat) :
    piecesFrom start (c :: (more ++ rest)) =
      .lexeme l start (start + String.utf8Len (c :: more)) ::
        piecesFrom (start + String.utf8Len (c :: more)) rest := by
  rw [piecesFrom, if_neg hc, h]
  dsimp only
  rw [List.drop_left]

theorem piecesFrom_unmatched {c : Char} {cs : List Char} (hc : ¬ Token.isGap c = true) (h : longest c cs = none)
    (start : Nat) : piecesFrom start (c :: cs) = [.unmatched start] := by
  rw [piecesFrom, if_neg hc, h]

def Piece.start : Piece → Nat
  | .lexeme _ start _ => start
  | .unmatched start => start

theorem le_start_of_piecesFrom {start : Nat} {cs : List Char} {p : Piece} (h : p ∈ (piecesFrom start cs).head?) :
    start ≤ p.start := by
  induction start, cs using piecesFrom.induct with
  | case1 start =>
    rw [piecesFrom] at h
    cases h
  | case2 start c cs hc ih =>
    rw [piecesFrom_gap hc] at h
    exact Nat.le_trans (Nat.le_add_right _ _) (ih h)
  | case3 start c cs hc hl =>
    rw [piecesFrom_unmatched hc hl] at h
    cases h
    exact Nat.le_refl start
  | case4 start c cs hc l more hl =>
    obtain ⟨-, rest, rfl⟩ := pattern_of_longest hl
    rw [piecesFrom_lexeme hc hl] at h
    cases h
    exact Nat.le_refl start

theorem adjacentTo_lexeme {c : Char} {more rest : List Char} {l : Lexeme} (hc : ¬ Token.isGap c = true)
    (h : longest c (more ++ rest) = some (l, more)) (start : Nat) :
    adjacentTo start (piecesFrom start (c :: (more ++ rest))) = some (l, start + String.utf8Len (c :: more)) := by
  rw [piecesFrom_lexeme hc h, adjacentTo, if_pos rfl]

/-- Where a lexeme stands right at a byte offset, its pattern does. -/
theorem exists_of_adjacentTo {start stop : Nat} {cs : List Char} {l : Lexeme}
    (h : adjacentTo start (piecesFrom start cs) = some (l, stop)) : ∃ x, x <+: cs ∧ l.Pattern x := by
  cases cs with
  | nil =>
    rw [piecesFrom] at h
    cases h
  | cons c cs =>
    by_cases hc : Token.isGap c = true
    · -- After a gap the first piece starts later.
      rw [piecesFrom_gap hc] at h
      cases hp : piecesFrom (start + c.utf8Size) cs with
      | nil =>
        rw [hp] at h
        cases h
      | cons p ps =>
        have hle : start + c.utf8Size ≤ p.start := le_start_of_piecesFrom (by rw [hp]; rfl)
        have hpos := c.utf8Size_pos
        rw [hp] at h
        cases p with
        | unmatched => cases h
        | lexeme k first last =>
          rw [adjacentTo, if_neg (show ¬ first = start by simp only [Piece.start] at hle; omega)] at h
          cases h
    · cases hl : longest c cs with
      | none =>
        rw [piecesFrom_unmatched hc hl] at h
        cases h
      | some p =>
        obtain ⟨k, more⟩ := p
        obtain ⟨hpattern, rest, rfl⟩ := pattern_of_longest hl
        rw [adjacentTo_lexeme hc hl] at h
        cases h
        exact ⟨c :: more, List.prefix_append (c :: more) rest, hpattern⟩

end Triage.Scan
