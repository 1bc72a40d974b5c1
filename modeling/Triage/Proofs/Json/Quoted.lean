/-
  Triage.Proofs.Json.Quoted — what is written between quotes is read back.

  A character is written in one of three ways (`escapeChar_cases`), and each is read as that character alone
  (`scan_escapeChar`). So text between quotes is read up to its closing quote, character by character (`scan_escape`).
-/

import Triage.Json.Quoted

namespace Triage.Json.Quoted

variable {c e : Char} {cs rest : List Char}

/-- A character is written with a letter that stands for it, by its code, or as itself. -/
theorem escapeChar_cases (c : Char) :
    (∃ e, escapeChar c = ['\\', e] ∧ escaped e = some c) ∨
    (escapeChar c = ['\\', 'u', '0', '0', hexDigit (c.toNat / 16), hexDigit (c.toNat % 16)] ∧ c.toNat < 0x20) ∨
    (escapeChar c = [c] ∧ c ≠ '"' ∧ c ≠ '\\' ∧ 0x20 ≤ c.toNat) := by
  unfold escapeChar
  iterate 7
    split
    · subst_vars
      exact Or.inl ⟨_, rfl, rfl⟩
  split
  · exact Or.inr (Or.inl ⟨rfl, ‹_›⟩)
  · rename_i hq hb _ _ _ _ _ hlow
    exact Or.inr (Or.inr ⟨rfl, hq, hb, Nat.le_of_not_lt hlow⟩)

theorem scan_escaped (h : escaped e = some c) (rest : List Char) :
    scan ('\\' :: e :: rest) = (scan rest).map fun (ps, more) => (.char c :: ps, more) := by
  rw [scan]
  · rw [h]
    cases scan rest <;> rfl
  · rintro a b d f cs rfl -
    cases h

theorem scan_plain (hq : c ≠ '"') (hb : c ≠ '\\') (hc : 0x20 ≤ c.toNat) (rest : List Char) :
    scan (c :: rest) = (scan rest).map fun (ps, more) => (.char c :: ps, more) := by
  rw [scan]
  · rw [if_neg fun h => h.elim hb (Nat.not_lt.mpr hc)]
  · exact fun h => hq h
  · exact fun _ _ _ _ _ h _ => hb h
  · exact fun _ _ h _ => hb h

theorem hexValue_hexDigit : ∀ d < 16, hexValue (hexDigit d) = some d := by decide

theorem hexCode_control {n : Nat} (h : n < 0x20) :
    hexCode ['0', '0', hexDigit (n / 16), hexDigit (n % 16)] = some n := by
  have h0 : hexValue '0' = some 0 := rfl
  have h1 := hexValue_hexDigit (n / 16) (by omega)
  have h2 := hexValue_hexDigit (n % 16) (by omega)
  simp only [hexCode, List.foldlM_cons, List.foldlM_nil, h0, h1, h2, Option.map_some, Option.bind_eq_bind,
    Option.bind_some, Option.pure_def, Option.some.injEq]
  omega

theorem scan_control (hc : c.toNat < 0x20) (rest : List Char) :
    scan ('\\' :: 'u' :: '0' :: '0' :: hexDigit (c.toNat / 16) :: hexDigit (c.toNat % 16) :: rest) =
      (scan rest).map fun (ps, more) => (.char c :: ps, more) := by
  have hpiece : pieceOf c.toNat = .char c := by rw [pieceOf, if_neg (by omega), Char.ofNat_toNat]
  rw [scan, hexCode_control hc, ← hpiece]
  cases scan rest <;> rfl

theorem scan_escapeChar (c : Char) (rest : List Char) :
    scan (escapeChar c ++ rest) = (scan rest).map fun (ps, more) => (.char c :: ps, more) := by
  rcases escapeChar_cases c with ⟨e, hc, he⟩ | ⟨hc, hlow⟩ | ⟨hc, hq, hb, hlow⟩
  · rw [hc]
    exact scan_escaped he rest
  · rw [hc]
    exact scan_control hlow rest
  · rw [hc]
    exact scan_plain hq hb hlow rest

/-- What is written between quotes is read up to its closing quote, as the characters it was written for. -/
theorem scan_escape (cs rest : List Char) : scan (escape cs ++ '"' :: rest) = some (cs.map .char, rest) := by
  induction cs with
  | nil => rfl
  | cons c cs ih =>
    rw [escape, List.flatMap_cons, List.append_assoc, scan_escapeChar]
    rw [escape] at ih
    rw [ih]
    rfl

theorem join_chars (cs : List Char) : join (cs.map .char) = some cs := by
  induction cs with
  | nil => rfl
  | cons c cs ih =>
    rw [List.map_cons, join, ih]
    rfl

end Triage.Json.Quoted
