/-
  Triage.Json.Quoted — string literals.

  `escape` writes text: a quote, a backslash and the controls below U+0020 are escaped, everything else stands for
  itself. `scan` reads a literal up to its closing quote into pieces, `join` the pieces into text: an escape "\uXXXX"
  of a surrogate is a half, and two halves in a row make one character. `join` refuses a half without its partner.
-/

namespace Triage.Json.Quoted

def hexDigit (n : Nat) : Char := Char.ofNat (if n < 10 then 48 + n else 87 + n)

def escapeChar (c : Char) : List Char :=
  if c = '"' then ['\\', '"']
  else if c = '\\' then ['\\', '\\']
  else if c = '\x08' then ['\\', 'b']
  else if c = '\t' then ['\\', 't']
  else if c = '\n' then ['\\', 'n']
  else if c = '\x0c' then ['\\', 'f']
  else if c = '\r' then ['\\', 'r']
  else if c.toNat < 0x20 then ['\\', 'u', '0', '0', hexDigit (c.toNat / 16), hexDigit (c.toNat % 16)]
  else [c]

def escape (cs : List Char) : List Char := cs.flatMap escapeChar

def quote (s : String) : List Char := '"' :: escape s.toList ++ ['"']

/-! ## Reading -/

inductive Piece where
  | char (c : Char)
  /-- The code of half a surrogate pair, from 0xD800 to 0xDFFF. -/
  | half (code : Nat)
  deriving DecidableEq

def hexValue (c : Char) : Option Nat :=
  if '0' ≤ c ∧ c ≤ '9' then some (c.toNat - 48)
  else if 'a' ≤ c ∧ c ≤ 'f' then some (c.toNat - 87)
  else if 'A' ≤ c ∧ c ≤ 'F' then some (c.toNat - 55)
  else none

def hexCode (digits : List Char) : Option Nat :=
  digits.foldlM (fun n c => (hexValue c).map (16 * n + ·)) 0

def pieceOf (code : Nat) : Piece := if 0xD800 ≤ code ∧ code < 0xE000 then .half code else .char (Char.ofNat code)

/-- What a backslash and one letter stand for. -/
def escaped : Char → Option Char
  | '"' => some '"'
  | '\\' => some '\\'
  | '/' => some '/'
  | 'b' => some '\x08'
  | 'f' => some '\x0c'
  | 'n' => some '\n'
  | 'r' => some '\r'
  | 't' => some '\t'
  | _ => none

/-- The pieces of a literal whose opening quote has been read, and what follows its closing quote. -/
def scan : List Char → Option (List Piece × List Char)
  | [] => none
  | '"' :: cs => some ([], cs)
  | '\\' :: 'u' :: a :: b :: c :: d :: cs => do
    let code ← hexCode [a, b, c, d]
    let (ps, rest) ← scan cs
    return (pieceOf code :: ps, rest)
  | '\\' :: e :: cs => do
    let c ← escaped e
    let (ps, rest) ← scan cs
    return (.char c :: ps, rest)
  | c :: cs => if c = '\\' ∨ c.toNat < 0x20 then none else (scan cs).map fun (ps, rest) => (.char c :: ps, rest)

def join : List Piece → Option (List Char)
  | [] => some []
  | .char c :: ps => (join ps).map (c :: ·)
  | .half hi :: .half lo :: ps =>
    if hi < 0xDC00 ∧ 0xDC00 ≤ lo then
      (join ps).map (Char.ofNat (0x10000 + (hi - 0xD800) * 0x400 + (lo - 0xDC00)) :: ·)
    else none
  | .half _ :: _ => none

theorem scan_length {cs : List Char} {ps : List Piece} {rest : List Char} (h : scan cs = some (ps, rest)) :
    rest.length < cs.length := by
  induction cs using scan.induct generalizing ps rest with
  | case1 => cases h
  | case2 cs => simp only [scan, Option.some.injEq, Prod.mk.injEq] at h; simp [h.2]
  | case3 a b c d cs ih =>
    simp only [scan, Option.bind_eq_bind, Option.bind_eq_some_iff, Option.pure_def, Option.some.injEq,
      Prod.mk.injEq, Prod.exists] at h
    obtain ⟨_, -, _, _, hs, -, rfl⟩ := h
    have := ih hs
    simp only [List.length_cons]; omega
  | case4 e cs hne ih =>
    rw [scan] at h
    · simp only [Option.bind_eq_bind, Option.bind_eq_some_iff, Option.pure_def, Option.some.injEq,
        Prod.mk.injEq, Prod.exists] at h
      obtain ⟨_, -, _, _, hs, -, rfl⟩ := h
      have := ih hs
      simp only [List.length_cons]; omega
    · exact hne
  | case5 c cs h1 h2 h3 hc =>
    rw [scan] at h <;> simp_all
  | case6 c cs h1 h2 h3 hc ih =>
    rw [scan] at h
    · simp only [if_neg hc, Option.map_eq_some_iff, Prod.mk.injEq, Prod.exists] at h
      obtain ⟨_, _, hs, -, rfl⟩ := h
      have := ih hs
      simp only [List.length_cons]; omega
    · exact h1
    · exact h2
    · exact h3

end Triage.Json.Quoted
