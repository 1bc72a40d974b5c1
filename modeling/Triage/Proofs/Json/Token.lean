/-
  Triage.Proofs.Json.Token — the text of a value is read as the tokens of the value.

  `Spells` says of characters that they are read as some tokens whatever follows, so long as that does not go on with
  a number. Numbers that are whole, strings and punctuation spell one token each, and what stands one after the other
  spells the tokens one after the other (`Spells.append`). By induction on a value whose numbers are whole, its text
  spells its tokens (`Value.Whole.spells`).
-/

import Triage.Json.Token
import Triage.Json.Text
import Triage.Proofs.Json.Quoted

namespace Triage.Json

/-- Nothing that a number could go on with. -/
def Stops (rest : List Char) : Prop := ∀ c ∈ rest.head?, c.isDigit = false ∧ c ≠ '.' ∧ c ≠ 'e' ∧ c ≠ 'E'

theorem stops_nil : Stops [] := nofun

theorem stops_cons {c : Char} (hc : c.isDigit = false ∧ c ≠ '.' ∧ c ≠ 'e' ∧ c ≠ 'E') (rest : List Char) :
    Stops (c :: rest) := by
  rintro d ⟨⟩
  exact hc

/-! ## Whole numbers -/

namespace Token

variable {n : Nat} {rest : List Char}

theorem eq_zero_of_toDigits {ds : List Char} (h : Nat.toDigits 10 n = '0' :: ds) : n = 0 := by
  induction n using Nat.strongRecOn generalizing ds with
  | ind n ih =>
    by_cases hn : n < 10
    · rw [Nat.toDigits_of_lt_base hn] at h
      exact Nat.digitChar_eq_zero.mp (List.cons.inj h).1
    · obtain ⟨d, es, hes⟩ := List.exists_cons_of_ne_nil (Nat.toDigits_ne_nil (n := n / 10) (b := 10))
      rw [Nat.toDigits_of_base_le (by omega) (by omega), hes] at h
      have := ih (n / 10) (by omega) ((List.cons.inj h).1 ▸ hes)
      omega

theorem digits_append {ds : List Char} (hd : ∀ c ∈ ds, c.isDigit = true) (hr : Stops rest) :
    digits (ds ++ rest) = (ds, rest) := by
  have hstop : rest.takeWhile Char.isDigit = [] ∧ rest.dropWhile Char.isDigit = rest := by
    cases rest with
    | nil => exact ⟨rfl, rfl⟩
    | cons c rest =>
      have hc := (hr c rfl).1
      simp [hc]
  rw [digits, List.takeWhile_append_of_pos hd, List.dropWhile_append_of_pos hd, hstop.1, hstop.2, List.append_nil]

theorem fraction_of_stops (hr : Stops rest) : fraction rest = some ([], rest) := by
  unfold fraction
  split
  · exact absurd rfl (hr '.' rfl).2.1
  · rfl

theorem exponent_of_stops (hr : Stops rest) : exponent rest = some ([], rest) := by
  cases rest with
  | nil => rfl
  | cons c rest =>
    obtain ⟨-, -, he, hE⟩ := hr c rfl
    simp [exponent, he, hE]

/-- A number without a zero before its other digits is read as far as its digits go. -/
theorem whole_of_digits {cs ds : List Char} {d : Char} (h : digits cs = (d :: ds, rest)) (hzero : d = '0' → ds = []) :
    whole cs = some (d :: ds, rest) := by
  unfold whole digits1
  rw [h]
  dsimp only
  split
  · rename_i heq
    cases heq
    cases hzero rfl
  · rfl

theorem unsigned_toDigits (n : Nat) (hr : Stops rest) :
    unsigned (Nat.toDigits 10 n ++ rest) = some (Nat.toDigits 10 n, rest) := by
  have hdigits : digits (Nat.toDigits 10 n ++ rest) = (Nat.toDigits 10 n, rest) :=
    digits_append (fun c hc => Nat.isDigit_of_mem_toDigits (by omega) (by omega) hc) hr
  obtain ⟨d, ds, hds⟩ := List.exists_cons_of_ne_nil (Nat.toDigits_ne_nil (n := n) (b := 10))
  have hzero : d = '0' → ds = [] := by
    rintro rfl
    rw [eq_zero_of_toDigits hds, Nat.toDigits_zero] at hds
    exact (List.cons.inj hds).2.symm
  rw [hds] at hdigits ⊢
  rw [unsigned, whole_of_digits hdigits hzero]
  simp [fraction_of_stops hr, exponent_of_stops hr]

theorem next_digit {d : Char} (hd : d.isDigit = true) (cs : List Char) :
    next d cs = (unsigned (d :: cs)).map fun (ds, rest) => (.atom (.number (String.ofList ds)), rest) := by
  unfold next
  split
  case h_12 => rfl
  all_goals exact absurd hd (by decide)

theorem isBlank_of_isDigit {d : Char} (hd : d.isDigit = true) : isBlank d = false := by
  refine Bool.eq_false_iff.mpr fun h => ?_
  simp only [isBlank, Bool.or_eq_true, beq_iff_eq] at h
  rcases h with ((rfl | rfl) | rfl) | rfl <;> exact absurd hd (by decide)

end Token

/-! ## Text that spells tokens -/

theorem tokenize_next {c : Char} {cs rest : List Char} {t : Token} (hc : Token.isBlank c = false)
    (h : Token.next c cs = some (t, rest)) : tokenize (c :: cs) = (tokenize rest).map (t :: ·) := by
  rw [tokenize, if_neg (by rw [hc]; exact Bool.false_ne_true)]
  split
  · rename_i hnone
    rw [h] at hnone
    cases hnone
  · rename_i hsome
    rw [h] at hsome
    cases hsome
    rfl

/-- The characters are read as the tokens, whatever follows that a number could not go on with. -/
def Spells (cs : List Char) (ts : List Token) : Prop :=
  ∀ rest, Stops rest → tokenize (cs ++ rest) = (tokenize rest).map (ts ++ ·)

theorem spells_nil : Spells [] [] := fun rest _ => by simp

theorem Spells.append {cs ds : List Char} {ts us : List Token} (h : Spells cs ts) (h' : Spells ds us)
    (hstops : ∀ rest, Stops rest → Stops (ds ++ rest)) : Spells (cs ++ ds) (ts ++ us) := by
  intro rest hr
  rw [List.append_assoc, h _ (hstops rest hr), h' rest hr, Option.map_map]
  congr 1
  funext more
  exact (List.append_assoc ts us more).symm

/-- A token that is read by its first character, whatever follows. -/
theorem Spells.cons {c : Char} {cs : List Char} {t : Token} {ts : List Token} (hc : Token.isBlank c = false)
    (ht : ∀ rest, Token.next c rest = some (t, rest)) (h : Spells cs ts) : Spells (c :: cs) (t :: ts) := by
  intro rest hr
  rw [List.cons_append, tokenize_next hc (ht _), h rest hr, Option.map_map]
  rfl

theorem spells_single {c : Char} {t : Token} (hc : Token.isBlank c = false)
    (ht : ∀ rest, Token.next c rest = some (t, rest)) : Spells [c] [t] := .cons hc ht spells_nil

theorem spells_number (n : Nat) : Spells (toString n).toList [.atom (.ofNat n)] := by
  intro rest hr
  obtain ⟨d, ds, hds⟩ := List.exists_cons_of_ne_nil (Nat.toDigits_ne_nil (n := n) (b := 10))
  have hd : d.isDigit = true := by
    refine Nat.isDigit_of_mem_toDigits (by omega) (by omega) (?_ : d ∈ Nat.toDigits 10 n)
    rw [hds]
    exact List.mem_cons_self
  have hnext : Token.next d (ds ++ rest) = some (.atom (.ofNat n), rest) := by
    rw [Token.next_digit hd, ← List.cons_append, ← hds, Token.unsigned_toDigits n hr, Value.ofNat,
      Nat.toString_eq_ofList_toDigits]
    rfl
  rw [Nat.toString_eq_ofList_toDigits, String.toList_ofList, hds, List.cons_append,
    tokenize_next (Token.isBlank_of_isDigit hd) hnext]
  rfl

theorem spells_string (s : Option String) : Spells (writeString s) [.atom (.string s)] := by
  intro rest hr
  cases s with
  | some s =>
    have hnext : Token.next '"' (Quoted.escape s.toList ++ '"' :: rest) = some (.atom (.string (some s)), rest) := by
      simp [Token.next, Quoted.scan_escape, Quoted.join_chars]
    have hquote : writeString (some s) ++ rest = '"' :: (Quoted.escape s.toList ++ '"' :: rest) := by
      simp [writeString, Quoted.quote]
    rw [hquote, tokenize_next rfl hnext]
    rfl
  | none =>
    have hnext : Token.next '"' ('\\' :: 'u' :: 'd' :: '8' :: '0' :: '0' :: '"' :: rest) =
        some (.atom (.string none), rest) := by
      simp only [Token.next, Quoted.scan]
      rfl
    exact tokenize_next rfl hnext

/-! ## Values -/

mutual

/-- The tokens of a value's text. -/
def Value.tokens : Value → List Token
  | .array [] => [.openArray, .closeArray]
  | .array (v :: vs) => .openArray :: (v.tokens ++ itemTokens vs ++ [.closeArray])
  | .object [] => [.openObject, .closeObject]
  | .object ((k, v) :: ms) =>
    .openObject :: .atom (.string k) :: .colon :: (v.tokens ++ memberTokens ms ++ [.closeObject])
  | v => [.atom v]

def itemTokens : List Value → List Token
  | [] => []
  | v :: vs => .comma :: (v.tokens ++ itemTokens vs)

def memberTokens : List (Option String × Value) → List Token
  | [] => []
  | (k, v) :: ms => .comma :: .atom (.string k) :: .colon :: (v.tokens ++ memberTokens ms)

end

namespace Value

/-- The numbers of the value are whole. -/
inductive Whole : Value → Prop
  | null : Whole .null
  | bool (b : Bool) : Whole (.bool b)
  | number (n : Nat) : Whole (.ofNat n)
  | string (s : Option String) : Whole (.string s)
  | array {vs : List Value} (h : ∀ v ∈ vs, Whole v) : Whole (.array vs)
  | object {ms : List (Option String × Value)} (h : ∀ m ∈ ms, Whole m.2) : Whole (.object ms)

theorem intercalate_write (v : Value) (vs : List Value) :
    ",".intercalate ((v :: vs).map write) = String.ofList (v.chars ++ itemChars vs) := by
  induction vs generalizing v with
  | nil => rw [List.map_singleton, String.intercalate_singleton, write, itemChars, List.append_nil]
  | cons w vs ih =>
    rw [List.map_cons, List.map_cons, String.intercalate_cons_cons, ← List.map_cons, ih, itemChars, List.cons_append,
      ← String.toList_inj]
    simp [write]

/-- An array is written as its items between brackets, with a comma after each but the last. -/
theorem write_array (vs : List Value) : (array vs).write = "[" ++ ",".intercalate (vs.map write) ++ "]" := by
  cases vs with
  | nil => decide
  | cons v vs =>
    rw [intercalate_write, write, chars, ← String.toList_inj]
    simp

theorem stops_itemChars (vs : List Value) {rest : List Char} (hr : Stops rest) : Stops (itemChars vs ++ rest) := by
  cases vs with
  | nil => exact hr
  | cons v vs => exact stops_cons (by decide) _

theorem stops_memberChars (ms : List (Option String × Value)) {rest : List Char} (hr : Stops rest) :
    Stops (memberChars ms ++ rest) := by
  cases ms with
  | nil => exact hr
  | cons m ms => exact stops_cons (by decide) _

theorem spells_itemChars {vs : List Value} (h : ∀ v ∈ vs, Spells v.chars v.tokens) :
    Spells (itemChars vs) (itemTokens vs) := by
  induction vs with
  | nil => exact spells_nil
  | cons v vs ih =>
    obtain ⟨hv, hvs⟩ := List.forall_mem_cons.mp h
    exact .cons rfl (fun _ => rfl) (hv.append (ih hvs) fun _ => stops_itemChars vs)

theorem spells_member (k : Option String) {v : Value} (hv : Spells v.chars v.tokens) :
    Spells (writeString k ++ ':' :: v.chars) (.atom (.string k) :: .colon :: v.tokens) :=
  (spells_string k).append (.cons rfl (fun _ => rfl) hv) fun _ _ => stops_cons (by decide) _

theorem spells_memberChars {ms : List (Option String × Value)} (h : ∀ m ∈ ms, Spells m.2.chars m.2.tokens) :
    Spells (memberChars ms) (memberTokens ms) := by
  induction ms with
  | nil => exact spells_nil
  | cons m ms ih =>
    obtain ⟨k, v⟩ := m
    obtain ⟨hv, hms⟩ := List.forall_mem_cons.mp h
    exact .cons rfl (fun _ => rfl) ((spells_member k hv).append (ih hms) fun _ => stops_memberChars ms)

/-- The text of a value whose numbers are whole is read as the tokens of the value. -/
theorem Whole.spells {v : Value} (h : v.Whole) : Spells v.chars v.tokens := by
  induction h with
  | null => exact fun rest _ => tokenize_next rfl rfl
  | bool b => cases b <;> exact fun rest _ => tokenize_next rfl rfl
  | number n => exact spells_number n
  | string s => exact spells_string s
  | @array vs _ ih =>
    cases vs with
    | nil => exact .cons rfl (fun _ => rfl) (spells_single rfl fun _ => rfl)
    | cons v vs =>
      obtain ⟨hv, hvs⟩ := List.forall_mem_cons.mp ih
      have hitems := hv.append (spells_itemChars hvs) fun _ => stops_itemChars vs
      have hclose : Spells [']'] [.closeArray] := spells_single rfl fun _ => rfl
      exact .cons rfl (fun _ => rfl) (hitems.append hclose fun _ _ => stops_cons (by decide) _)
  | @object ms _ ih =>
    cases ms with
    | nil => exact .cons rfl (fun _ => rfl) (spells_single rfl fun _ => rfl)
    | cons m ms =>
      obtain ⟨k, v⟩ := m
      obtain ⟨hv, hms⟩ := List.forall_mem_cons.mp ih
      have hmembers := (spells_member k hv).append (spells_memberChars hms) fun _ => stops_memberChars ms
      have hclose : Spells ['}'] [.closeObject] := spells_single rfl fun _ => rfl
      exact .cons rfl (fun _ => rfl) (hmembers.append hclose fun _ _ => stops_cons (by decide) _)

end Value

end Triage.Json
