/-
  Triage.Proofs.Scan.Scans — steps of a scanner that end without a fault.

  A scanner is `Sound` if its cursor and all its answers count the characters before their byte offsets, and all its
  cuts lie within the query and between characters. `Scans m ahead r` says of a step that from every sound scanner
  with these pieces ahead it ends with the result `r`, and in a sound scanner. So what a step brings depends on the
  pieces alone, not on what was counted before: there is one rule for each way to put steps together, and one for each
  step that looks at the query. In a sound scanner a conversion is the same as counting from the start, faults
  included, and so is any sequence of them (`charOffsets_eq`).
-/

import Triage.Proofs.Scan.Lexeme
import Triage.Proofs.Text

namespace Triage.Scan

open Query

variable {source : List Char} {ahead : List Piece} {α β : Type}

/-! ## Counting -/

/-- The first bytes of the query, up to the offset, are so many whole characters. -/
def Counted (source : List Char) (c : Cursor) : Prop :=
  ∃ front back, source = front ++ back ∧ String.utf8Len front = c.byte ∧ front.length = c.chars

theorem Counted.front {front back : List Char} (h : source = front ++ back) :
    Counted source ⟨String.utf8Len front, front.length⟩ := ⟨front, back, h, rfl, rfl⟩

theorem Counted.zero : Counted source ⟨0, 0⟩ := ⟨[], source, rfl, rfl, rfl⟩

/-- Of two places, what is between them starts where the first is. -/
theorem Counted.between {c d : Cursor} (hc : Counted source c) (hd : Counted source d) (h : c.byte ≤ d.byte) :
    ∃ x, Text.slice c.byte d.byte source = some x ∧ c.chars + x.length = d.chars := by
  obtain ⟨front, back, hfront, hbyte, hchars⟩ := hc
  obtain ⟨front', back', hfront', hbyte', hchars'⟩ := hd
  have hprefix : front <+: front' := by
    rcases List.prefix_or_prefix_of_prefix ⟨back, hfront.symm⟩ ⟨back', hfront'.symm⟩ with hp | ⟨x, hx⟩
    · exact hp
    · -- The second place is not after the first, so nothing is between them.
      have hlen := congrArg String.utf8Len hx
      rw [String.utf8Len_append] at hlen
      have hnil : x = [] := String.utf8Len_eq_zero.mp (by omega)
      rw [hnil, List.append_nil] at hx
      exact hx ▸ List.prefix_rfl
  obtain ⟨x, rfl⟩ := hprefix
  refine ⟨x, Text.slice_eq_some_iff.mpr ⟨front, back', hfront', hbyte, hbyte'⟩, ?_⟩
  rw [← hchars, ← hchars', List.length_append]

/-- How many characters there are before a byte offset, counted from the start. There is no answer beyond the query or
within a character. -/
def countBefore (source : List Char) (byte : Nat) : Option Nat := (Text.takeBytes byte source).map List.length

theorem countBefore_eq_some_iff {byte n : Nat} : countBefore source byte = some n ↔ Counted source ⟨byte, n⟩ := by
  rw [countBefore, Option.map_eq_some_iff]
  constructor
  · rintro ⟨front, hfront, hn⟩
    obtain ⟨⟨back, hback⟩, hbyte⟩ := Text.takeBytes_eq_some_iff.mp hfront
    exact ⟨front, back, hback.symm, hbyte, hn⟩
  · rintro ⟨front, back, hsource, hbyte, hn⟩
    exact ⟨front, Text.takeBytes_eq_some_iff.mpr ⟨⟨back, hsource.symm⟩, hbyte⟩, hn⟩

/-- Text that can be cut out ends at a place that can be counted. -/
theorem countBefore_of_slice {start stop : Nat} {x : List Char} (h : Text.slice start stop source = some x) :
    ∃ n, countBefore source stop = some n := by
  obtain ⟨front, back, rfl, -, hstop⟩ := Text.slice_eq_some_iff.mp h
  exact ⟨(front ++ x).length, countBefore_eq_some_iff.mpr ⟨front ++ x, back, rfl, hstop, rfl⟩⟩

/-! ## Sound scanners -/

structure Sound (source : List Char) (s : Scanner) : Prop where
  cursor : Counted source s.cursor
  conversions : ∀ c ∈ s.conversions, Counted source c
  cuts : ∀ p ∈ s.cuts, ∃ x, Text.slice p.1 p.2 source = some x

theorem sound_start : Sound source (.start source) :=
  ⟨.zero, fun _ hc => absurd hc List.not_mem_nil, fun _ hp => absurd hp List.not_mem_nil⟩

/-! ## Steps -/

namespace Step

variable {m : Step α} {f : α → Step β} {s t : Scanner}

theorem bind_ok {a : α} (h : m s = some (.ok a, t)) : (m >>= f) s = f a t := by
  show (m s).bind (fun p => ExceptT.bindCont f p.1 p.2) = _
  rw [h]
  rfl

theorem bind_error {e : Error} (h : m s = some (.error e, t)) : (m >>= f) s = some (.error e, t) := by
  show (m s).bind (fun p => ExceptT.bindCont f p.1 p.2) = _
  rw [h]
  rfl

theorem bind_fault (h : m s = none) : (m >>= f) s = none := by
  show (m s).bind (fun p => ExceptT.bindCont f p.1 p.2) = _
  rw [h]
  rfl

end Step

/-- The step ends with the result; if that is no error, it leaves the pieces beside it ahead. -/
def Scans (source : List Char) (m : Step α) (ahead : List Piece) (r : Except Error (α × List Piece)) : Prop :=
  ∀ s : Scanner, Sound source s → s.ahead = ahead → ∃ t, m s = some (r.map Prod.fst, t) ∧ Sound source t ∧
    t.finished = s.finished ∧ ∀ p, r = .ok p → t.ahead = p.2

namespace Scans

theorem pure (a : α) : Scans source (Pure.pure a) ahead (.ok (a, ahead)) := by
  intro s hs ha
  refine ⟨s, rfl, hs, rfl, ?_⟩
  rintro _ ⟨⟩
  exact ha

theorem throw (e : Error) : Scans source (throw e : Step α) ahead (.error e) := by
  intro s hs _
  exact ⟨s, rfl, hs, rfl, fun _ hp => by cases hp⟩

theorem bind {m : Step α} {f : α → Step β} {mid : List Piece} {a : α} {r : Except Error (β × List Piece)}
    (hm : Scans source m ahead (.ok (a, mid))) (hf : Scans source (f a) mid r) : Scans source (m >>= f) ahead r := by
  intro s hs ha
  obtain ⟨t, hrun, ht, hfin, hmid⟩ := hm s hs ha
  obtain ⟨u, hrun', hu, hfin', hahead⟩ := hf t ht (hmid _ rfl)
  exact ⟨u, (Step.bind_ok hrun).trans hrun', hu, hfin'.trans hfin, hahead⟩

theorem bind_error {m : Step α} {f : α → Step β} {e : Error} (hm : Scans source m ahead (.error e)) :
    Scans source (m >>= f) ahead (.error e) := by
  intro s hs ha
  obtain ⟨t, hrun, ht, hfin, -⟩ := hm s hs ha
  exact ⟨t, Step.bind_error hrun, ht, hfin, fun _ hp => by cases hp⟩

/-- A change of the scanner that keeps it sound. -/
theorem modify {f : Scanner → Scanner} {ahead' : List Piece}
    (h : ∀ s, Sound source s → s.ahead = ahead →
      Sound source (f s) ∧ (f s).finished = s.finished ∧ (f s).ahead = ahead') :
    Scans source (modify f : Step Unit) ahead (.ok ((), ahead')) := by
  intro s hs ha
  obtain ⟨ht, hfin, hahead⟩ := h s hs ha
  refine ⟨f s, rfl, ht, hfin, ?_⟩
  rintro _ ⟨⟩
  exact hahead

/-- What follows may look at the scanner. -/
theorem get {f : Scanner → Step β} {r : Except Error (β × List Piece)}
    (h : ∀ s, Sound source s → s.ahead = ahead → Scans source (f s) ahead r) :
    Scans source (MonadState.get >>= f) ahead r := fun s hs ha => h s hs ha s hs ha

end Scans

/-! ## Cuts -/

theorem cut_scans {start stop : Nat} {x : List Char} (h : Text.slice start stop source = some x) :
    Scans source (cut source start stop) ahead (.ok (x, ahead)) := by
  have hlift : Scans source (liftM (Text.slice start stop source) : Step (List Char)) ahead (.ok (x, ahead)) := by
    rw [h]
    exact Scans.pure x
  refine hlift.bind (Scans.bind (Scans.modify fun s hs ha => ⟨⟨hs.cursor, hs.conversions, ?_⟩, rfl, ha⟩) (Scans.pure x))
  exact List.forall_mem_cons.mpr ⟨⟨x, h⟩, hs.cuts⟩

theorem slice_append (front x back : List Char) :
    Text.slice (String.utf8Len front) (String.utf8Len (front ++ x)) (front ++ x ++ back) = some x :=
  Text.slice_eq_some_iff.mpr ⟨front, back, rfl, rfl, rfl⟩

theorem cutFrom_scans {front back : List Char} (h : source = front ++ back) :
    Scans source (cutFrom source (String.utf8Len front)) ahead (.ok (back, ahead)) := by
  refine cut_scans ?_
  have hslice := slice_append front back []
  rwa [List.append_nil, ← h] at hslice

/-! ## Offsets -/

/-- Wherever the scanner counted before, it finds the number of characters before the offset. -/
theorem charOffset_scans {c : Cursor} (h : Counted source c) :
    Scans source (charOffset source c.byte) ahead (.ok (c.chars, ahead)) := by
  refine Scans.get fun s hs _ => ?_
  obtain ⟨hknown, hle⟩ : Counted source (if s.cursor.byte ≤ c.byte then s.cursor else ⟨0, 0⟩) ∧
      (if s.cursor.byte ≤ c.byte then s.cursor else ⟨0, 0⟩ : Cursor).byte ≤ c.byte := by
    split
    · exact ⟨hs.cursor, ‹_›⟩
    · exact ⟨.zero, Nat.zero_le _⟩
  obtain ⟨x, hx, hchars⟩ := hknown.between h hle
  refine (cut_scans hx).bind ?_
  dsimp only
  rw [hchars]
  refine Scans.bind (Scans.modify fun t ht ha => ⟨⟨h, ?_, ht.cuts⟩, rfl, ha⟩) (Scans.pure _)
  exact List.forall_mem_cons.mpr ⟨h, ht.conversions⟩

/-- Where there is nothing to count, the conversion is a fault. -/
theorem charOffset_of_countBefore {byte : Nat} (h : countBefore source byte = none) (s : Scanner) :
    charOffset source byte s = none := by
  have hcut (start : Nat) : cut source start byte s = none := by
    cases hx : Text.slice start byte source with
    | none =>
      rw [cut, hx]
      rfl
    | some x =>
      obtain ⟨n, hn⟩ := countBefore_of_slice hx
      rw [h] at hn
      cases hn
  exact (Step.bind_ok rfl).trans (Step.bind_fault (hcut _))

/-- Any offsets, one after the other and in any order, are converted as by counting each from the start. -/
theorem charOffsets_eq (offsets : List Nat) {s : Scanner} (hs : Sound source s) :
    ((offsets.mapM (charOffset source)) s).map Prod.fst = (offsets.mapM (countBefore source)).map Except.ok := by
  induction offsets generalizing s with
  | nil => rfl
  | cons byte offsets ih =>
    rw [List.mapM_cons, List.mapM_cons]
    cases h : countBefore source byte with
    | none =>
      rw [Step.bind_fault (charOffset_of_countBefore h s)]
      rfl
    | some n =>
      obtain ⟨t, hrun, ht, -, -⟩ := charOffset_scans (countBefore_eq_some_iff.mp h) s hs rfl
      rw [Step.bind_ok hrun]
      cases hns : offsets.mapM (countBefore source) with
      | none =>
        have hfault := ih ht
        rw [hns, Option.map_none, Option.map_eq_none_iff] at hfault
        rw [Step.bind_fault hfault]
        rfl
      | some ns =>
        have hmore := ih ht
        rw [hns, Option.map_some, Option.map_eq_some_iff] at hmore
        obtain ⟨⟨_, u⟩, hmore, rfl⟩ := hmore
        rw [Step.bind_ok hmore]
        rfl

/-- An error where `rest` is left of the query. -/
theorem fail_scans {front rest : List Char} (h : source = front ++ rest) (cause : Cause) :
    Scans source (fail source cause (String.utf8Len front) : Step α) ahead (Token.fail source.length cause rest) := by
  have hposition : source.length - rest.length = front.length := by
    rw [h, List.length_append, Nat.add_sub_cancel]
  rw [Token.fail, hposition]
  exact (charOffset_scans (Counted.front h)).bind (Scans.throw _)

theorem symbolAt_scans {c : Cursor} (h : Counted source c) (symbol : Symbol) :
    Scans source (symbolAt source symbol c.byte) ahead (.ok (⟨symbol, c.chars⟩, ahead)) :=
  (charOffset_scans h).bind (Scans.pure _)

/-! ## Pieces -/

theorem skip_scans {p : Piece} : Scans source skip (p :: ahead) (.ok ((), ahead)) := by
  refine Scans.modify fun s hs ha => ⟨⟨hs.cursor, hs.conversions, hs.cuts⟩, rfl, ?_⟩
  rw [ha, List.tail_cons]

theorem adjacent_scans (byte : Nat) : Scans source (adjacent byte) ahead (.ok (adjacentTo byte ahead, ahead)) := by
  refine Scans.get fun s _ ha => ?_
  rw [ha]
  exact Scans.pure _

end Triage.Scan
