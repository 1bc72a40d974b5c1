/-
  Triage.Proofs.Text — where text can be cut.

  A cut at a byte count gives the characters before it (`takeBytes_eq_some_iff`), which are what the bytes up to there
  spell (`slice?_eq`), and there is one just at the places between characters (`exists_takeBytes_iff`). A cut at both
  ends gives what stands between two such places (`slice_eq_some_iff`).
-/

import Mathlib.Data.String.Basic
import Mathlib.Data.List.Basic
import Triage.Text

namespace Triage.Text

/-! ## Small letters -/

theorem utf8Size_toLower (c : Char) : c.toLower.utf8Size = c.utf8Size := by
  unfold Char.toLower
  split
  · rename_i h
    have hA : ('A'.val : UInt32).toNat = 65 := rfl
    have hZ : ('Z'.val : UInt32).toNat = 90 := rfl
    have hs : ('a'.val - 'A'.val : UInt32).toNat = 32 := rfl
    have hlast : (127 : UInt32).toNat = 127 := rfl
    simp only [ge_iff_le, UInt32.le_iff_toNat_le, hA, hZ] at h
    have hcapital : c.utf8Size = 1 := by
      rw [Char.utf8Size_eq_one_iff, UInt32.le_iff_toNat_le, hlast]
      omega
    rw [hcapital, Char.utf8Size_eq_one_iff, UInt32.le_iff_toNat_le, UInt32.toNat_add, hs, hlast]
    omega
  · rfl

theorem utf8Len_map_toLower (cs : List Char) : String.utf8Len (cs.map Char.toLower) = String.utf8Len cs := by
  induction cs with
  | nil => rfl
  | cons c cs ih => rw [List.map_cons, String.utf8Len_cons, String.utf8Len_cons, ih, utf8Size_toLower]

/-! ## Cuts -/

/-- A cut gives the start of the text that has so many bytes. -/
theorem takeBytes_eq_some_iff {n : Nat} {cs ds : List Char} :
    takeBytes n cs = some ds ↔ ds <+: cs ∧ String.utf8Len ds = n := by
  fun_induction takeBytes n cs generalizing ds with
  | case1 cs =>
    rw [Option.some_inj, String.utf8Len_eq_zero]
    exact ⟨fun h => h ▸ ⟨List.nil_prefix, rfl⟩, fun h => h.2.symm⟩
  | case2 n =>
    constructor
    · rintro ⟨⟩
    · rintro ⟨h, hn⟩
      rw [List.prefix_nil.mp h] at hn
      cases hn
  | case3 n c cs hc ih =>
    rw [Option.map_eq_some_iff]
    constructor
    · rintro ⟨es, hes, rfl⟩
      obtain ⟨hfront, hn⟩ := ih.mp hes
      exact ⟨(List.prefix_cons_inj c).mpr hfront, by rw [String.utf8Len_cons]; omega⟩
    · rintro ⟨h, hn⟩
      cases ds with
      | nil => cases hn
      | cons d ds =>
        obtain ⟨rfl, hfront⟩ := List.cons_prefix_cons.mp h
        rw [String.utf8Len_cons] at hn
        exact ⟨ds, ih.mpr ⟨hfront, by omega⟩, rfl⟩
  | case4 n c cs hc =>
    constructor
    · rintro ⟨⟩
    · rintro ⟨h, hn⟩
      cases ds with
      | nil => cases hn
      | cons d ds =>
        obtain ⟨rfl, -⟩ := List.cons_prefix_cons.mp h
        rw [String.utf8Len_cons] at hn
        omega

/-- A cut at both ends gives what stands between two places of the text. -/
theorem slice_eq_some_iff {start stop : Nat} {cs x : List Char} :
    slice start stop cs = some x ↔
      ∃ front back, cs = front ++ x ++ back ∧ String.utf8Len front = start ∧ String.utf8Len (front ++ x) = stop := by
  rw [slice]
  constructor
  · intro h
    split at h
    · rename_i hle
      obtain ⟨front, hfront, hx⟩ := Option.bind_eq_some_iff.mp h
      obtain ⟨⟨rest, rfl⟩, hstart⟩ := takeBytes_eq_some_iff.mp hfront
      rw [List.drop_left] at hx
      obtain ⟨⟨back, rfl⟩, hstop⟩ := takeBytes_eq_some_iff.mp hx
      refine ⟨front, back, (List.append_assoc _ _ _).symm, hstart, ?_⟩
      rw [String.utf8Len_append, hstart, hstop, Nat.add_sub_cancel' hle]
    · cases h
  · rintro ⟨front, back, rfl, rfl, rfl⟩
    have hfront : takeBytes (String.utf8Len front) (front ++ x ++ back) = some front :=
      takeBytes_eq_some_iff.mpr ⟨by rw [List.append_assoc]; exact List.prefix_append _ _, rfl⟩
    have hx : takeBytes (String.utf8Len x) (x ++ back) = some x :=
      takeBytes_eq_some_iff.mpr ⟨List.prefix_append _ _, rfl⟩
    rw [if_pos (by rw [String.utf8Len_append]; exact Nat.le_add_right _ _), hfront, Option.bind_some,
      String.utf8Len_append, Nat.add_sub_cancel_left, List.append_assoc, List.drop_left, hx]

/-! ## Bytes of a text -/

theorem utf8ByteSize_eq (s : String) : s.utf8ByteSize = String.utf8Len s.toList := by
  rw [← String.utf8ByteSize_ofList, String.ofList_toList]

/-- The first `n` bytes of a text, if they are within it and are text themselves. -/
def slice? (s : String) (n : Nat) : Option String :=
  if n ≤ s.utf8ByteSize then String.fromUTF8? (s.toByteArray.extract 0 n) else none

/-- A text can be cut at a byte count just where that is a place between characters. -/
theorem exists_takeBytes_iff {s : String} {n : Nat} :
    (∃ cs, takeBytes n s.toList = some cs) ↔ (String.Pos.Raw.mk n).IsValid s := by
  simp only [takeBytes_eq_some_iff, String.Pos.Raw.isValid_iff_exists_append]
  constructor
  · rintro ⟨cs, ⟨ds, hcs⟩, hn⟩
    refine ⟨String.ofList cs, String.ofList ds, ?_, ?_⟩
    · rw [← String.ofList_append, hcs, String.ofList_toList]
    · rw [String.Pos.Raw.ext_iff, String.byteIdx_rawEndPos, String.utf8ByteSize_ofList, hn]
  · rintro ⟨front, back, rfl, hn⟩
    rw [String.Pos.Raw.ext_iff, String.byteIdx_rawEndPos, utf8ByteSize_eq] at hn
    exact ⟨front.toList, ⟨back.toList, String.toList_append.symm⟩, hn.symm⟩

/-- A cut at both ends goes from one place between characters to another, which does not come before it. -/
theorem isValid_of_slice {s : String} {start stop : Nat} {x : List Char}
    (h : slice start stop s.toList = some x) :
    start ≤ stop ∧ (String.Pos.Raw.mk start).IsValid s ∧ (String.Pos.Raw.mk stop).IsValid s := by
  obtain ⟨front, back, hs, rfl, rfl⟩ := slice_eq_some_iff.mp h
  refine ⟨?_, ?_, ?_⟩
  · rw [String.utf8Len_append]
    exact Nat.le_add_right _ _
  · exact exists_takeBytes_iff.mp
      ⟨front, takeBytes_eq_some_iff.mpr ⟨⟨x ++ back, by rw [hs, List.append_assoc]⟩, rfl⟩⟩
  · exact exists_takeBytes_iff.mp ⟨front ++ x, takeBytes_eq_some_iff.mpr ⟨⟨back, hs.symm⟩, rfl⟩⟩

theorem fromUTF8?_toByteArray (s : String) : String.fromUTF8? s.toByteArray = some s := by
  rw [String.fromUTF8?, dif_pos s.isValidUTF8]
  rfl

theorem slice?_eq (s : String) (n : Nat) : slice? s n = (takeBytes n s.toList).map String.ofList := by
  rw [slice?]
  cases h : takeBytes n s.toList with
  | some cs =>
    obtain ⟨⟨ds, hcs⟩, hn⟩ := takeBytes_eq_some_iff.mp h
    have hs : s = String.ofList cs ++ String.ofList ds := by rw [← String.ofList_append, hcs, String.ofList_toList]
    have hsize : (String.ofList cs).toByteArray.size = n := by rw [← hn, ← String.utf8ByteSize_ofList]; rfl
    rw [if_pos (by rw [hs, String.utf8ByteSize_append, String.utf8ByteSize_ofList]; omega), hs,
      String.toByteArray_append, ← hsize, ByteArray.extract_append_size_left, ByteArray.extract_zero_size]
    exact fromUTF8?_toByteArray _
  | none =>
    split
    · rename_i hn
      rw [String.fromUTF8?, dif_neg]
      · rfl
      · intro hutf
        have hvalid := String.Pos.Raw.isValid_iff_isValidUTF8_extract_zero.mpr ⟨hn, hutf⟩
        obtain ⟨cs, hcs⟩ := exists_takeBytes_iff.mpr hvalid
        rw [h] at hcs
        cases hcs
    · rfl

end Triage.Text
