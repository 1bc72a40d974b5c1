/-
  Triage.Proofs.Untriaged — an issue is untriaged exactly if it is no pull request and lacks what triage gives.

  Which labels belong to a set is told by their characters. A prefix is compared with as many bytes of a label as it
  has itself. Making a letter small keeps its bytes, so what is cut off are as many characters as the prefix has, and a
  label has the prefix just when its small spelling starts with that of the prefix (`startsWith_iff`). So only the small
  spellings of names, prefixes and labels count (`contains_iff`), and how many labels belong to a set does not depend on
  their order (`count_congr`). A label is cut at a byte count only where the byte that follows starts a character, so the
  test over bytes never cuts a character (`startsWithBytes_eq`).

  Each flag stands for one reason (`Reason`) and has a bit of its own (`has_iff_testBit`). A flag is set if its reason
  holds of an issue that is no pull request (`has_flags_iff`). A set of labels gives no flag exactly if one entry of the
  labels belongs to it (`count_eq_one_iff`), and labels cannot be missing and too many at once.
-/

import Mathlib.Data.Nat.Bitwise
import Triage.Proofs.Text
import Triage.Untriaged

namespace Triage

/-! ## Labels of a set -/

namespace LabelSet

/-- The same set with its names and prefixes in small letters. -/
def folded (s : LabelSet) : LabelSet := ⟨s.names.map Text.fold, s.prefixes.map Text.fold⟩

theorem startsWith_iff {label start : String} :
    startsWith label start = true ↔ (Text.fold start).toList <+: (Text.fold label).toList := by
  rw [startsWith, Text.toList_fold, Text.toList_fold, Text.utf8ByteSize_eq]
  constructor
  · intro h
    split at h
    · rename_i cs hcs
      obtain ⟨hfront, -⟩ := Text.takeBytes_eq_some_iff.mp hcs
      have hsame := congrArg String.toList (Text.sameName_iff.mp h)
      rw [Text.toList_fold, Text.toList_fold, String.toList_ofList] at hsame
      exact hsame ▸ hfront.map Char.toLower
    · cases h
  · intro h
    -- the characters of the label that stand where those of the prefix are have as many bytes
    have htake : start.toList.map Char.toLower = (label.toList.take start.toList.length).map Char.toLower := by
      rw [List.map_take, ← List.length_map (f := Char.toLower)]
      exact List.prefix_iff_eq_take.mp h
    have hbytes : String.utf8Len (label.toList.take start.toList.length) = String.utf8Len start.toList := by
      rw [← Text.utf8Len_map_toLower, ← htake, Text.utf8Len_map_toLower]
    rw [Text.takeBytes_eq_some_iff.mpr ⟨List.take_prefix _ _, hbytes⟩]
    show Text.sameName (String.ofList _) start = true
    rw [Text.sameName_iff, Text.fold, String.toList_ofList, ← htake, Text.fold]

/-- The prefix test over bytes: of a label as long as the prefix that can be cut where the prefix ends, the bytes up to
    there are compared. `none` if they were not within the label or cut a character. -/
def startsWithBytes (label start : String) : Option Bool :=
  if start.utf8ByteSize ≤ label.utf8ByteSize && String.Pos.Raw.isValid label ⟨start.utf8ByteSize⟩ then
    (Text.slice? label start.utf8ByteSize).map (Text.sameName · start)
  else some false

theorem startsWithBytes_eq (label start : String) : startsWithBytes label start = some (startsWith label start) := by
  rw [startsWithBytes, startsWith, Text.slice?_eq]
  cases h : Text.takeBytes start.utf8ByteSize label.toList with
  | some cs =>
    have hvalid := Text.exists_takeBytes_iff.mp ⟨cs, h⟩
    have hguard :
        (start.utf8ByteSize ≤ label.utf8ByteSize && String.Pos.Raw.isValid label ⟨start.utf8ByteSize⟩) = true := by
      rw [Bool.and_eq_true, decide_eq_true_eq, String.Pos.Raw.isValid_eq_true_iff]
      exact ⟨hvalid.le_utf8ByteSize, hvalid⟩
    rw [if_pos hguard]
    rfl
  | none =>
    rw [if_neg]
    intro hguard
    rw [Bool.and_eq_true, String.Pos.Raw.isValid_eq_true_iff] at hguard
    obtain ⟨cs, hcs⟩ := Text.exists_takeBytes_iff.mpr hguard.2
    rw [h] at hcs
    cases hcs

theorem contains_iff {s : LabelSet} {label : String} : s.contains label = true ↔
    Text.fold label ∈ s.folded.names ∨ ∃ start ∈ s.folded.prefixes, start.toList <+: (Text.fold label).toList := by
  simp only [contains, folded, Bool.or_eq_true, List.any_eq_true, Text.sameName_iff, startsWith_iff, List.mem_map,
    exists_exists_and_eq_and]

theorem contains_congr {s s' : LabelSet} {label label' : String} (hs : s.folded = s'.folded)
    (hl : Text.fold label = Text.fold label') : s.contains label = s'.contains label' := by
  rw [Bool.eq_iff_iff, contains_iff, contains_iff, hs, hl]

/-- Neither the case of the labels nor their order counts. -/
theorem count_congr {s s' : LabelSet} {labels labels' : List String} (hs : s.folded = s'.folded)
    (hl : (labels.map Text.fold).Perm (labels'.map Text.fold)) : s.count labels = s'.count labels' := by
  have hfold : ∀ (t : LabelSet) (ls : List String), t.count ls = (ls.map Text.fold).countP t.contains := by
    intro t ls
    rw [count, ← List.countP_eq_length_filter, List.countP_map]
    exact List.countP_congr fun l _ => by rw [Function.comp_apply, contains_congr rfl (Text.fold_fold l).symm]
  rw [hfold, hfold, hl.countP_eq]
  exact List.countP_congr fun l _ => by rw [contains_congr hs rfl]

/-! ## Entries that belong to a set -/

/-- The label is one of the names, or one of the prefixes starts it, letter by letter in any ASCII case. -/
def Has (s : LabelSet) (label : String) : Prop :=
  (∃ name ∈ s.names, Text.fold name = Text.fold label) ∨
    ∃ start ∈ s.prefixes, (Text.fold start).toList <+: (Text.fold label).toList

theorem contains_iff_has {s : LabelSet} {label : String} : s.contains label = true ↔ s.Has label := by
  simp only [contains, Has, Bool.or_eq_true, List.any_eq_true, Text.sameName_iff, startsWith_iff]

/-- One entry of the list has the property and no other. -/
def ExactlyOne (p : String → Prop) (labels : List String) : Prop :=
  ∃ front label back, labels = front ++ label :: back ∧ p label ∧ (∀ l ∈ front, ¬ p l) ∧ ∀ l ∈ back, ¬ p l

theorem count_eq_one_iff {s : LabelSet} {labels : List String} : s.count labels = 1 ↔ ExactlyOne s.Has labels := by
  simp only [count, List.length_eq_one_iff, List.filter_eq_cons_iff, List.filter_eq_nil_iff, contains_iff_has]
  constructor
  · rintro ⟨label, front, back, rfl, hfront, hlabel, hback⟩
    exact ⟨front, label, back, rfl, hlabel, hfront, hback⟩
  · rintro ⟨front, label, back, rfl, hlabel, hfront, hback⟩
    exact ⟨label, front, back, rfl, hfront, hlabel, hback⟩

end LabelSet

/-! ## Flags and their reasons -/

namespace Untriaged

theorem Flag.toNat_mask (f : Flag) : f.mask.toNat = 2 ^ f.bit.toNat := by
  cases f <;> rfl

theorem Flag.bit_inj {f g : Flag} : f.bit.toNat = g.bit.toNat ↔ f = g := by
  cases f <;> cases g <;> decide

theorem Flag.exists_bit {i : Nat} (hi : i < 5) : ∃ f : Flag, f.bit.toNat = i := by
  match i, hi with
  | 0, _ => exact ⟨.missingArea, rfl⟩
  | 1, _ => exact ⟨.multipleAreas, rfl⟩
  | 2, _ => exact ⟨.missingIssueType, rfl⟩
  | 3, _ => exact ⟨.multipleIssueTypes, rfl⟩
  | 4, _ => exact ⟨.missingMilestone, rfl⟩

namespace Flags

variable {a b : Flags} {f g : Flag}

/-- A set has a flag if the bit of the flag is set. -/
theorem has_iff_testBit : a.has f = true ↔ a.bits.toNat.testBit f.bit.toNat = true := by
  have hand : (a.bits &&& f.mask).toNat = (a.bits.toNat.testBit f.bit.toNat).toNat * f.mask.toNat := by
    rw [UInt8.toNat_and, f.toNat_mask, Nat.and_two_pow]
  have hpos : 0 < f.mask.toNat := f.toNat_mask ▸ Nat.two_pow_pos f.bit.toNat
  rw [has, contains, only, beq_iff_eq, ← UInt8.toNat_inj, hand]
  cases a.bits.toNat.testBit f.bit.toNat with
  | true => simp
  | false =>
    rw [Bool.toNat_false, Nat.zero_mul]
    simp [Nat.ne_of_lt hpos]

theorem isEmpty_eq_false_iff : a.isEmpty = false ↔ ∃ f, a.has f = true := by
  rw [isEmpty, beq_eq_false_iff_ne]
  constructor
  · intro hne
    by_contra hnone
    refine hne (UInt8.toNat_inj.mp (Nat.eq_of_testBit_eq fun i => ?_))
    rw [UInt8.toNat_zero, Nat.zero_testBit]
    by_cases hi : i < 5
    · obtain ⟨f, rfl⟩ := Flag.exists_bit hi
      exact Bool.eq_false_iff.mpr fun hf => hnone ⟨f, has_iff_testBit.mpr hf⟩
    · -- no flag has a bit from the sixth on
      have hlt : a.bits.toNat < 2 ^ 5 := UInt8.lt_iff_toNat_lt.mp a.bits_lt
      exact Nat.testBit_lt_two_pow (Nat.lt_of_lt_of_le hlt (Nat.pow_le_pow_right (by decide) (Nat.le_of_not_lt hi)))
  · rintro ⟨f, hf⟩ hzero
    rw [has_iff_testBit, hzero, UInt8.toNat_zero, Nat.zero_testBit] at hf
    cases hf

theorem has_union : (a.union b).has f = true ↔ a.has f = true ∨ b.has f = true := by
  rw [has_iff_testBit, has_iff_testBit, has_iff_testBit, union, UInt8.toNat_or, Nat.testBit_or, Bool.or_eq_true]

theorem has_only : (only f).has g = true ↔ g = f := by
  rw [has_iff_testBit, only, f.toNat_mask, Nat.testBit_two_pow, decide_eq_true_eq, Flag.bit_inj, eq_comm]

theorem not_has_none : ¬ none.has f = true := by
  rw [has_iff_testBit]
  exact Nat.zero_testBit _ ▸ Bool.false_ne_true

end Flags

end Untriaged

namespace UntriagedConfig

open Untriaged (Flag Flags)

variable {c : UntriagedConfig} {i : Issue} {f : Flag}

theorem has_countFlags_iff {missing multiple : Flag} {n : Nat} :
    (countFlags missing multiple n).has f = true ↔ f = missing ∧ n = 0 ∨ f = multiple ∧ 1 < n := by
  match n with
  | 0 => simp [countFlags, Flags.has_only]
  | 1 => simp [countFlags, Flags.not_has_none]
  | n + 2 => simp [countFlags, Flags.has_only]

/-- What a flag says of an issue. -/
def Reason (c : UntriagedConfig) (i : Issue) : Flag → Prop
  | .missingArea => c.areaLabels.count i.labels = 0
  | .multipleAreas => 1 < c.areaLabels.count i.labels
  | .missingIssueType => c.issueTypeLabels.count i.labels = 0
  | .multipleIssueTypes => 1 < c.issueTypeLabels.count i.labels
  | .missingMilestone => c.requireMilestone = true ∧ i.milestone = none

theorem has_flags_iff : (c.flags i).has f = true ↔ i.kind ≠ .pullRequest ∧ c.Reason i f := by
  have hmilestone : ∀ {b : Bool}, (if b = true then Flags.only .missingMilestone else .none).has f = true ↔
      f = .missingMilestone ∧ b = true := by
    intro b
    cases b <;> simp [Flags.has_only, Flags.not_has_none]
  rw [flags]
  split
  · rename_i hk
    simp [hk, Flags.not_has_none]
  all_goals
    rename_i hk
    rw [Flags.has_union, Flags.has_union, has_countFlags_iff, has_countFlags_iff, hmilestone]
    cases f <;> simp [hk, Reason]

theorem isUntriaged_iff_reason : c.isUntriaged i = true ↔ i.kind ≠ .pullRequest ∧ ∃ f, c.Reason i f := by
  rw [isUntriaged, Bool.not_eq_true', Flags.isEmpty_eq_false_iff]
  simp only [has_flags_iff, exists_and_left]

/-- There is no reason exactly if each set has one entry of the labels and a milestone is there where it has to be. -/
theorem forall_not_reason_iff : (∀ f, ¬ c.Reason i f) ↔
    c.areaLabels.count i.labels = 1 ∧ c.issueTypeLabels.count i.labels = 1 ∧
      (c.requireMilestone = true → ∃ m, i.milestone = some m) := by
  constructor
  · intro h
    have harea := h .missingArea
    have hareas := h .multipleAreas
    have htype := h .missingIssueType
    have htypes := h .multipleIssueTypes
    simp only [Reason] at harea hareas htype htypes
    refine ⟨by omega, by omega, fun hr => Option.ne_none_iff_exists'.mp fun hm => h .missingMilestone ⟨hr, hm⟩⟩
  · rintro ⟨harea, htype, hmilestone⟩ f hf
    cases f with
    | missingArea | multipleAreas =>
      simp only [Reason] at hf
      omega
    | missingIssueType | multipleIssueTypes =>
      simp only [Reason] at hf
      omega
    | missingMilestone =>
      obtain ⟨m, hm⟩ := hmilestone hf.1
      cases hf.2.symm.trans hm

/-- An issue is untriaged exactly if it is no pull request and not so that one entry of its labels belongs to the areas,
    one to the issue types, and it has a milestone where one is required. The flags never say that labels of a set are
    missing and too many, and the prefix test over bytes only cuts a label where it can be cut, with the same answer. -/
theorem isUntriaged_iff_lacks (c : UntriagedConfig) (i : Issue) :
    (c.isUntriaged i = true ↔ i.kind ≠ .pullRequest ∧
      ¬ (LabelSet.ExactlyOne c.areaLabels.Has i.labels ∧ LabelSet.ExactlyOne c.issueTypeLabels.Has i.labels ∧
        (c.requireMilestone = true → ∃ m, i.milestone = some m))) ∧
    (∀ s label, LabelSet.contains s label = true ↔ s.Has label) ∧
    (∀ label start, LabelSet.startsWithBytes label start = some (LabelSet.startsWith label start)) ∧
    ¬ ((c.flags i).has .missingArea = true ∧ (c.flags i).has .multipleAreas = true) ∧
    ¬ ((c.flags i).has .missingIssueType = true ∧ (c.flags i).has .multipleIssueTypes = true) := by
  refine ⟨?_, fun _ _ => LabelSet.contains_iff_has, LabelSet.startsWithBytes_eq, ?_, ?_⟩
  · rw [isUntriaged_iff_reason, ← LabelSet.count_eq_one_iff, ← LabelSet.count_eq_one_iff, ← forall_not_reason_iff,
      not_forall_not]
  all_goals
    rintro ⟨hmissing, hmultiple⟩
    have h0 := (has_flags_iff.mp hmissing).2
    have h1 := (has_flags_iff.mp hmultiple).2
    simp only [Reason] at h0 h1
    omega

end UntriagedConfig

end Triage
