/-
  Triage.Proofs.Repository — texts that name a repository, and which of them name the same.

  What counts of a text is what stands between the blanks at its ends (`Text.trim_spec`). The text is a name if there is
  one slash in that with a part on each side of it (`parse_eq_ok_iff`), and it names the repository whose key is the
  small spelling of what counts (`key_of_parse`). Owner and name are kept as they may be given:
  neither is empty, and no blank and no slash is in them. So the key has no blanks to trim and is split at its only
  slash, and small letters are small already: it reads back (`parse_key`), and a repository is known by its key.
-/

import Mathlib.Data.List.TakeDrop
import Triage.Repository

namespace Triage

/-! ## Trimmed text -/

namespace Text

theorem not_isBlank_of_head?_dropWhile {cs : List Char} {c : Char} (h : (cs.dropWhile isBlank).head? = some c) :
    isBlank c = false := by
  have hhead := List.head?_dropWhile_not isBlank cs
  rwa [h] at hhead

/-- Trimming takes blanks from both ends, and leaves none there. -/
theorem trim_spec (s : String) : ∃ before after : List Char,
    s.toList = before ++ (trim s).toList ++ after ∧ (∀ c ∈ before ++ after, isBlank c = true) ∧
      ∀ c, (trim s).toList.head? = some c ∨ (trim s).toList.getLast? = some c → isBlank c = false := by
  have htrim : (trim s).toList = ((s.toList.dropWhile isBlank).reverse.dropWhile isBlank).reverse :=
    String.toList_ofList
  have hfront : s.toList = s.toList.takeWhile isBlank ++ s.toList.dropWhile isBlank :=
    List.takeWhile_append_dropWhile.symm
  have hback : s.toList.dropWhile isBlank =
      (trim s).toList ++ ((s.toList.dropWhile isBlank).reverse.takeWhile isBlank).reverse := by
    rw [htrim, ← List.reverse_append, List.takeWhile_append_dropWhile, List.reverse_reverse]
  refine ⟨s.toList.takeWhile isBlank, ((s.toList.dropWhile isBlank).reverse.takeWhile isBlank).reverse, ?_, ?_, ?_⟩
  · rw [List.append_assoc, ← hback]
    exact hfront
  · intro c hc
    rw [List.mem_append, List.mem_reverse] at hc
    rcases hc with hc | hc <;> exact List.all_eq_true.mp List.all_takeWhile c hc
  · rintro c (hc | hc)
    · apply not_isBlank_of_head?_dropWhile
      rw [hback, List.head?_append, hc]
      rfl
    · rw [htrim, List.getLast?_reverse] at hc
      exact not_isBlank_of_head?_dropWhile hc

theorem trim_eq_self {s : String} (h : ∀ c ∈ s.toList, isBlank c = false) : trim s = s := by
  have hdrop : ∀ {cs : List Char}, (∀ c ∈ cs, isBlank c = false) → cs.dropWhile isBlank = cs := by
    intro cs hcs
    cases cs with
    | nil => rfl
    | cons c cs => rw [List.dropWhile_cons_of_neg (by simp [hcs c List.mem_cons_self])]
  rw [trim, hdrop h, hdrop fun c hc => h c (List.mem_reverse.mp hc), List.reverse_reverse, String.ofList_toList]

end Text

namespace Repository

/-! ## Parts -/

theorem isPart_iff {s : String} :
    isPart s = true ↔ s ≠ "" ∧ '/' ∉ s.toList ∧ ∀ c ∈ s.toList, Text.isBlank c = false := by
  simp only [isPart, Bool.and_eq_true, List.all_eq_true, bne_iff_ne, Bool.not_eq_true', List.isEmpty_eq_false_iff]
  constructor
  · rintro ⟨hne, hchars⟩
    refine ⟨?_, fun hslash => (hchars _ hslash).1 rfl, fun c hc => (hchars c hc).2⟩
    rintro rfl
    exact hne rfl
  · rintro ⟨hne, hslash, hblank⟩
    refine ⟨fun h => hne (String.toList_eq_nil_iff.mp h), fun c hc => ⟨?_, hblank c hc⟩⟩
    rintro rfl
    exact hslash hc

theorem slash_notMem_of_isPart {s : String} (h : isPart s = true) : '/' ∉ s.toList := (isPart_iff.mp h).2.1

theorem not_isBlank_of_isPart {s : String} (h : isPart s = true) : ∀ c ∈ s.toList, Text.isBlank c = false :=
  (isPart_iff.mp h).2.2

theorem splitSlash_append {owner : String} (h : '/' ∉ owner.toList) (name : String) :
    splitSlash (owner ++ "/" ++ name) = some (owner, name) := by
  have hchars : (owner ++ "/" ++ name).toList = owner.toList ++ '/' :: name.toList := by simp
  have htake : ∀ c ∈ owner.toList, (c != '/') = true := by
    intro c hc
    rw [bne_iff_ne]
    rintro rfl
    exact h hc
  rw [splitSlash, hchars, List.span_eq_takeWhile_dropWhile, List.takeWhile_append_of_pos htake,
    List.dropWhile_append_of_pos htake]
  simp

/-- The two parts of a split are what the text was put together from. -/
theorem eq_of_splitSlash {s owner name : String} (h : splitSlash s = some (owner, name)) :
    s = owner ++ "/" ++ name ∧ '/' ∉ owner.toList := by
  unfold splitSlash at h
  rw [List.span_eq_takeWhile_dropWhile] at h
  split at h
  · rename_i front c back hspan
    cases h
    obtain ⟨hfront, hback⟩ := Prod.mk.inj hspan
    have hslash : c = '/' := by
      have hhead := List.head?_dropWhile_not (· != '/') s.toList
      rw [hback] at hhead
      simpa using hhead
    refine ⟨String.toList_inj.mp ?_, fun hmem => ?_⟩
    · rw [← List.takeWhile_append_dropWhile (p := (· != '/')) (l := s.toList), hfront, hback, hslash]
      simp
    · rw [String.toList_ofList, ← hfront] at hmem
      exact absurd (List.all_eq_true.mp List.all_takeWhile _ hmem) (by decide)
  · cases h

/-! ## Names of repositories -/

theorem make_eq_ok_iff {owner name : String} {r : Repository} : make owner name = .ok r ↔
    isPart owner = true ∧ isPart name = true ∧ r.owner = Text.fold owner ∧ r.name = Text.fold name := by
  unfold make
  constructor
  · intro h
    split at h
    · rename_i hparts
      cases h
      exact ⟨hparts.1, hparts.2, rfl, rfl⟩
    · cases h
  · rintro ⟨ho, hn, hro, hrn⟩
    rw [dif_pos ⟨ho, hn⟩]
    obtain ⟨owner, name, _, _, _, _⟩ := r
    cases hro
    cases hrn
    rfl

/-- A text names a repository if there is one slash between its blanks, with a part on each side. -/
theorem parse_eq_ok_iff {s : String} {r : Repository} : parse s = .ok r ↔
    ∃ owner name, Text.trim s = owner ++ "/" ++ name ∧ isPart owner = true ∧ isPart name = true ∧
      r.owner = Text.fold owner ∧ r.name = Text.fold name := by
  unfold parse
  constructor
  · intro h
    split at h
    · rename_i owner name hsplit
      exact ⟨owner, name, (eq_of_splitSlash hsplit).1, make_eq_ok_iff.mp h⟩
    · cases h
  · rintro ⟨owner, name, htrim, ho, hrest⟩
    rw [htrim, splitSlash_append (slash_notMem_of_isPart ho)]
    exact make_eq_ok_iff.mpr ⟨ho, hrest⟩

/-- The key of a repository reads back. -/
theorem parse_key (r : Repository) : parse r.key = .ok r := by
  have hblank : ∀ c ∈ r.key.toList, Text.isBlank c = false := by
    intro c hc
    have hc' : c ∈ r.owner.toList ∨ c = '/' ∨ c ∈ r.name.toList := by simpa [key] using hc
    rcases hc' with hc | rfl | hc
    · exact not_isBlank_of_isPart r.owner_isPart c hc
    · decide
    · exact not_isBlank_of_isPart r.name_isPart c hc
  exact parse_eq_ok_iff.mpr ⟨r.owner, r.name, Text.trim_eq_self hblank, r.owner_isPart, r.name_isPart,
    r.owner_folded.symm, r.name_folded.symm⟩

theorem key_injective {r q : Repository} (h : r.key = q.key) : r = q := by
  have hparse : parse r.key = parse q.key := by rw [h]
  rw [parse_key, parse_key] at hparse
  exact Except.ok.inj hparse

theorem key_of_parse {s : String} {r : Repository} (h : parse s = .ok r) : r.key = Text.fold (Text.trim s) := by
  obtain ⟨owner, name, htrim, -, -, ho, hn⟩ := parse_eq_ok_iff.mp h
  rw [key, ho, hn, htrim, ← String.toList_inj]
  simp

/-! ## Identity -/

theorem count_slash_eq_one_iff {owner name : String} :
    (owner ++ "/" ++ name).toList.count '/' = 1 ↔ '/' ∉ owner.toList ∧ '/' ∉ name.toList := by
  have hcount : (owner ++ "/" ++ name).toList.count '/' = owner.toList.count '/' + 1 + name.toList.count '/' := by
    simp
    omega
  rw [hcount, ← List.count_eq_zero, ← List.count_eq_zero]
  omega

theorem exists_parse_iff {s : String} : (∃ r, parse s = .ok r) ↔
    ∃ owner name, Text.trim s = owner ++ "/" ++ name ∧ isPart owner = true ∧ isPart name = true := by
  constructor
  · rintro ⟨r, h⟩
    obtain ⟨owner, name, htrim, ho, hn, -⟩ := parse_eq_ok_iff.mp h
    exact ⟨owner, name, htrim, ho, hn⟩
  · rintro ⟨owner, name, htrim, ho, hn⟩
    obtain ⟨r, hr⟩ : ∃ r, make owner name = .ok r := ⟨_, dif_pos ⟨ho, hn⟩⟩
    exact ⟨r, parse_eq_ok_iff.mpr ⟨owner, name, htrim, make_eq_ok_iff.mp hr⟩⟩

theorem eq_iff_of_parse {s t : String} {r q : Repository} (hr : parse s = .ok r) (hq : parse t = .ok q) :
    r = q ↔ Text.sameName (Text.trim s) (Text.trim t) = true := by
  rw [Text.sameName_iff, ← key_of_parse hr, ← key_of_parse hq]
  exact ⟨congrArg key, key_injective⟩

/-- What counts of a text is what is left without the blanks at its ends. It names a repository if there is exactly one
    slash in that, and on each side of it something and no blank. Two texts name the same repository if what counts of
    them is the same but for the case of letters, and each repository is named by its key. -/
theorem names_identify :
    (∀ s, ∃ before after : List Char, s.toList = before ++ (Text.trim s).toList ++ after ∧
      (∀ c ∈ before ++ after, Text.isBlank c = true) ∧
      ∀ c, (Text.trim s).toList.head? = some c ∨ (Text.trim s).toList.getLast? = some c → Text.isBlank c = false) ∧
    (∀ s, (∃ r, parse s = .ok r) ↔
      (Text.trim s).toList.count '/' = 1 ∧ ∃ owner name, Text.trim s = owner ++ "/" ++ name ∧
        (owner ≠ "" ∧ ∀ c ∈ owner.toList, Text.isBlank c = false) ∧
        (name ≠ "" ∧ ∀ c ∈ name.toList, Text.isBlank c = false)) ∧
    (∀ s t r q, parse s = .ok r → parse t = .ok q →
      (r = q ↔ Text.sameName (Text.trim s) (Text.trim t) = true)) ∧
    ∀ r, parse r.key = .ok r := by
  refine ⟨Text.trim_spec, fun s => ?_, fun s t r q => eq_iff_of_parse, parse_key⟩
  rw [exists_parse_iff]
  constructor
  · rintro ⟨owner, name, htrim, ho, hn⟩
    obtain ⟨hone, hoslash, hoblank⟩ := isPart_iff.mp ho
    obtain ⟨hnne, hnslash, hnblank⟩ := isPart_iff.mp hn
    refine ⟨?_, owner, name, htrim, ⟨hone, hoblank⟩, hnne, hnblank⟩
    rw [htrim]
    exact count_slash_eq_one_iff.mpr ⟨hoslash, hnslash⟩
  · rintro ⟨hcount, owner, name, htrim, ⟨hone, hoblank⟩, hnne, hnblank⟩
    rw [htrim] at hcount
    obtain ⟨hoslash, hnslash⟩ := count_slash_eq_one_iff.mp hcount
    exact ⟨owner, name, htrim, isPart_iff.mpr ⟨hone, hoslash, hoblank⟩, isPart_iff.mpr ⟨hnne, hnslash, hnblank⟩⟩

/-- Two spellings of one repository, with blanks around them that are not ASCII. -/
theorem names_identify_respelled :
    let runtime : Repository := ⟨"dotnet", "runtime", by decide, by decide, by decide, by decide⟩
    parse "\u2003DotNet/Runtime\u00a0" = .ok runtime ∧ parse "dotnet/RUNTIME\n" = .ok runtime ∧
      Text.sameName (Text.trim "\u2003DotNet/Runtime\u00a0") (Text.trim "dotnet/RUNTIME\n") = true ∧
      parse runtime.key = .ok runtime := by
  intro runtime
  have hs : parse "\u2003DotNet/Runtime\u00a0" = .ok runtime := by decide
  have ht : parse "dotnet/RUNTIME\n" = .ok runtime := by decide
  exact ⟨hs, ht, (names_identify.2.2.1 _ _ _ _ hs ht).mp rfl, names_identify.2.2.2 runtime⟩

end Repository

end Triage
