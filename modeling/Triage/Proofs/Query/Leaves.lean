/-
  Triage.Proofs.Query.Leaves — what a table of leaves tells a query, and that more leaves change no query that parsed.

  A leaf is found under every spelling of its name (`find?_insert`), and a query that calls it by a quoted name is
  parsed to it (`parse_call`). A table that calls all that another one calls the same (`Extends`) derives whatever the
  other derives, by induction on the derivation, so it parses what the other parses to the same formula
  (`parse_of_extends`).
-/

import Triage.Proofs.Query.Derivation
import Triage.Proofs.Query.Token

namespace Triage.Query

/-! ## Tables -/

theorem fold_mem_iff_isReserved {name : String} : isReserved name = true ↔ Text.fold name ∈ reservedNames := by
  have hfold : ∀ m ∈ reservedNames, Text.fold m = m := by decide
  simp only [isReserved, List.any_eq_true, Text.sameName_iff]
  constructor
  · rintro ⟨m, hm, h⟩
    rwa [← h, hfold m hm]
  · intro h
    exact ⟨_, h, Text.fold_fold name⟩

namespace Leaves

variable {leaves leaves' : Leaves}

/-- All that the table calls, the other one calls the same. -/
def Extends (leaves leaves' : Leaves) : Prop := ∀ name f, leaves.find? name = some f → leaves'.find? name = some f

theorem Extends.refl (leaves : Leaves) : leaves.Extends leaves := fun _ _ h => h

theorem Extends.trans {leaves'' : Leaves} (h : leaves.Extends leaves') (h' : leaves'.Extends leaves'') :
    leaves.Extends leaves'' := fun name f hf => h' name f (h name f hf)

theorem lookup_filter_ne {key key' : String} (hne : key ≠ key') (entries : List (String × Formula)) :
    (entries.filter fun p => p.1 != key').lookup key = entries.lookup key := by
  induction entries with
  | nil => rfl
  | cons p entries ih =>
    obtain ⟨k, f⟩ := p
    by_cases hk : k = key'
    · have hkey : (key == k) = false := by simpa [hk] using hne
      rw [List.filter_cons_of_neg (by simp [hk]), ih, List.lookup_cons, hkey]
    · rw [List.filter_cons_of_pos (by simpa using hk), List.lookup_cons, List.lookup_cons, ih]

theorem find?_insert (leaves : Leaves) (name other : String) (f : Formula) :
    (leaves.insert name f).find? other = if Text.fold other = Text.fold name then some f else leaves.find? other := by
  unfold find? insert
  by_cases h : Text.fold other = Text.fold name
  · simp [h]
  · have hk : (Text.fold other == Text.fold name) = false := by simpa using h
    rw [if_neg h, List.lookup_cons, hk]
    exact lookup_filter_ne h leaves.entries

theorem extends_insert {name : String} (h : leaves.find? name = none) (f : Formula) :
    leaves.Extends (leaves.insert name f) := by
  intro other g hg
  rw [find?_insert]
  by_cases hn : Text.fold other = Text.fold name
  · have hsame : leaves.find? other = leaves.find? name := by rw [find?, find?, hn]
    rw [hsame, h] at hg
    cases hg
  · rw [if_neg hn, hg]

end Leaves

/-! ## More leaves -/

section Extends

variable {leaves leaves' : Leaves}

theorem Named.extends {key value : String} {f : Formula} (hl : leaves.Extends leaves') (h : Named leaves key value f) :
    Named leaves' key value f := by
  cases h with
  | label hk => exact .label hk
  | notLabel hk => exact .notLabel hk
  | milestone hk => exact .milestone hk
  | assignee hk => exact .assignee hk
  | noMilestone hk hv => exact .noMilestone hk hv
  | noAssignee hk hv => exact .noAssignee hk hv
  | issue hk hv => exact .issue hk hv
  | pullRequest hk hv => exact .pullRequest hk hv
  | opened hk hv => exact .opened hk hv
  | closed hk hv => exact .closed hk hv
  | called hk hv hf => exact .called hk hv (hl value f hf)

mutual

theorem Single.extends (hl : leaves.Extends leaves') {w : List Symbol} {f : Formula} :
    Single leaves w f → Single leaves' w f
  | .not h => .not (h.extends hl)
  | .bracket h => .bracket (h.extends hl)
  | .pair h => single_pair_iff.mpr ((single_pair_iff.mp (.pair h)).extends hl)

theorem Operands.extends (hl : leaves.Extends leaves') {w : List Symbol} {fs : List Formula} :
    Operands leaves w fs → Operands leaves' w fs
  | .one h => .one (h.extends hl)
  | .and h hs => .and (h.extends hl) (hs.extends hl)
  | .beside h hs => .beside (h.extends hl) (hs.extends hl)

theorem Alternatives.extends (hl : leaves.Extends leaves') {w : List Symbol} {fs : List Formula} :
    Alternatives leaves w fs → Alternatives leaves' w fs
  | .one h => .one (h.extends hl)
  | .or h hs => .or (h.extends hl) (hs.extends hl)

end

/-- A query is parsed to the same formula if there are more leaves to call. -/
theorem parse_of_extends (hl : leaves.Extends leaves') {query : String} {f : Formula}
    (h : parse leaves query = .ok f) : parse leaves' query = .ok f := by
  obtain ⟨ts, ht, fs, hfs, hf⟩ := parse_derives h
  exact Derives.parse ht ⟨fs, hfs.extends hl, hf⟩

end Extends

/-! ## Calling a leaf -/

/-- The value in quotes, whatever its characters. -/
def Value.inQuotes (value : String) : String := String.ofList ('"' :: Value.escape value.toList ++ ['"'])

/-- The query for a leaf. -/
def call (name : String) : String := "is:" ++ Value.inQuotes name

theorem reads_call (name : String) : Reads [.pair "is" name] (call name).toList [] := by
  have hkey : SpelledKey ['i', 's'] := .intro (by decide) (List.all_eq_true.mp (by decide))
  have hpair : Spelled [] (['i', 's'] ++ ':' :: ('"' :: (Value.escape name.toList ++ ['"'])))
      (.pair (String.ofList ['i', 's']) (String.ofList name.toList)) :=
    .pair hkey (.quoted (quotedBody_escape name.toList)) .nil
  have hread := Reads.spelled hpair
  rw [String.ofList_toList, List.append_nil] at hread
  rw [call, Value.inQuotes, String.toList_append, String.toList_ofList, String.toList_ofList]
  exact hread

/-- A leaf whose name is its own is called by its name in quotes. -/
theorem parse_call {leaves : Leaves} {name : String} {f : Formula} (hfree : Text.fold name ∉ reservedNames)
    (hf : leaves.find? name = some f) : parse leaves (call name) = .ok f := by
  obtain ⟨ts, ht, hw⟩ := tokenize_of_reads (reads_call name)
  rw [String.ofList_toList] at ht
  have hnamed : Named leaves "is" name f := .called (by decide) hfree hf
  refine Derives.parse ht ⟨[f], ?_, rfl⟩
  rw [hw]
  exact .one (.one (single_pair_iff.mpr hnamed))

end Triage.Query
