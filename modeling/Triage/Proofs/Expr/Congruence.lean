/-
  Triage.Proofs.Expr.Congruence — same expressions can stand for each other.

  Evaluating respects `same` by itself (`evalWith_congr`), and so does recognising (`isNormalized_congr`), operand by
  operand. Normalizing does it in one repository at a time: specialized to it, same expressions have normal forms that
  are the same (`same_normalize_specialize`), since the connectives respect operands that are alike. What a normal form
  stands for in each repository determines it (`same_of_inRepo`): its entries are in order and differ from the
  fallback, and there is always a repository without an entry that shows the fallback.
-/

import Triage.Proofs.Expr.Idempotent
import Triage.Proofs.Expr.Meaning
import Triage.Proofs.Expr.Specialize
import Triage.Regex.Engine
import Mathlib.Data.Fintype.EquivFin

namespace Triage

/-! ## Repositories without an entry -/

namespace Repository

/-- Repositories that differ in the length of the name. -/
def numbered (n : Nat) : Repository where
  owner := "x"
  name := String.ofList (List.replicate (n + 1) 'x')
  owner_isPart := by decide
  name_isPart := by
    have hx : Text.isBlank 'x' = false := by decide
    simp [isPart, String.toList_ofList, List.replicate_succ, hx]
  owner_folded := by decide
  name_folded := by
    have hx : Char.toLower 'x' = 'x' := by decide
    rw [← String.toList_inj, Text.toList_fold, String.toList_ofList, List.map_replicate, hx]

theorem numbered_injective : Function.Injective numbered := by
  intro m n h
  have hname := congrArg (fun r => r.name.toList.length) h
  simpa [numbered] using hname

instance : Infinite Repository := .of_injective numbered numbered_injective

theorem exists_notMem (rs : List Repository) : ∃ r, r ∉ rs := by
  obtain ⟨r, hr⟩ := Infinite.exists_notMem_finset rs.toFinset
  exact ⟨r, fun hm => hr (List.mem_toFinset.mpr hm)⟩

end Repository

namespace Expr

/-! ## Entries -/

theorem lookup_eq_none_of_notMem {α : Type} {r : Repository} {entries : List (Repository × α)}
    (h : r ∉ entries.map Prod.fst) : entries.lookup r = none := by
  cases hl : entries.lookup r with
  | none => rfl
  | some a => exact absurd (List.mem_map_of_mem (mem_of_lookup hl)) h

/-- Entries in order are the same if they are the same in each repository. -/
theorem sameEntries_of_lookup {es fs : List (Repository × Expr)} (hes : PerRepo.Ordered es)
    (hfs : PerRepo.Ordered fs) (h : ∀ r, (es.lookup r).map same = (fs.lookup r).map same) :
    sameEntries es fs = true := by
  have hmap := (hes.map fun _ => same).eq_of_lookup (hfs.map fun _ => same) fun r => by
    rw [lookup_map fun _ => same, lookup_map fun _ => same, h r]
  rw [← List.forall₂_eq_eq_eq, List.forall₂_map_left_iff, List.forall₂_map_right_iff] at hmap
  refine sameEntries_iff.mpr (hmap.imp fun p q hpq => ?_)
  obtain ⟨hkey, hsame⟩ := Prod.mk.inj hpq
  exact ⟨hkey, (isSame_eq _ _).trans (same_iff.mpr hsame)⟩

/-- Where no entry is the same as the fallback, a repository has an entry if what it finds is not. -/
theorem lookup_map_same {entries : List (Repository × Expr)} {fallback : Expr}
    (h : ∀ p ∈ entries, same p.2 fallback = false) (r : Repository) :
    (entries.lookup r).map same = if same ((entries.lookup r).getD fallback) fallback = true then none
      else some (same ((entries.lookup r).getD fallback)) := by
  cases hl : entries.lookup r with
  | none => simp [same_self]
  | some e =>
    have hne : same e fallback = false := h _ (mem_of_lookup hl)
    simp [hne]

/-! ## Normal forms are known by what they stand for -/

/-- A normal form with entries stands for different things somewhere. -/
theorem exists_inRepo_ne {entries : List (Repository × Expr)} {fallback : Expr} (hne : entries ≠ [])
    (h : ∀ p ∈ entries, same p.2 fallback = false) (ho : PerRepo.Ordered entries) :
    ∃ r s, ¬ same (inRepo r (.perRepo entries fallback)) = same (inRepo s (.perRepo entries fallback)) := by
  obtain ⟨p, hp⟩ := List.exists_mem_of_ne_nil entries hne
  obtain ⟨s, hs⟩ := Repository.exists_notMem (entries.map Prod.fst)
  refine ⟨p.1, s, ?_⟩
  rw [inRepo, inRepo, lookup_of_mem ho.nodup hp, lookup_eq_none_of_notMem hs, Option.getD_some, Option.getD_none, ← same_iff,
    h p hp]
  exact Bool.false_ne_true

theorem same_of_inRepo {d e : Expr} (hd : Canonical d) (he : Canonical e) (hdo : EntriesInOrder d)
    (heo : EntriesInOrder e) (h : ∀ r, same (d.inRepo r) (e.inRepo r) = true) : same d e = true := by
  have hsame : ∀ r, same (d.inRepo r) = same (e.inRepo r) := fun r => same_iff.mp (h r)
  cases hd with
  | plain hd =>
    have hinRepo : ∀ r, d.inRepo r = d := inRepo_of_not_perRepo hd.not_perRepo
    cases he with
    | plain he =>
      obtain ⟨r, -⟩ := Repository.exists_notMem []
      have hr := h r
      rwa [hinRepo, inRepo_of_not_perRepo he.not_perRepo] at hr
    | perRepo entries fallback hne hentries hf =>
      obtain ⟨r, s, hrs⟩ := exists_inRepo_ne hne (fun p hp => (hentries p hp).2) heo
      rw [← hsame r, ← hsame s, hinRepo, hinRepo] at hrs
      exact absurd rfl hrs
  | perRepo entries fallback hne hentries hf =>
    cases he with
    | plain he =>
      obtain ⟨r, s, hrs⟩ := exists_inRepo_ne hne (fun p hp => (hentries p hp).2) hdo
      rw [hsame r, hsame s, inRepo_of_not_perRepo he.not_perRepo, inRepo_of_not_perRepo he.not_perRepo] at hrs
      exact absurd rfl hrs
    | perRepo entries' fallback' hne' hentries' hf' =>
      have hfallback : same fallback = same fallback' := by
        obtain ⟨r, hr⟩ := Repository.exists_notMem (entries.map Prod.fst ++ entries'.map Prod.fst)
        rw [List.mem_append, not_or] at hr
        have hr' := hsame r
        rwa [inRepo, inRepo, lookup_eq_none_of_notMem hr.1, lookup_eq_none_of_notMem hr.2] at hr'
      have hlookup : sameEntries entries entries' = true := by
        refine sameEntries_of_lookup hdo heo fun r => ?_
        have hr : same ((entries.lookup r).getD fallback) = same ((entries'.lookup r).getD fallback') := hsame r
        rw [lookup_map_same (fun p hp => (hentries p hp).2), lookup_map_same (fun p hp => (hentries' p hp).2), hr,
          same_comm _ fallback, same_comm _ fallback', hfallback]
      rw [same, hlookup, same_iff.mpr hfallback]
      rfl

/-! ## Same at the root -/

/-- The entries at the root. -/
def entries : Expr → List (Repository × Expr)
  | .perRepo entries _ => entries
  | _ => []

theorem entries_congr {d e : Expr} (h : same d e = true) :
    List.Forall₂ (fun p q => p.1 = q.1 ∧ isSame p.2 q.2 = true) d.entries e.entries := by
  cases d <;> cases e <;> simp only [same, Bool.false_eq_true, Bool.and_eq_true] at h
  case perRepo.perRepo => exact sameEntries_iff.mp h.1
  all_goals exact .nil

theorem elsewhere_congr {d e : Expr} (h : same d e = true) : same d.elsewhere e.elsewhere = true := by
  cases d <;> cases e
  case perRepo.perRepo => exact (Bool.and_eq_true_iff.mp h).2
  all_goals first | exact h | simp only [same, Bool.false_eq_true] at h

/-- Normal forms that stand for the same in each repository are the same: both have entries or neither has, for the
    same repositories and the same one by one, and what they stand for elsewhere is the same. -/
theorem normalize_isSame_of_each_repository {d e : Expr}
    (h : ∀ r, isSame (d.normalize.inRepo r) (e.normalize.inRepo r) = true) :
    isSame d.normalize e.normalize = true ∧ d.normalize.isPerRepo = e.normalize.isPerRepo ∧
      List.Forall₂ (fun p q => p.1 = q.1 ∧ isSame p.2 q.2 = true) d.normalize.entries e.normalize.entries ∧
      isSame d.normalize.elsewhere e.normalize.elsewhere = true := by
  simp only [isSame_eq] at h
  have hsame : same d.normalize e.normalize = true :=
    same_of_inRepo (canonical_normalize d) (canonical_normalize e) (entriesInOrder_normalize d)
      (entriesInOrder_normalize e) h
  refine ⟨?_, isPerRepo_congr hsame, entries_congr hsame, ?_⟩
  · rw [isSame_eq]
    exact hsame
  · rw [isSame_eq]
    exact elsewhere_congr hsame

/-- An entry that says no more than the fallback, and a fallback with entries of its own. -/
theorem normalize_isSame_of_each_repository_nested :
    let runtime : Repository := ⟨"dotnet", "runtime", by decide, by decide, by decide, by decide⟩
    let corefx : Repository := ⟨"dotnet", "corefx", by decide, by decide, by decide, by decide⟩
    let bug : Expr := .leaf (.label "bug")
    let opened : Expr := .leaf (.isOpen true)
    let free : Expr := .leaf (.assignee none)
    let d : Expr := .and [.perRepo [(corefx, .or [free, .const false]), (runtime, bug)] free, opened]
    let e : Expr := .perRepo [(corefx, .and [opened, free])] (.perRepo [(corefx, bug), (runtime, .and [opened, bug])]
      (.not (.or [.not free, .not opened])))
    (∀ r, isSame (d.normalize.inRepo r) (e.normalize.inRepo r) = true) ∧
      isSame d.normalize e.normalize = true ∧ d.normalize.isPerRepo = e.normalize.isPerRepo ∧
      List.Forall₂ (fun p q => p.1 = q.1 ∧ isSame p.2 q.2 = true) d.normalize.entries e.normalize.entries ∧
      isSame d.normalize.elsewhere e.normalize.elsewhere = true := by
  intro runtime corefx bug opened free d e
  have hspecialized : ∀ r, same (d.specialize r).normalize (e.specialize r).normalize = true := by
    intro r
    by_cases hruntime : r = runtime
    · subst hruntime
      decide +kernel
    by_cases hcorefx : r = corefx
    · subst hcorefx
      decide +kernel
    have hd : d.specialize r = .and [free, opened] := by
      simp only [d, free, opened, specialize, specializeAll, specializeEntry, if_neg hruntime, if_neg hcorefx]
    have he : e.specialize r = .not (.or [.not free, .not opened]) := by
      simp only [e, free, opened, specialize, specializeAll, specializeEntry, if_neg hruntime, if_neg hcorefx]
    rw [hd, he]
    decide +kernel
  have h : ∀ r, isSame (d.normalize.inRepo r) (e.normalize.inRepo r) = true := by
    intro r
    have he : same (e.specialize r).normalize (e.normalize.inRepo r) = true := by
      rw [same_comm]
      exact same_normalize_inRepo e r
    rw [isSame_eq]
    exact same_trans (same_normalize_inRepo d r) (same_trans (hspecialized r) he)
  exact ⟨h, normalize_isSame_of_each_repository h⟩

/-! ## Normalizing -/

/-- Specialized to a repository, same expressions have normal forms that are the same. -/
theorem same_normalize_specialize {d e : Expr} (h : same d e = true) (r : Repository) :
    same (d.specialize r).normalize (e.specialize r).normalize = true := by
  have hplain : ∀ es : List Expr, ∀ c ∈ (es.map (specialize r)).map normalize, Plain c := by
    intro es c hc
    simp only [List.mem_map, exists_exists_and_eq_and] at hc
    obtain ⟨e, -, rfl⟩ := hc
    exact plain_normalize_specialize e r
  have halike : ∀ ds es : List Expr, Alike ds es →
      (∀ d ∈ ds, ∀ e, same d e = true → same (d.specialize r).normalize (e.specialize r).normalize = true) →
      Alike ((ds.map (specialize r)).map normalize) ((es.map (specialize r)).map normalize) := by
    intro ds es hop ih
    rw [List.map_map, List.map_map]
    exact hop.map fun d hd e _ => ih d hd e
  induction d using Expr.induction generalizing e with
  | const b =>
    cases e <;> simp only [same, Bool.false_eq_true, beq_iff_eq] at h
    rw [h]
    exact same_self _
  | leaf l =>
    cases e <;> simp only [same, Bool.false_eq_true, beq_iff_eq] at h
    rw [h]
    exact same_self _
  | not d ih =>
    cases e <;> simp only [same, Bool.false_eq_true] at h
    exact same_negate (plain_normalize_specialize d r) (plain_normalize_specialize _ r) (ih h)
  | and ds ih =>
    cases e <;> simp only [same, Bool.false_eq_true] at h
    rename_i es
    rw [specialize, specialize, specializeAll_eq_map, specializeAll_eq_map, normalize, normalize, normalizeAll_eq_map,
      normalizeAll_eq_map]
    exact same_conjunction (hplain ds) (hplain es) (halike ds es (sameOperands_iff.mp h) fun d hd e => ih d hd)
  | or ds ih =>
    cases e <;> simp only [same, Bool.false_eq_true] at h
    rename_i es
    have hds := halike ds es (sameOperands_iff.mp h) fun d hd e => ih d hd
    rw [specialize, specialize, specializeAll_eq_map, specializeAll_eq_map, normalize, normalize, normalizeAll_eq_map,
      normalizeAll_eq_map]
    exact same_disjunction hds (any_isPerRepo_of_plain (hplain ds))
  | perRepo entries fallback ih ihf =>
    cases e <;> simp only [same, Bool.false_eq_true, Bool.and_eq_true] at h
    rw [specialize_perRepo, specialize_perRepo]
    exact forall_found
      (p := fun d => ∀ e, same d e = true → same (d.specialize r).normalize (e.specialize r).normalize = true)
      (fun q hq e => ih q hq) (fun e => ihf) r _ (same_found h.1 h.2 r)

theorem same_normalize {d e : Expr} (h : same d e = true) : same d.normalize e.normalize = true := by
  refine same_of_inRepo (canonical_normalize d) (canonical_normalize e) (entriesInOrder_normalize d)
    (entriesInOrder_normalize e) fun r => ?_
  have hd : same (d.normalize.inRepo r) (d.specialize r).normalize = true := same_normalize_inRepo d r
  have he : same (e.specialize r).normalize (e.normalize.inRepo r) = true := by
    rw [same_comm]
    exact same_normalize_inRepo e r
  exact same_trans hd (same_trans (same_normalize_specialize h r) he)

/-! ## Recognising normal expressions -/

theorem isLeaf_congr {d e : Expr} (h : same d e = true) : isLeaf d = isLeaf e := by
  cases d <;> cases e <;> first | rfl | simp only [same, Bool.false_eq_true] at h

theorem isLiteral_congr {d e : Expr} (h : same d e = true) : isLiteral d = isLiteral e := by
  cases d <;> cases e <;> simp only [same, Bool.false_eq_true] at h
  case not.not => exact isLeaf_congr h
  all_goals rfl

theorem Alike.all_eq {p : Expr → Bool} (hp : ∀ d e, same d e = true → p d = p e) {es fs : List Expr}
    (h : Alike es fs) : es.all p = fs.all p := by
  rw [List.all_eq_not_any_not, List.all_eq_not_any_not, h.any_eq fun d e hde => congrArg Bool.not (hp d e hde)]

theorem Alike.isProper_eq {es fs : List Expr} (h : Alike es fs) : isProper es = isProper fs := by
  rw [isProper, isProper, h.length_eq, h.distinct.length_eq, h.hasComplement_eq]

theorem isConjunction_congr {d e : Expr} (h : same d e = true) : isConjunction d = isConjunction e := by
  cases d <;> cases e <;> simp only [same, Bool.false_eq_true] at h
  case and.and =>
    have hop := sameOperands_iff.mp h
    rw [isConjunction, isConjunction, hop.all_eq fun _ _ => isLiteral_congr, hop.isProper_eq]
  case not.not => exact isLeaf_congr h
  all_goals rfl

theorem isDisjunction_congr {d e : Expr} (h : same d e = true) : isDisjunction d = isDisjunction e := by
  have hc := isConjunction_congr h
  cases d <;> cases e <;> simp only [same, Bool.false_eq_true] at h
  case or.or =>
    have hop := sameOperands_iff.mp h
    rw [isDisjunction, isDisjunction, hop.all_eq fun _ _ => isConjunction_congr, hop.isProper_eq]
  case const.const => rfl
  all_goals exact hc

theorem all_entries_congr {p q : Expr → Bool} (hp : ∀ d e, same d e = true → p d = q e)
    {es fs : List (Repository × Expr)} (h : sameEntries es fs = true) :
    (es.all fun x => p x.2) = fs.all fun x => q x.2 := by
  rw [sameEntries_iff] at h
  induction h with
  | nil => rfl
  | cons hxy _ ih =>
    rw [isSame_eq] at hxy
    rw [List.all_cons, List.all_cons, hp _ _ hxy.2, ih]

theorem isNormalized_congr {d e : Expr} (h : same d e = true) : isNormalized d = isNormalized e := by
  have hdisj := isDisjunction_congr h
  cases d <;> cases e <;> simp only [same, Bool.false_eq_true, Bool.and_eq_true] at h
  case perRepo.perRepo entries fallback entries' fallback' =>
    have hempty : entries.isEmpty = entries'.isEmpty := by
      cases entries <;> cases entries' <;> first | rfl | cases h.1
    have hentry : ∀ c c', same c c' = true →
        (!isSame c fallback && c.isDisjunction) = (!isSame c' fallback' && c'.isDisjunction) := by
      intro c c' hcc
      rw [isSame_eq, isSame_eq, same_iff.mp hcc, same_comm c' fallback, same_iff.mp h.2, same_comm fallback' c',
        isDisjunction_congr hcc]
    have hall := all_entries_congr hentry h.1
    rw [isNormalized, isNormalized, hempty, isDisjunction_congr h.2]
    exact congrArg _ hall
  all_goals exact hdisj

/-- Equal expressions are interchangeable: their normal forms are equal, the same issues match them, and both are
    recognised as normalized or neither is. -/
theorem isSame_interchangeable [Engine] {d e : Expr} (h : isSame d e = true) :
    isSame d.normalize e.normalize = true ∧ (∀ i : Issue, d.eval i = e.eval i) ∧
      d.isNormalized = e.isNormalized := by
  rw [isSame_eq] at h
  refine ⟨?_, fun i => evalWith_congr (Leaf.eval i) i.repository h, isNormalized_congr h⟩
  rw [isSame_eq]
  exact same_normalize h

/-- Operands in another order, below the root and in the entry of a repository. -/
theorem isSame_interchangeable_reordered :
    let r : Repository := ⟨"dotnet", "runtime", by decide, by decide, by decide, by decide⟩
    let bug : Expr := .leaf (.label "bug")
    let opened : Expr := .leaf (.isOpen true)
    let free : Expr := .leaf (.assignee none)
    let d : Expr := .and [.perRepo [(r, .or [bug, .not opened])] free, .or [opened, .and [bug, free]]]
    let e : Expr := .and [.or [.and [free, bug], opened], .perRepo [(r, .or [.not opened, bug])] free]
    isSame d e = true ∧ isSame d.normalize e.normalize = true ∧ (∀ i : Issue, d.eval i = e.eval i) ∧
      d.isNormalized = e.isNormalized := by
  intro r bug opened free d e
  have h : isSame d e = true := by decide +kernel
  exact ⟨h, isSame_interchangeable h⟩

end Expr

end Triage
