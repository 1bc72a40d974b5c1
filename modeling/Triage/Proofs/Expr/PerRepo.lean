/-
  Triage.Proofs.Expr.PerRepo — entries per repository as a map.

  `Repository.before` is a strict total order. A list of entries is read by `lookup`, where the first entry of a
  repository counts. `insert`, `sort` and `Expr.inherit` are described by what is found afterwards, and they give
  entries in order (`Ordered`), one for a repository; so they are known by what is found (`Ordered.eq_of_lookup`), and
  dropping entries drops them from the map and nothing else (`lookup_filter`). A list of entries in any order gives
  the map of what they say (`Made`), unless two are for the same (`ofList_ends`).
-/

import Mathlib.Data.List.Sort
import Triage.Expr.Normal
import Triage.Proofs.Check
import Triage.Proofs.Expr.Basic

namespace Triage

/-! ## The order of repositories -/

namespace Repository

theorem before_iff {r s : Repository} :
    r.before s = true ↔ r.owner < s.owner ∨ r.owner = s.owner ∧ r.name < s.name := by
  simp only [before, Bool.or_eq_true, Bool.and_eq_true, decide_eq_true_eq, beq_iff_eq]

theorem before_irrefl (r : Repository) : r.before r = false := by
  rw [← Bool.not_eq_true, before_iff]
  rintro (h | ⟨-, h⟩)
  · exact String.lt_irrefl _ h
  · exact String.lt_irrefl _ h

theorem before_trans {r s t : Repository} (h : r.before s = true) (h' : s.before t = true) : r.before t = true := by
  rw [before_iff] at h h' ⊢
  rcases h with h | ⟨ho, h⟩
  · rcases h' with h' | ⟨ho', -⟩
    · exact Or.inl (String.lt_trans h h')
    · exact Or.inl (ho' ▸ h)
  · rcases h' with h' | ⟨ho', h'⟩
    · exact Or.inl (ho ▸ h')
    · exact Or.inr ⟨ho.trans ho', String.lt_trans h h'⟩

theorem string_lt_or_gt {a b : String} (h : a ≠ b) : a < b ∨ b < a := by
  by_cases hab : a < b
  · exact Or.inl hab
  · by_cases hba : b < a
    · exact Or.inr hba
    · exact absurd (String.le_antisymm (String.not_lt.mp hba) (String.not_lt.mp hab)) h

theorem before_total {r s : Repository} (h : r ≠ s) : r.before s = true ∨ s.before r = true := by
  rw [before_iff, before_iff]
  by_cases ho : r.owner = s.owner
  · have hn : r.name ≠ s.name := by
      intro hn
      cases r
      cases s
      subst ho hn
      exact h rfl
    rcases string_lt_or_gt hn with hn | hn
    · exact Or.inl (Or.inr ⟨ho, hn⟩)
    · exact Or.inr (Or.inr ⟨ho.symm, hn⟩)
  · rcases string_lt_or_gt ho with ho | ho
    · exact Or.inl (Or.inl ho)
    · exact Or.inr (Or.inl ho)

end Repository

namespace PerRepo

variable {α : Type}

/-! ## Looking up -/

theorem lookup_insert (r s : Repository) (a : α) (entries : List (Repository × α)) :
    (insert r a entries).lookup s = if s = r then some a else entries.lookup s := by
  induction entries with
  | nil => rw [insert, Expr.lookup_cons_eq_ite]
  | cons p entries ih =>
    obtain ⟨t, b⟩ := p
    rw [insert]
    by_cases hrt : r = t
    · subst hrt
      rw [if_pos rfl, Expr.lookup_cons_eq_ite, Expr.lookup_cons_eq_ite]
      split <;> rfl
    · rw [if_neg hrt]
      split
      · rw [Expr.lookup_cons_eq_ite]
      · rw [Expr.lookup_cons_eq_ite, Expr.lookup_cons_eq_ite, ih]
        by_cases h : s = r
        · rw [if_pos h, if_pos h, if_neg (h ▸ hrt)]
        · rw [if_neg h, if_neg h]

theorem lookup_sort (s : Repository) (entries : List (Repository × α)) :
    (sort entries).lookup s = entries.lookup s := by
  induction entries with
  | nil => rfl
  | cons p entries ih =>
    obtain ⟨r, a⟩ := p
    show (insert r a (sort entries)).lookup s = _
    rw [lookup_insert, ih, Expr.lookup_cons_eq_ite]

/-! ## Order -/

/-- In order, with no repository twice. -/
def Ordered (entries : List (Repository × α)) : Prop := entries.Pairwise fun p q => p.1.before q.1 = true

theorem mem_insert {r : Repository} {a : α} {entries : List (Repository × α)} {p : Repository × α}
    (h : p ∈ insert r a entries) : p = (r, a) ∨ p ∈ entries := by
  induction entries with
  | nil => exact Or.inl (List.mem_singleton.mp h)
  | cons q entries ih =>
    obtain ⟨t, b⟩ := q
    rw [insert] at h
    split at h
    · rcases List.mem_cons.mp h with h | h
      · exact Or.inl h
      · exact Or.inr (List.mem_cons_of_mem _ h)
    · split at h
      · exact List.mem_cons.mp h
      · rcases List.mem_cons.mp h with rfl | h
        · exact Or.inr List.mem_cons_self
        · exact (ih h).imp_right (List.mem_cons_of_mem _)

theorem mem_sort {entries : List (Repository × α)} {p : Repository × α} (h : p ∈ sort entries) : p ∈ entries := by
  induction entries with
  | nil => cases h
  | cons q entries ih =>
    rcases mem_insert h with rfl | h
    · exact List.mem_cons_self
    · exact List.mem_cons_of_mem _ (ih h)

theorem Ordered.insert {entries : List (Repository × α)} (h : Ordered entries) (r : Repository) (a : α) :
    Ordered (insert r a entries) := by
  induction entries with
  | nil => exact List.pairwise_singleton _ _
  | cons q entries ih =>
    obtain ⟨t, b⟩ := q
    obtain ⟨ht, hs⟩ := List.pairwise_cons.mp h
    rw [PerRepo.insert]
    by_cases hrt : r = t
    · rw [if_pos hrt]
      exact List.pairwise_cons.mpr ⟨fun q hq => hrt ▸ ht q hq, hs⟩
    · rw [if_neg hrt]
      by_cases hb : r.before t = true
      · rw [if_pos hb]
        refine List.pairwise_cons.mpr ⟨fun q hq => ?_, h⟩
        rcases List.mem_cons.mp hq with rfl | hq
        · exact hb
        · exact Repository.before_trans hb (ht q hq)
      · rw [if_neg hb]
        refine List.pairwise_cons.mpr ⟨fun q hq => ?_, ih hs⟩
        rcases mem_insert hq with rfl | hq
        · exact (Repository.before_total hrt).resolve_left hb
        · exact ht q hq

theorem ordered_sort (entries : List (Repository × α)) : Ordered (sort entries) := by
  induction entries with
  | nil => exact .nil
  | cons p entries ih => exact ih.insert p.1 p.2

theorem Ordered.map {β : Type} {entries : List (Repository × α)} (h : Ordered entries) (f : Repository → α → β) :
    Ordered (entries.map fun (r, a) => (r, f r a)) := List.pairwise_map.mpr h

theorem Ordered.nodup {entries : List (Repository × α)} (h : Ordered entries) : (entries.map Prod.fst).Nodup := by
  rw [List.Nodup, List.pairwise_map]
  refine h.imp fun {p q} hpq heq => ?_
  rw [heq, Repository.before_irrefl] at hpq
  cases hpq

/-- Entries in order are known by what is found among them. -/
theorem Ordered.eq_of_lookup {es fs : List (Repository × α)} (hes : Ordered es) (hfs : Ordered fs)
    (h : ∀ r, es.lookup r = fs.lookup r) : es = fs := by
  have hsub : ∀ {gs hs : List (Repository × α)}, Ordered gs → (∀ r, gs.lookup r = hs.lookup r) → gs ⊆ hs :=
    fun hgs heq p hp => Expr.mem_of_lookup ((heq p.1).symm.trans (Expr.lookup_of_mem hgs.nodup hp))
  have hirrefl : Std.Irrefl fun p q : Repository × α => p.1.before q.1 = true := by
    refine ⟨fun p hp => ?_⟩
    rw [Repository.before_irrefl] at hp
    cases hp
  have hantisymm : Std.Antisymm fun p q : Repository × α => p.1.before q.1 = true :=
    ⟨fun p q hpq hqp => absurd (Repository.before_trans hpq hqp) (hirrefl.irrefl p)⟩
  exact List.Subset.antisymm_of_pairwise hes hfs (hsub hes h) (hsub hfs fun r => (h r).symm)

theorem lookup_eq_none_of_before {r : Repository} {entries : List (Repository × α)}
    (h : ∀ q ∈ entries, r.before q.1 = true) : entries.lookup r = none := by
  cases hl : entries.lookup r with
  | none => rfl
  | some a =>
    have := h _ (Expr.mem_of_lookup hl)
    rw [Repository.before_irrefl] at this
    cases this

/-- An entry that is dropped leaves no other entry of its repository behind. -/
theorem lookup_filter {entries : List (Repository × α)} (h : Ordered entries) (p : Repository × α → Bool)
    (r : Repository) : (entries.filter p).lookup r = (entries.lookup r).filter fun a => p (r, a) := by
  induction entries with
  | nil => rfl
  | cons q entries ih =>
    obtain ⟨t, b⟩ := q
    obtain ⟨ht, hs⟩ := List.pairwise_cons.mp h
    have hq := ih hs
    rw [List.filter_cons, Expr.lookup_cons_eq_ite]
    by_cases hrt : r = t
    · subst hrt
      have hn : (entries.filter p).lookup r = none := by
        rw [hq, lookup_eq_none_of_before ht]
        rfl
      rw [if_pos rfl, Option.filter_some]
      split
      · rw [Expr.lookup_cons_eq_ite, if_pos rfl]
      · exact hn
    · rw [if_neg hrt, ← hq]
      split
      · rw [Expr.lookup_cons_eq_ite, if_neg hrt]
      · rfl

/-! ## Entries in any order -/

/-- What the entries give a repository. -/
def meant (otherwise : α) (entries : List (Option Repository × α)) (r : Repository) : α :=
  ((entries.lookup (some r)).or (entries.lookup none)).getD otherwise

def clashOf : Option Repository → Clash
  | some r => .repository r
  | none => .fallback

theorem isSome_lookup_iff {before : List (Option Repository × α)} {key : Option Repository} :
    (before.lookup key).isSome = true ↔ key ∈ before.map Prod.fst := by
  induction before with
  | nil => simp
  | cons p before ih =>
    obtain ⟨k, a⟩ := p
    rw [List.lookup_cons, List.map_cons, List.mem_cons, ← ih]
    by_cases h : key = k
    · simp [h]
    · have hk : (key == k) = false := by simpa using h
      simp [hk, h]

/-- An entry for something that no earlier entry is for is found, and all that was found before. -/
theorem lookup_append_new {before : List (Option Repository × α)} {key : Option Repository}
    (hnew : key ∉ before.map Prod.fst) (a : α) (other : Option Repository) :
    (before ++ [(key, a)]).lookup other = if other = key then some a else before.lookup other := by
  rw [List.lookup_append, List.lookup_cons, List.lookup_nil]
  by_cases h : other = key
  · have hnone : before.lookup key = none := by
      rw [← Option.not_isSome_iff_eq_none, isSome_lookup_iff]
      exact hnew
    rw [if_pos h, h, hnone]
    simp
  · have hk : (other == key) = false := by simpa using h
    rw [if_neg h, hk]
    exact Option.or_none

/-- The sorted entries and the fallback are what is found among the entries so far. -/
structure Holds (before : List (Option Repository × α)) (sorted : List (Repository × α)) (fallback : Option α) :
    Prop where
  ordered : Ordered sorted
  lookup_eq : ∀ r, sorted.lookup r = before.lookup (some r)
  fallback_eq : fallback = before.lookup none

/-- The map is that of the entries, in order. -/
structure Made (m : PerRepo α) (otherwise : α) (entries : List (Option Repository × α)) : Prop where
  ordered : Ordered m.entries
  lookup_eq : ∀ r, m.entries.lookup r = entries.lookup (some r)
  fallback_eq : m.fallback = (entries.lookup none).getD otherwise

theorem addAll_ends {otherwise : α} {before more : List (Option Repository × α)} {sorted : List (Repository × α)}
    {fallback : Option α} (h : Holds before sorted fallback) :
    Ends (firstError (repeatChecks clashOf (before.map Prod.fst) (more.map Prod.fst)))
      (Made · otherwise (before ++ more)) (addAll otherwise sorted fallback more) := by
  induction more generalizing before sorted fallback with
  | nil =>
    rw [List.append_nil]
    exact .pure ⟨h.ordered, h.lookup_eq, congrArg (Option.getD · otherwise) h.fallback_eq⟩
  | cons p more ih =>
    obtain ⟨key, a⟩ := p
    rw [repeatChecks, List.map_cons, withBefore, List.map_cons, firstError_cons]
    have hrest : ∀ {sorted' fallback'}, Holds (before ++ [(key, a)]) sorted' fallback' →
        Ends (firstError (repeatChecks clashOf (before.map Prod.fst ++ [key]) (more.map Prod.fst)))
          (Made · otherwise (before ++ (key, a) :: more)) (addAll otherwise sorted' fallback' more) := by
      intro sorted' fallback' h'
      have hmore := ih h'
      rwa [List.append_assoc, List.singleton_append, List.map_append] at hmore
    cases key with
    | some r =>
      rw [addAll, h.lookup_eq]
      refine .check isSome_lookup_iff fun hr => hrest ⟨h.ordered.insert r a, fun s => ?_, ?_⟩
      · rw [lookup_insert, lookup_append_new hr, h.lookup_eq]
        simp only [Option.some.injEq]
      · rw [lookup_append_new hr, if_neg (by simp), h.fallback_eq]
    | none =>
      rw [addAll, h.fallback_eq]
      refine .check isSome_lookup_iff fun hn => hrest ⟨h.ordered, fun s => ?_, ?_⟩
      · rw [lookup_append_new hn, if_neg (by simp), h.lookup_eq]
      · rw [lookup_append_new hn, if_pos rfl]

/-- A list of entries gives the map of them, unless one is for what an earlier one is for. -/
theorem ofList_ends (otherwise : α) (entries : List (Option Repository × α)) :
    Ends (firstError (repeatChecks clashOf [] (entries.map Prod.fst))) (Made · otherwise entries)
      (ofList otherwise entries) := by
  have hempty : Holds ([] : List (Option Repository × α)) [] none := ⟨.nil, fun _ => rfl, rfl⟩
  exact addAll_ends hempty

namespace Made

variable {m m' : PerRepo α} {otherwise : α} {entries entries' : List (Option Repository × α)}

theorem find_eq (h : m.Made otherwise entries) (r : Repository) : m.find r = meant otherwise entries r := by
  rw [find, meant, h.lookup_eq, h.fallback_eq]
  cases entries.lookup (some r) <;> rfl

/-- A map is known by what is found among the entries. -/
theorem eq_of_lookup (h : m.Made otherwise entries) (h' : m'.Made otherwise entries')
    (heq : ∀ place, entries.lookup place = entries'.lookup place) : m = m' := by
  obtain ⟨sorted, fallback⟩ := m
  obtain ⟨sorted', fallback'⟩ := m'
  have hsorted : sorted = sorted' :=
    h.ordered.eq_of_lookup h'.ordered fun r => (h.lookup_eq r).trans ((heq _).trans (h'.lookup_eq r).symm)
  have hfallback : fallback = fallback' := h.fallback_eq.trans (heq none ▸ h'.fallback_eq.symm)
  rw [hsorted, hfallback]

end Made

/-- The entries are in order, and all of them and the fallback have the property. -/
structure Consists (p : α → Prop) (m : PerRepo α) : Prop where
  ordered : Ordered m.entries
  entries : ∀ q ∈ m.entries, p q.2
  fallback : p m.fallback

/-- What is built from a list, in whatever order, has its entries in order and nothing that is not in the list. -/
theorem consists_of_ofList {p : α → Prop} {otherwise : α} {entries : List (Option Repository × α)} {m : PerRepo α}
    (ho : p otherwise) (he : ∀ q ∈ entries, p q.2) (h : ofList otherwise entries = .ok m) : Consists p m := by
  have hm := ((ofList_ends otherwise entries).good_of_ok h).2
  refine ⟨hm.ordered, fun q hq => ?_, ?_⟩
  · have hlookup := (hm.lookup_eq q.1).symm.trans (Expr.lookup_of_mem hm.ordered.nodup hq)
    exact he _ (Expr.mem_of_lookup hlookup)
  · rw [hm.fallback_eq]
    cases hn : entries.lookup none with
    | none => exact ho
    | some a => exact he _ (Expr.mem_of_lookup hn)

end PerRepo

/-! ## Entries of a fallback -/

namespace Expr

open PerRepo (Ordered)

theorem lookup_inherit (r : Repository) (entries : List (Repository × Expr)) (fallback : Expr) :
    ((inherit entries fallback).lookup r).getD fallback.elsewhere = (entries.lookup r).getD (fallback.inRepo r) := by
  cases fallback with
  | perRepo more e =>
    simp only [inherit, elsewhere, inRepo]
    induction more generalizing entries with
    | nil => rfl
    | cons p more ih =>
      obtain ⟨s, d⟩ := p
      rw [List.foldl_cons, ih, lookup_cons_eq_ite]
      by_cases hrs : r = s
      · subst hrs
        cases hl : entries.lookup r with
        | none => simp [PerRepo.lookup_insert]
        | some c => simp [hl]
      · rw [if_neg hrs]
        split
        · rfl
        · rw [PerRepo.lookup_insert, if_neg hrs]
  | const | leaf | not | and | or => rfl

theorem mem_inherit {entries : List (Repository × Expr)} {fallback : Expr} {p : Repository × Expr}
    (h : p ∈ inherit entries fallback) : p ∈ entries ∨ ∃ more e, fallback = .perRepo more e ∧ p ∈ more := by
  cases fallback with
  | perRepo more e =>
    refine (?_ : p ∈ entries ∨ p ∈ more).imp_right fun hp => ⟨more, e, rfl, hp⟩
    simp only [inherit] at h
    induction more generalizing entries with
    | nil => exact Or.inl h
    | cons q more ih =>
      rw [List.foldl_cons] at h
      rcases ih h with hp | hp
      · split at hp
        · exact Or.inl hp
        · rcases PerRepo.mem_insert hp with rfl | hp
          · exact Or.inr List.mem_cons_self
          · exact Or.inl hp
      · exact Or.inr (List.mem_cons_of_mem _ hp)
  | const | leaf | not | and | or => exact Or.inl h

theorem ordered_inherit {entries : List (Repository × Expr)} (h : Ordered entries) (fallback : Expr) :
    Ordered (inherit entries fallback) := by
  cases fallback with
  | perRepo more e =>
    simp only [inherit]
    induction more generalizing entries with
    | nil => exact h
    | cons q more ih =>
      rw [List.foldl_cons]
      split
      · exact ih h
      · exact ih (h.insert q.1 q.2)
  | const | leaf | not | and | or => exact h

end Expr

end Triage
