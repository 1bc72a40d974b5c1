/-
  Triage.Proofs.Registry — a registry is made of distinct repositories and keeps their order.

  The index of a registry knows exactly the repositories of its list, of which no two are one (`Made`). Each
  repository that is added keeps that, and one that is there already is refused. So a list gives a registry if it has
  no repetition, and otherwise the first repository that repeats an earlier one (`ofList_ends`).

  The index also leads to the list: a place in it is within the list, and its repository stands there (`Indexed`). The
  place of a new repository is the end of the list, so this is kept as well, and what is found for a name is the
  repository that it names (`find?_eq_some_iff`).
-/

import Triage.Repository
import Triage.Proofs.Check
import Triage.Proofs.Expr.Basic

namespace Triage.Registry

/-- The registry is that of these repositories. -/
structure Made (g : Registry) (rs : List Repository) : Prop where
  repositories_eq : g.repositories = rs
  contains_iff : ∀ r, g.contains r = true ↔ r ∈ rs
  nodup : rs.Nodup

variable {g : Registry} {rs before : List Repository} {r : Repository}

theorem made_empty : empty.Made [] := by
  refine ⟨rfl, fun r => ?_, .nil⟩
  simp [contains, place?, empty]

theorem Made.add (h : g.Made rs) (hr : r ∉ rs) : (g.add r).Made (rs ++ [r]) := by
  refine ⟨?_, fun s => ?_, ?_⟩
  · rw [← h.repositories_eq]
    rfl
  · have hs := h.contains_iff s
    simp only [contains, place?] at hs
    simp only [contains, place?, Registry.add, List.mem_append, List.mem_singleton]
    rw [Expr.lookup_cons_eq_ite, ← hs]
    by_cases hsr : s = r <;> simp [hsr]
  · exact h.nodup.append (List.nodup_singleton r) (List.disjoint_singleton.mpr hr)

theorem addAll_ends (h : g.Made before) :
    Ends (firstError (repeatChecks id before rs)) (Made · (before ++ rs)) (g.addAll rs) := by
  induction rs generalizing g before with
  | nil =>
    rw [List.append_nil]
    exact .pure h
  | cons r rs ih =>
    rw [repeatChecks, withBefore, List.map_cons, firstError_cons, addAll]
    refine .check (h.contains_iff r) fun hr => ?_
    have hrest := ih (h.add hr)
    rwa [List.append_assoc, List.singleton_append] at hrest

theorem ofList_ends (rs : List Repository) : Ends (firstError (repeatChecks id [] rs)) (Made · rs) (ofList rs) :=
  addAll_ends made_empty

theorem made_of_ofList (h : ofList rs = .ok g) : g.Made rs := ((ofList_ends rs).good_of_ok h).2

/-! ## Places -/

/-- Each place in the index is one of the list, and its repository stands there. -/
def Indexed (g : Registry) : Prop := ∀ r n, g.place? r = some n → g.repositories[n]? = some r

theorem place?_add (g : Registry) (r s : Repository) :
    (g.add r).place? s = if s = r then some g.size else g.place? s :=
  Expr.lookup_cons_eq_ite s r g.size g.index

theorem indexed_empty : empty.Indexed := nofun

theorem Indexed.add (h : g.Indexed) (r : Repository) : (g.add r).Indexed := by
  intro s n hn
  rw [Registry.add, getElem?_concat_eq_some_iff]
  rw [place?_add] at hn
  split at hn
  · rename_i hs
    cases hn
    exact .inr ⟨rfl, hs⟩
  · exact .inl (h s n hn)

theorem Indexed.addAll {g' : Registry} (h : g.Indexed) (hg : g.addAll rs = .ok g') : g'.Indexed := by
  induction rs generalizing g with
  | nil =>
    cases hg
    exact h
  | cons r rs ih =>
    rw [Registry.addAll] at hg
    split at hg
    · cases hg
    · exact ih (h.add r) hg

theorem indexed_of_ofList (h : ofList rs = .ok g) : g.Indexed := indexed_empty.addAll h

theorem Made.mem_iff (h : g.Made rs) : r ∈ rs ↔ ∃ n, g.place? r = some n := by
  rw [← h.contains_iff, contains, Option.isSome_iff_exists]

theorem place?_eq_some_iff (h : ofList rs = .ok g) {n : Nat} : g.place? r = some n ↔ rs[n]? = some r := by
  have hmade := made_of_ofList h
  have hplace : ∀ {m}, g.place? r = some m → rs[m]? = some r := by
    intro m hm
    rw [← hmade.repositories_eq]
    exact indexed_of_ofList h r m hm
  constructor
  · exact hplace
  · intro hn
    obtain ⟨m, hm⟩ := hmade.mem_iff.mp (List.mem_of_getElem? hn)
    have hlt := (List.getElem?_eq_some_iff.mp hn).1
    -- the repository stands at `m` as well, and there are no two of it
    rw [hm, (List.getElem?_inj hlt hmade.nodup).mp (hn.trans (hplace hm).symm)]

theorem find?_eq_some_iff (h : ofList rs = .ok g) {name : String} :
    g.find? name = some r ↔ Repository.parse name = .ok r ∧ r ∈ rs := by
  rw [(made_of_ofList h).mem_iff]
  unfold find?
  cases hparse : Repository.parse name with
  | error e => simp
  | ok s =>
    simp only [Except.ok.injEq, Option.bind_eq_some_iff]
    constructor
    · rintro ⟨n, hn, hr⟩
      rw [indexed_of_ofList h s n hn] at hr
      cases hr
      exact ⟨rfl, n, hn⟩
    · rintro ⟨rfl, n, hn⟩
      exact ⟨n, hn, indexed_of_ofList h s n hn⟩

/-! ## Registries of lists -/

theorem ofList_eq_error_iff : ofList rs = .error r ↔
    ∃ front back, rs = front ++ r :: back ∧ front.Nodup ∧ r ∈ front := by
  rw [(ofList_ends rs).eq_error_iff, firstError_repeatChecks_eq_some_iff]
  constructor
  · rintro ⟨front, _, back, hrs, hn, hmem, rfl⟩
    exact ⟨front, back, hrs, hn, hmem⟩
  · rintro ⟨front, back, hrs, hn, hmem⟩
    exact ⟨front, r, back, hrs, hn, hmem, rfl⟩

theorem exists_ofList_iff : (∃ g, ofList rs = .ok g) ↔ rs.Nodup := by
  rw [(ofList_ends rs).exists_ok_iff, firstError_repeatChecks_eq_none_iff]

/-- A list with a repetition is refused, with the first repository that repeats an earlier one. Of any other list there
    is a registry, which has the repositories of the list in their order and no others. A name finds the repository
    that it names if that is in the list, and the index leads each repository to where it stands. -/
theorem ofList_is_indexed (rs : List Repository) :
    ((∃ r, ofList rs = .error r) ↔ ¬ rs.Nodup) ∧
    (∀ r, ofList rs = .error r ↔ ∃ front back, rs = front ++ r :: back ∧ front.Nodup ∧ r ∈ front) ∧
    (rs.Nodup → ∃ g, ofList rs = .ok g ∧ g.repositories = rs ∧ (∀ r, g.contains r = true ↔ r ∈ rs) ∧
      (∀ name r, g.find? name = some r ↔ Repository.parse name = .ok r ∧ r ∈ rs) ∧
      ∀ r n, g.place? r = some n ↔ rs[n]? = some r) := by
  refine ⟨?_, fun r => ofList_eq_error_iff, fun hn => ?_⟩
  · rw [← exists_ofList_iff]
    cases ofList rs <;> simp
  · obtain ⟨g, hg⟩ := exists_ofList_iff.mpr hn
    have hmade := made_of_ofList hg
    refine ⟨g, hg, hmade.repositories_eq, hmade.contains_iff, ?_, ?_⟩
    · exact fun _ _ => find?_eq_some_iff hg
    · exact fun _ _ => place?_eq_some_iff hg

/-- Two repositories, and the second under another spelling of its name. -/
theorem ofList_is_indexed_respelled :
    let runtime : Repository := ⟨"dotnet", "runtime", by decide, by decide, by decide, by decide⟩
    let corefx : Repository := ⟨"dotnet", "corefx", by decide, by decide, by decide, by decide⟩
    [corefx, runtime].Nodup ∧ ∃ g, ofList [corefx, runtime] = .ok g ∧ g.repositories = [corefx, runtime] ∧
      g.find? " DotNet/Runtime" = some runtime ∧ g.find? "dotnet/aspnetcore" ≠ some runtime ∧
      g.place? runtime = some 1 := by
  intro runtime corefx
  have hn : [corefx, runtime].Nodup := by decide
  obtain ⟨g, hg, hlist, -, hfind, hplace⟩ := (ofList_is_indexed [corefx, runtime]).2.2 hn
  refine ⟨hn, g, hg, hlist, (hfind _ _).mpr ⟨by decide, by decide⟩, fun h => ?_, (hplace _ _).mpr rfl⟩
  exact absurd ((hfind _ _).mp h).1 (by decide)

end Triage.Registry
