/-
  Triage.Proofs.Expr.Entries — a list of entries is one map, in whatever order it comes.

  `PerRepo.ofList` refuses a list that repeats what an earlier entry is for, and tells the first entry that does
  (`ofList_eq_error_iff`). Of any other list it makes the map of its entries (`Made`), which is known by what is found
  among them. Nothing is found twice there, so the order of the entries does not count (`ofList_of_perm`), and the
  entries and the fallback of a map make that map again (`ofList_listed`).
-/

import Triage.Proofs.Expr.PerRepo

namespace Triage.PerRepo

variable {α : Type} {otherwise : α} {entries entries' : List (Option Repository × α)} {m : PerRepo α}
  {r : Repository} {a : α}

/-! ## What is refused -/

theorem exists_ofList_iff : (∃ m, ofList otherwise entries = .ok m) ↔ (entries.map Prod.fst).Nodup := by
  rw [(ofList_ends otherwise entries).exists_ok_iff, firstError_repeatChecks_eq_none_iff]

theorem nodup_keys_iff : (entries.map Prod.fst).Nodup ↔
    (entries.filterMap Prod.fst).Nodup ∧ entries.countP (fun p => p.1.isNone) ≤ 1 := by
  rw [nodup_iff_filterMap_id, List.filterMap_map, List.countP_map]
  rfl

/-- The error is that of the first entry for what an earlier one is for. -/
theorem ofList_eq_error_iff {clash : Clash} : ofList otherwise entries = .error clash ↔
    ∃ front key a back, entries = front ++ (key, a) :: back ∧ (front.map Prod.fst).Nodup ∧
      key ∈ front.map Prod.fst ∧ clash = clashOf key := by
  rw [(ofList_ends otherwise entries).eq_error_iff, firstError_repeatChecks_eq_some_iff]
  constructor
  · rintro ⟨keys, key, more, hkeys, hn, hmem, rfl⟩
    obtain ⟨front, rest, rfl, rfl, hrest⟩ := List.map_eq_append_iff.mp hkeys
    obtain ⟨⟨_, a⟩, back, rfl, rfl, -⟩ := List.map_eq_cons_iff.mp hrest
    exact ⟨front, _, a, back, rfl, hn, hmem, rfl⟩
  · rintro ⟨front, key, a, back, rfl, hn, hmem, rfl⟩
    exact ⟨front.map Prod.fst, key, back.map Prod.fst, by rw [List.map_append, List.map_cons], hn, hmem, rfl⟩

/-! ## What is found -/

theorem made_of_ofList (h : ofList otherwise entries = .ok m) :
    (entries.map Prod.fst).Nodup ∧ m.Made otherwise entries :=
  ⟨exists_ofList_iff.mp ⟨m, h⟩, ((ofList_ends otherwise entries).good_of_ok h).2⟩

/-- A map of the entries is what they make. -/
theorem Made.ofList_eq (h : m.Made otherwise entries) (hn : (entries.map Prod.fst).Nodup) :
    ofList otherwise entries = .ok m := by
  obtain ⟨m', hm'⟩ := exists_ofList_iff.mpr hn
  rw [hm', (made_of_ofList hm').2.eq_of_lookup h fun _ => rfl]

theorem lookup_eq_none_iff {key : Option Repository} : entries.lookup key = none ↔ key ∉ entries.map Prod.fst := by
  rw [← isSome_lookup_iff, Bool.not_eq_true, Option.isSome_eq_false_iff, Option.isNone_iff_eq_none]

theorem find_of_mem (h : ofList otherwise entries = .ok m) (hr : (some r, a) ∈ entries) : m.find r = a := by
  obtain ⟨hn, hm⟩ := made_of_ofList h
  rw [hm.find_eq, meant, Expr.lookup_of_mem hn hr]
  rfl

theorem find_of_fallback (h : ofList otherwise entries = .ok m) (hr : some r ∉ entries.map Prod.fst)
    (ha : (none, a) ∈ entries) : m.find r = a := by
  obtain ⟨hn, hm⟩ := made_of_ofList h
  rw [hm.find_eq, meant, lookup_eq_none_iff.mpr hr, Expr.lookup_of_mem hn ha]
  rfl

theorem find_of_neither (h : ofList otherwise entries = .ok m) (hr : some r ∉ entries.map Prod.fst)
    (hn : none ∉ entries.map Prod.fst) : m.find r = otherwise := by
  rw [(made_of_ofList h).2.find_eq, meant, lookup_eq_none_iff.mpr hr, lookup_eq_none_iff.mpr hn]
  rfl

/-! ## Order, and making a map again -/

theorem ofList_of_perm (hp : entries'.Perm entries) (h : ofList otherwise entries = .ok m) :
    ofList otherwise entries' = .ok m := by
  obtain ⟨hn, hm⟩ := made_of_ofList h
  have hn' : (entries'.map Prod.fst).Nodup := (hp.map Prod.fst).nodup_iff.mpr hn
  have hlookup : ∀ key, entries'.lookup key = entries.lookup key := Expr.lookup_perm hp hn'
  refine Made.ofList_eq ⟨hm.ordered, fun s => ?_, ?_⟩ hn'
  · rw [hm.lookup_eq, hlookup]
  · rw [hm.fallback_eq, hlookup]

/-- The entries of a map and its fallback, as a list of entries. -/
def listed (m : PerRepo α) : List (Option Repository × α) :=
  m.entries.map (fun (r, a) => (some r, a)) ++ [(none, m.fallback)]

theorem nodup_keys_listed (ho : Ordered m.entries) : (m.listed.map Prod.fst).Nodup := by
  have hkeys : m.listed.map Prod.fst = (m.entries.map Prod.fst).map some ++ [none] := by
    rw [listed, List.map_append, List.map_map, List.map_map]
    rfl
  have hnone : none ∉ (m.entries.map Prod.fst).map some := by simp
  rw [hkeys]
  exact (ho.nodup.map (Option.some_injective _)).append (List.nodup_singleton _) (List.disjoint_singleton.mpr hnone)

theorem made_listed (ho : Ordered m.entries) : m.Made otherwise m.listed := by
  have hn := nodup_keys_listed ho
  refine ⟨ho, fun s => ?_, ?_⟩
  · cases hs : m.entries.lookup s with
    | some b =>
      have hmem : (some s, b) ∈ m.listed :=
        List.mem_append_left _ (List.mem_map.mpr ⟨(s, b), Expr.mem_of_lookup hs, rfl⟩)
      exact (Expr.lookup_of_mem hn hmem).symm
    | none =>
      refine (lookup_eq_none_iff.mpr fun hmem => ?_).symm
      obtain ⟨⟨_, b⟩, hb, rfl⟩ := List.mem_map.mp hmem
      rcases List.mem_append.mp hb with hb | hb
      · obtain ⟨⟨t, c⟩, hc, heq⟩ := List.mem_map.mp hb
        cases heq
        rw [Expr.lookup_of_mem ho.nodup hc] at hs
        cases hs
      · cases List.mem_singleton.mp hb
  · have hmem : (none, m.fallback) ∈ m.listed := List.mem_append_right _ (List.mem_singleton_self _)
    rw [Expr.lookup_of_mem hn hmem]
    rfl

theorem ofList_listed (ho : Ordered m.entries) : ofList otherwise m.listed = .ok m :=
  (made_listed ho).ofList_eq (nodup_keys_listed ho)

/-! ## Expressions per repository -/

/-- A list of entries is refused if it repeats a repository or has two fallbacks, with the error of the first entry
    that repeats an earlier one. Otherwise a repository finds its entry, or else the fallback of the list, or else
    `false`; the entries in any other order make the very same map, and so do the entries of the map with its
    fallback. -/
theorem ofList_is_a_map (entries : List (Option Repository × Expr)) :
    ((∃ m, ofList (.const false) entries = .ok m) ↔
      (entries.filterMap Prod.fst).Nodup ∧ entries.countP (fun p => p.1.isNone) ≤ 1) ∧
    (∀ clash, ofList (.const false) entries = .error clash ↔
      ∃ front key e back, entries = front ++ (key, e) :: back ∧ (front.map Prod.fst).Nodup ∧
        key ∈ front.map Prod.fst ∧ clash = clashOf key) ∧
    ∀ m, ofList (.const false) entries = .ok m →
      (∀ r,
        (∀ e, (some r, e) ∈ entries → m.find r = e) ∧
        (some r ∉ entries.map Prod.fst → ∀ e, (none, e) ∈ entries → m.find r = e) ∧
        (some r ∉ entries.map Prod.fst → none ∉ entries.map Prod.fst → m.find r = .const false)) ∧
      (∀ entries', entries'.Perm entries → ofList (.const false) entries' = .ok m) ∧
      ofList (.const false) m.listed = .ok m := by
  refine ⟨exists_ofList_iff.trans nodup_keys_iff, fun _ => ofList_eq_error_iff, fun m h => ⟨fun r => ?_, ?_, ?_⟩⟩
  · exact ⟨fun _ => find_of_mem h, fun hr _ => find_of_fallback h hr, find_of_neither h⟩
  · exact fun _ hp => ofList_of_perm hp h
  · exact ofList_listed (made_of_ofList h).2.ordered

/-- A fallback between two entries that are out of order. -/
theorem ofList_is_a_map_unsorted :
    let runtime : Repository := ⟨"dotnet", "runtime", by decide, by decide, by decide, by decide⟩
    let corefx : Repository := ⟨"dotnet", "corefx", by decide, by decide, by decide, by decide⟩
    let roslyn : Repository := ⟨"dotnet", "roslyn", by decide, by decide, by decide, by decide⟩
    let bug : Expr := .leaf (.label "bug")
    let later : Expr := .leaf (.milestone (some "Future"))
    let opened : Expr := .leaf (.isOpen true)
    let m : PerRepo Expr := ⟨[(corefx, opened), (runtime, bug)], later⟩
    ofList (.const false) [(some runtime, bug), (none, later), (some corefx, opened)] = .ok m ∧
      m.find corefx = opened ∧ m.find roslyn = later ∧
      ofList (.const false) [(some corefx, opened), (some runtime, bug), (none, later)] = .ok m ∧
      ofList (.const false) m.listed = .ok m := by
  intro runtime corefx roslyn bug later opened m
  have hordered : Ordered m.entries := by
    rw [Ordered, List.pairwise_pair]
    decide +kernel
  have hperm : ([(some runtime, bug), (none, later)] ++ [(some corefx, opened)]).Perm m.listed := List.perm_append_comm
  have h : ofList (.const false) [(some runtime, bug), (none, later), (some corefx, opened)] = .ok m :=
    ofList_of_perm hperm (ofList_listed hordered)
  obtain ⟨hfind, horder, hagain⟩ := (ofList_is_a_map _).2.2 m h
  refine ⟨h, (hfind corefx).1 _ ?_, (hfind roslyn).2.1 ?_ _ ?_, horder _ ?_, hagain⟩
  · exact List.mem_cons_of_mem _ (List.mem_cons_of_mem _ List.mem_cons_self)
  · decide
  · exact List.mem_cons_of_mem _ List.mem_cons_self
  · exact hperm.symm

end Triage.PerRepo
