/-
  Triage.Proofs.Catalog.Variants — a query with variants is in each repository the text that is for it.

  `QueryDefinition.textFor?` says which text that is. A query is built from an entry for each of its texts, so the
  formula of the text for a repository is what is found there (`Means.eval`), and where there is none nothing matches.
  The same query with its variants in another order (`Reordered`) is well formed if the query is, and since entries for
  different places are found in any order, it means the same formula (`Means.eq_of_reordered`). So each query adds the
  same to the catalog (`addQueries_eq_of_reordered`), in whatever order its variants are written.
-/

import Triage.Proofs.Catalog.Build

namespace Triage

/-- In a repository a formula per repository is what is found for it. -/
theorem Formula.eval_perRepo [Engine] (m : PerRepo Formula) (i : Issue) :
    (perRepo m).expr.eval i = (m.find i.repository).expr.eval i := by
  have hlookup := Expr.lookup_map (fun _ => Formula.expr) i.repository m.entries
  rw [expr_perRepo, Expr.eval, Expr.eval, PerRepo.toExpr, PerRepo.map, Expr.evalWith_perRepo, hlookup,
    Option.getD_map, PerRepo.find]

namespace Catalog

namespace QueryDefinition

variable {q q' : QueryDefinition} {rs : List Repository} {leaves : Query.Leaves} {f f' : Formula}

/-! ## The text for a repository -/

/-- The text of the variant for the repository, else that of the variant for no repository, else the query's own. -/
def textFor? (q : QueryDefinition) (r : Repository) : Option String :=
  (((q.variants.find? fun v => v.repository = some r).or
    (q.variants.find? fun v => v.repository = none)).map Variant.query).or q.query

/-- Each text with what it is for. -/
def written (q : QueryDefinition) : List (Option Repository × String) :=
  q.variants.map (fun v => (v.repository, v.query)) ++ q.query.toList.map fun text => (none, text)

@[simp] theorem map_fst_written (q : QueryDefinition) : q.written.map Prod.fst = q.places := by
  simp [written, places, Function.comp_def]

@[simp] theorem map_snd_written (q : QueryDefinition) : q.written.map Prod.snd = q.texts := by
  simp [written, texts, Function.comp_def]

theorem lookup_variants (place : Option Repository) (vs : List Variant) :
    (vs.map fun v => (v.repository, v.query)).lookup place =
      (vs.find? fun v => v.repository = place).map Variant.query := by
  induction vs with
  | nil => rfl
  | cons v vs ih =>
    rw [List.map_cons, List.lookup_cons, List.find?_cons, ih]
    by_cases h : v.repository = place
    · simp [h]
    · have hplace : (place == v.repository) = false := by simpa using Ne.symm h
      simp [h, hplace]

theorem textFor?_eq (q : QueryDefinition) (r : Repository) :
    q.textFor? r = (q.written.lookup (some r)).or (q.written.lookup none) := by
  have hsome : (q.query.toList.map fun text => ((none : Option Repository), text)).lookup (some r) = none := by
    cases q.query <;> rfl
  have hnone : (q.query.toList.map fun text => ((none : Option Repository), text)).lookup none = q.query := by
    cases q.query <;> rfl
  rw [textFor?, written, List.lookup_append, List.lookup_append, lookup_variants, lookup_variants, hsome, hnone,
    Option.or_none, Option.map_or, Option.or_assoc]

/-! ## What is found -/

/-- The entries are the texts one by one, so what is found for a place is the formula of the text that is. -/
theorem lookup_entries_rel {entries : List (Option Repository × Formula)} (hplaces : entries.map Prod.fst = q.places)
    (htexts : List.Forall₂ (fun text e => Query.parse leaves text = .ok e.2) q.texts entries)
    (place : Option Repository) :
    Option.Rel (fun text f => Query.parse leaves text = .ok f) (q.written.lookup place) (entries.lookup place) := by
  refine Expr.lookup_rel (Expr.entries_rel ?_ ?_) place
  · rw [map_fst_written, hplaces]
  · rw [map_snd_written, List.forall₂_map_right_iff]
    exact htexts

/-- What the entries give a repository is the formula of the text for it. -/
theorem textFor?_rel {entries : List (Option Repository × Formula)} (hplaces : entries.map Prod.fst = q.places)
    (htexts : List.Forall₂ (fun text e => Query.parse leaves text = .ok e.2) q.texts entries) (r : Repository) :
    Option.Rel (fun text f => Query.parse leaves text = .ok f) (q.textFor? r)
      ((entries.lookup (some r)).or (entries.lookup none)) := by
  rw [textFor?_eq]
  have hown := lookup_entries_rel hplaces htexts (some r)
  generalize q.written.lookup (some r) = x, entries.lookup (some r) = y at hown ⊢
  cases hown with
  | some hf => exact .some hf
  | none => exact lookup_entries_rel hplaces htexts none

/-- A query with variants matches what the text for the issue's repository does, and nothing where there is none. -/
theorem Means.eval [Engine] (h : q.Means leaves f) (hv : q.variants ≠ []) (i : Issue) :
    (∀ text, q.textFor? i.repository = some text →
      ∃ g, Query.parse leaves text = .ok g ∧ f.expr.eval i = g.expr.eval i) ∧
    (q.textFor? i.repository = none → f.expr.eval i = false) := by
  cases h with
  | plain hvariants => exact absurd hvariants hv
  | @perRepo entries m _ hplaces htexts hmade =>
    have hfound := textFor?_rel hplaces htexts i.repository
    rw [Formula.eval_perRepo, hmade.find_eq, PerRepo.meant]
    generalize q.textFor? i.repository = x, (entries.lookup (some i.repository)).or _ = y at hfound ⊢
    cases hfound with
    | some hg =>
      constructor
      · intro text htext
        cases htext
        exact ⟨_, hg, rfl⟩
      · intro hnone
        cases hnone
    | none =>
      constructor
      · intro text htext
        cases htext
      · intro _
        rfl

/-! ## Variants in another order -/

/-- The same query, with its variants in any order. -/
structure Reordered (q q' : QueryDefinition) : Prop where
  name : q.name = q'.name
  query : q.query = q'.query
  variants : q.variants.Perm q'.variants

namespace Reordered

theorem variants_eq_nil_iff (h : q.Reordered q') : q.variants = [] ↔ q'.variants = [] := by
  rw [← List.length_eq_zero_iff, ← List.length_eq_zero_iff, h.variants.length_eq]

theorem written (h : q.Reordered q') : q.written.Perm q'.written := by
  rw [QueryDefinition.written, QueryDefinition.written, h.query]
  exact (h.variants.map _).append_right _

theorem texts (h : q.Reordered q') : q.texts.Perm q'.texts := by
  rw [← map_snd_written, ← map_snd_written]
  exact h.written.map _

theorem wellFormed (h : q.Reordered q') (hq : q.WellFormed rs leaves) : q'.WellFormed rs leaves where
  has_text := by
    rw [← h.query, ne_eq q'.variants, ← h.variants_eq_nil_iff]
    exact hq.has_text
  registered v hv := hq.registered v (h.variants.mem_iff.mpr hv)
  distinct := (h.variants.filterMap _).nodup_iff.mp hq.distinct
  one_default := by
    rw [← h.query, ← h.variants.countP_eq]
    exact hq.one_default
  parses text ht := hq.parses text (h.texts.mem_iff.mpr ht)

end Reordered

/-- The order of the variants of a query does not change its formula. -/
theorem Means.eq_of_reordered (h : q.Means leaves f) (h' : q'.Means leaves f') (hq : q.Reordered q')
    (hn : q.places.Nodup) : f = f' := by
  cases h with
  | plain hvariants hquery hf =>
    cases h' with
    | plain hvariants' hquery' hf' =>
      obtain rfl := Option.some.inj (hquery.symm.trans (hq.query.trans hquery'))
      exact Except.ok.inj (hf.symm.trans hf')
    | perRepo hvariants' => exact absurd (hq.variants_eq_nil_iff.mp hvariants) hvariants'
  | @perRepo entries m hvariants hplaces htexts hmade =>
    cases h' with
    | plain hvariants' => exact absurd (hq.variants_eq_nil_iff.mpr hvariants') hvariants
    | @perRepo entries' m' _ hplaces' htexts' hmade' =>
      refine congrArg Formula.perRepo (hmade.eq_of_lookup hmade' fun place => ?_)
      have hwritten : q.written.lookup place = q'.written.lookup place :=
        Expr.lookup_perm hq.written (by rwa [map_fst_written]) place
      have hfound := lookup_entries_rel hplaces htexts place
      have hfound' := lookup_entries_rel hplaces' htexts' place
      rw [← hwritten] at hfound'
      generalize q.written.lookup place = x, entries.lookup place = y, entries'.lookup place = y' at hfound hfound' ⊢
      cases hfound with
      | none =>
        cases hfound'
        rfl
      | some hf =>
        cases hfound' with
        | some hf' => exact congrArg some (Except.ok.inj (hf.symm.trans hf'))

end QueryDefinition

/-! ## The queries of a catalog -/

variable {c : Config} {cat : Catalog} {g : Registry} {rs : List Repository} {leaves : Query.Leaves}
  {qs : List QueryDefinition}

theorem exists_find?_of_queriesAfter {named : Queries} (h : QueriesAfter leaves qs named) {q : QueryDefinition}
    (hq : q ∈ qs) : ∃ n, named.find? q.name = some n ∧ q.Means leaves n.formula := by
  obtain ⟨k, hk, rfl⟩ := List.mem_iff_getElem.mp hq
  have hk' : k < named.list.length := h.defined.length_eq ▸ hk
  obtain ⟨hname, hmeans⟩ := h.defined.get hk hk'
  exact ⟨_, h.indexed.find?_eq_some (List.getElem?_eq_getElem hk') (congrArg Text.fold hname), hmeans⟩

theorem build_eq_of_reordered {p q : QueryDefinition} (hg : g.Made rs) (hp : p.WellFormed rs leaves)
    (h : p.Reordered q) : q.build g leaves = p.build g leaves := by
  have hok : ∀ {d : QueryDefinition}, d.WellFormed rs leaves → ∃ f, d.build g leaves = .ok f ∧ d.Means leaves f := by
    intro d hd
    obtain ⟨f, hf⟩ := (d.build_ends hg leaves).exists_ok_iff.mpr
      (QueryDefinition.firstError_ownChecks_eq_none_iff.mpr hd)
    exact ⟨f, hf, ((d.build_ends hg leaves).good_of_ok hf).2⟩
  obtain ⟨f, hf, hmeans⟩ := hok hp
  obtain ⟨f', hf', hmeans'⟩ := hok (h.wellFormed hp)
  rw [hf, hf', hmeans.eq_of_reordered hmeans' h (QueryDefinition.nodup_places_iff.mpr ⟨hp.distinct, hp.one_default⟩)]

theorem addQueries_eq_of_reordered {ps : List QueryDefinition} (hg : g.Made rs)
    (hps : ∀ p ∈ ps, p.WellFormed rs leaves) (hqs : List.Forall₂ QueryDefinition.Reordered ps qs) (named : Queries) :
    qs.foldlM (addQuery g leaves) named = ps.foldlM (addQuery g leaves) named := by
  induction hqs generalizing named with
  | nil => rfl
  | @cons p q ps qs hpq _ ih =>
    obtain ⟨hp, hps⟩ := List.forall_mem_cons.mp hps
    have hadd : addQuery g leaves named q = addQuery g leaves named p := by
      rw [addQuery, addQuery, build_eq_of_reordered hg hp hpq, hpq.name]
    rw [List.foldlM_cons, List.foldlM_cons, hadd]
    exact congrArg _ (funext fun named => ih hps named)

/-- The order in which the variants of each query are written does not change the catalog. -/
theorem build_of_reordered [Engine] (h : build c = .ok cat)
    (hqs : List.Forall₂ QueryDefinition.Reordered c.queries qs) :
    build { c with queries := qs } = .ok cat := by
  obtain ⟨herror, hbuilt⟩ := (build_ends c).good_of_ok h
  have hqueries := (firstError_checks_eq_none_iff.mp herror).queries
  rw [← hbuilt.leaves] at hqueries
  obtain ⟨hrepositories, hleaves, hnamed⟩ := build_eq_ok_iff.mp h
  rw [← addQueries_eq_of_reordered hbuilt.repositories hqueries hqs] at hnamed
  exact build_eq_ok_iff.mpr ⟨hrepositories, hleaves, hnamed⟩

/-- A query with variants matches an issue if the text for its repository does, and with no such text it matches none.
    The catalog is the same in whatever order the variants are written. -/
theorem variants_decide_by_repository [Engine] (c : Config) (cat : Catalog) (h : build c = .ok cat) :
    (∀ q ∈ c.queries, q.variants ≠ [] → ∃ n, cat.find? q.name = some n ∧ ∀ i : Issue,
      (∀ text, q.textFor? i.repository = some text →
        ∃ f, cat.parseQuery text = .ok f ∧ n.expression.eval i = f.expr.eval i) ∧
      (q.textFor? i.repository = none → n.expression.eval i = false)) ∧
    ∀ qs, List.Forall₂ QueryDefinition.Reordered c.queries qs → build { c with queries := qs } = .ok cat := by
  obtain ⟨-, hbuilt⟩ := (build_ends c).good_of_ok h
  refine ⟨fun q hq hv => ?_, fun qs hqs => build_of_reordered h hqs⟩
  obtain ⟨n, hfind, hmeans⟩ := exists_find?_of_queriesAfter hbuilt.named hq
  exact ⟨n, hfind, hmeans.eval hv⟩

/-- A repository with a variant of its own, one for which there is the variant for the others, and one for which
    another query has no text at all. -/
theorem variants_decide_by_repository_areas :
    let runtime : Repository := ⟨"dotnet", "runtime", by decide, by decide, by decide, by decide⟩
    let sdk : Repository := ⟨"dotnet", "sdk", by decide, by decide, by decide, by decide⟩
    let areas : QueryDefinition := ⟨"Areas", none, [⟨some runtime, "label:area-Meta"⟩, ⟨none, "is:issue"⟩]⟩
    let ours : QueryDefinition := ⟨"Ours", none, [⟨some runtime, "is:open"⟩]⟩
    let c : Config := ⟨[runtime, sdk], .empty, [], [areas, ours]⟩
    ∃ cat n m, build c = .ok cat ∧ cat.find? "Areas" = some n ∧ cat.find? "Ours" = some m ∧
      (∃ f, cat.parseQuery "label:area-Meta" = .ok f ∧
        n.expression.eval (.new runtime 1) = f.expr.eval (.new runtime 1)) ∧
      (∃ f, cat.parseQuery "is:issue" = .ok f ∧ n.expression.eval (.new sdk 1) = f.expr.eval (.new sdk 1)) ∧
      m.expression.eval (.new sdk 1) = false ∧
      build { c with queries := [{ areas with variants := areas.variants.reverse }, ours] } = .ok cat := by
  intro runtime sdk areas ours c
  obtain ⟨cat, hcat⟩ := (build_ends c).exists_ok_iff.mpr (by decide +kernel)
  obtain ⟨hqueries, horder⟩ := variants_decide_by_repository c cat hcat
  obtain ⟨n, hn, hareas⟩ := hqueries areas (by decide) (by decide)
  obtain ⟨m, hm, hours⟩ := hqueries ours (by decide) (by decide)
  have hreordered : List.Forall₂ QueryDefinition.Reordered [areas, ours]
      [{ areas with variants := areas.variants.reverse }, ours] :=
    .cons ⟨rfl, rfl, (List.reverse_perm _).symm⟩ (.cons ⟨rfl, rfl, .rfl⟩ .nil)
  exact ⟨cat, n, m, hcat, hn, hm, (hareas (.new runtime 1)).1 _ (by decide), (hareas (.new sdk 1)).1 _ (by decide),
    (hours (.new sdk 1)).2 (by decide), horder _ hreordered⟩

end Catalog

end Triage
