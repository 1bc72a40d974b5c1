/-
  Triage.Proofs.Catalog.Build — a configuration is built just when it is well formed, and otherwise ends in its first
  fault.

  Each part of the build ends in the error of the first of its checks that fails, and otherwise gives what the
  definitions say. Three invariants carry the loops: the registry is that of the repositories so far, the leaves are
  those of the definitions so far, and there is one named query for each definition so far, to whose place the index
  leads every spelling of its name (`Queries.Indexed`).
-/

import Triage.Proofs.Catalog.WellFormed
import Triage.Regex.Engine

namespace Triage.Catalog

variable {c : Config} {g : Registry} {rs : List Repository} {leaves : Query.Leaves}

/-! ## Texts -/

theorem parse_ends (leaves : Query.Leaves) (name text : String) :
    Ends (textError? leaves name text) (fun f => Query.parse leaves text = .ok f) (parse leaves name text) := by
  unfold textError? parse
  cases Query.parse leaves text with
  | ok f => exact .pure rfl
  | error e => exact .fail _

theorem pattern_ends [Engine] (name text : String) :
    Ends (failIf (Pattern.ofText? text).isNone (.pattern name)) (fun p => Pattern.ofText? text = some p)
      (pattern name text) := by
  unfold pattern
  cases Pattern.ofText? text with
  | some p => exact .pure rfl
  | none => exact .fail _

/-! ## Leaves -/

section Leaves

variable [Engine]

theorem CustomLeaf.build_ends (leaves : Query.Leaves) (l : CustomLeaf) :
    Ends (l.definitionError? leaves) (fun f => l.definition.formula? leaves = some f) (l.build leaves) := by
  unfold definitionError? build
  cases l.definition with
  | query text => exact (parse_ends leaves l.name text).mono fun f hf => formula?_query_iff.mpr hf
  | labelPattern text | milestonePattern text =>
    refine (pattern_ends l.name text).map fun p hp => ?_
    rw [LeafDefinition.formula?, hp]
    rfl

/-- The leaves are those of the definitions so far, each of which means something. -/
def LeavesAfter (c : Config) (before : List CustomLeaf) (leaves : Query.Leaves) : Prop :=
  leaves = leavesOf c before ∧ Defined c before

theorem addLeaf_ends (before : List CustomLeaf) (l : CustomLeaf) (h : LeavesAfter c before leaves) :
    Ends (firstError (l.checks c before)) (LeavesAfter c (before ++ [l])) (addLeaf leaves l) := by
  obtain ⟨rfl, hdefined⟩ := h
  rw [CustomLeaf.checks, firstError_cons, firstError_cons]
  refine .check Query.fold_mem_iff_isReserved fun _ => (l.build_ends _).bind fun f hf => ?_
  rw [firstError_cons]
  refine .check (isSome_find?_leavesOf_iff hdefined l.name) fun _ => .pure ⟨?_, ?_⟩
  · rw [leavesOf_concat, withLeaf, hf]
  · exact defined_concat_iff.mpr ⟨hdefined, f, hf⟩

theorem addLeaves_ends (c : Config) (ls : List CustomLeaf) :
    Ends (firstError ((withBefore [] ls).flatMap fun p => p.2.checks c p.1)) (LeavesAfter c ls)
      (ls.foldlM addLeaf (untriagedLeaf c)) := by
  have hempty : LeavesAfter c [] (untriagedLeaf c) := by
    refine ⟨rfl, fun before l after h => ?_⟩
    simp at h
  exact Ends.foldlM (fun before l leaves => addLeaf_ends before l) hempty

end Leaves

/-! ## Queries -/

theorem Variant.build_ends (hg : g.Made rs) (leaves : Query.Leaves) (name : String) (v : Variant) :
    Ends (firstError (v.checks rs leaves name)) (fun e => e.1 = v.repository ∧ Query.parse leaves v.query = .ok e.2)
      (v.build g leaves name) := by
  have hquery : Ends (textError? leaves name v.query)
      (fun e : Option Repository × Formula => e.1 = v.repository ∧ Query.parse leaves v.query = .ok e.2)
      (parse leaves name v.query >>= fun f => .ok (v.repository, f)) :=
    (parse_ends leaves name v.query).bind_pure fun f hf => ⟨rfl, hf⟩
  rw [checks, firstError_cons, firstError_singleton, build]
  cases hr : v.repository with
  | none =>
    rw [hr] at hquery
    exact hquery
  | some r =>
    rw [hr] at hquery
    by_cases hmem : r ∈ rs
    · simp only [Option.bind_some, failIf, if_neg (not_not.mpr hmem), if_pos ((hg.contains_iff r).mpr hmem)]
      exact hquery
    · have hcontains : ¬ g.contains r = true := fun hc => hmem ((hg.contains_iff r).mp hc)
      simp only [Option.bind_some, failIf, if_pos hmem, if_neg hcontains]
      exact .fail _

namespace QueryDefinition

/-- What the query is where queries call the given leaves: its one text, or for each repository the text that is for
    it, and false where there is none. -/
inductive Means (leaves : Query.Leaves) (q : QueryDefinition) : Formula → Prop
  | plain {text : String} {f : Formula} (hvariants : q.variants = []) (hquery : q.query = some text)
      (hf : Query.parse leaves text = .ok f) : Means leaves q f
  | perRepo {entries : List (Option Repository × Formula)} {m : PerRepo Formula} (hvariants : q.variants ≠ [])
      (hplaces : entries.map Prod.fst = q.places)
      (htexts : List.Forall₂ (fun text e => Query.parse leaves text = .ok e.2) q.texts entries)
      (hmade : m.Made (.const false) entries) : Means leaves q (.perRepo m)

/-- A query without variants is its one text. -/
theorem build_ends_of_nil (leaves : Query.Leaves) {q : QueryDefinition} (hv : q.variants = []) :
    Ends (firstError (q.ownChecks rs leaves)) (q.Means leaves) (q.build g leaves) := by
  unfold build ownChecks
  rw [places, hv]
  cases hq : q.query with
  | none => exact .fail _
  | some text =>
    -- the one text is for all repositories, so there is nothing it can clash with
    have herror : firstError [textError? leaves q.name text, none] = textError? leaves q.name text := by
      rw [firstError_cons, firstError_singleton, Option.or_none]
    show Ends (firstError [textError? leaves q.name text, none]) (q.Means leaves) (parse leaves q.name text)
    rw [herror]
    exact (parse_ends leaves q.name text).mono fun f hf => .plain hv hq hf

/-- A query with variants has an entry for each of its texts. -/
theorem ofList_ends {leaves : Query.Leaves} {q : QueryDefinition} {entries : List (Option Repository × Formula)}
    (hv : q.variants ≠ []) (hplaces : entries.map Prod.fst = q.places)
    (htexts : List.Forall₂ (fun text e => Query.parse leaves text = .ok e.2) q.texts entries) :
    Ends (firstError (repeatChecks (fun r => Error.clash q.name (PerRepo.clashOf r)) [] q.places)) (q.Means leaves)
      (((PerRepo.ofList (.const false) entries).map Formula.perRepo).mapError (Error.clash q.name)) := by
  have hmap := (PerRepo.ofList_ends (.const false) entries).map fun m hm => Means.perRepo hv hplaces htexts hm
  rw [hplaces] at hmap
  have hclash := hmap.mapError (f := Error.clash q.name)
  rwa [map_firstError_repeatChecks] at hclash

/-- The entry for what has no text of its own. -/
def fallback (leaves : Query.Leaves) (q : QueryDefinition) : Except Error (List (Option Repository × Formula)) :=
  match q.query with
  | some text => (parse leaves q.name text).map fun f => [(none, f)]
  | none => .ok []

theorem fallback_ends (leaves : Query.Leaves) (q : QueryDefinition) :
    Ends (firstError (q.query.toList.map (textError? leaves q.name)))
      (fun es => es.map Prod.fst = q.query.toList.map (fun _ => none) ∧
        List.Forall₂ (fun text e => Query.parse leaves text = .ok e.2) q.query.toList es) (q.fallback leaves) := by
  unfold fallback
  cases q.query with
  | none => exact .pure ⟨rfl, .nil⟩
  | some text =>
    rw [Option.toList_some, List.map_singleton, firstError_singleton]
    exact (parse_ends leaves q.name text).map fun f hf => ⟨rfl, .cons hf .nil⟩

theorem build_of_ne_nil {leaves : Query.Leaves} {q : QueryDefinition} (hv : q.variants ≠ []) :
    q.build g leaves = (q.variants.mapM (·.build g leaves q.name) >>= fun entries =>
      q.fallback leaves >>= fun fallback =>
        ((PerRepo.ofList (.const false) (entries ++ fallback)).map Formula.perRepo).mapError (Error.clash q.name)) := by
  unfold build fallback
  cases hvs : q.variants with
  | nil => exact absurd hvs hv
  | cons v vs => cases q.query <;> rfl

theorem build_ends_of_ne_nil (hg : g.Made rs) (leaves : Query.Leaves) {q : QueryDefinition} (hv : q.variants ≠ []) :
    Ends (firstError (q.ownChecks rs leaves)) (q.Means leaves) (q.build g leaves) := by
  have hnonempty : failIf (q.variants = [] ∧ q.query = none) (Error.emptyQuery q.name) = none := by
    rw [failIf_eq_none_iff]
    exact fun h => hv h.1
  rw [ownChecks, firstError_cons, hnonempty, Option.none_or, firstError_append, firstError_append,
    build_of_ne_nil hv]
  -- variants in order, then the text for the others, then what each is for: the order of `ownChecks`
  refine (Ends.mapM (Variant.build_ends hg leaves q.name) q.variants).bind fun entries hentries => ?_
  refine (q.fallback_ends leaves).bind fun fallback hfallback => ofList_ends hv ?_ ?_
  · rw [List.map_append, hfallback.1, map_eq_map_of_forall₂ (fun v _ e h => h.1) hentries, places]
  · exact List.rel_append (List.forall₂_map_left_iff.mpr (hentries.imp fun v e h => h.2)) hfallback.2

theorem build_ends (hg : g.Made rs) (leaves : Query.Leaves) (q : QueryDefinition) :
    Ends (firstError (q.ownChecks rs leaves)) (q.Means leaves) (q.build g leaves) := by
  by_cases hv : q.variants = []
  · exact build_ends_of_nil leaves hv
  · exact build_ends_of_ne_nil hg leaves hv

end QueryDefinition

/-! ## Queries and their places -/

namespace Queries

/-- The index leads a name to the place of the query that has it, and to none if no query has. -/
def Indexed (qs : Queries) : Prop :=
  ∀ name k, qs.place? name = some k ↔ ∃ q, qs.list[k]? = some q ∧ Text.fold q.name = Text.fold name

variable {qs : Queries} {q : NamedQuery}

theorem place?_add (qs : Queries) (q : NamedQuery) (name : String) :
    (qs.add q).place? name = if Text.fold name = Text.fold q.name then some qs.list.length else qs.place? name :=
  Expr.lookup_cons_eq_ite (Text.fold name) (Text.fold q.name) qs.list.length qs.index

theorem indexed_empty : empty.Indexed := by
  simp [Indexed, place?, empty]

/-- A query that has its name for itself stands at the end, and the others stay where they are. -/
theorem Indexed.add (h : qs.Indexed) (hq : qs.place? q.name = none) : (qs.add q).Indexed := by
  intro name k
  rw [place?_add]
  show _ ↔ ∃ p, (qs.list ++ [q])[k]? = some p ∧ Text.fold p.name = Text.fold name
  simp only [getElem?_concat_eq_some_iff]
  by_cases hname : Text.fold name = Text.fold q.name
  · rw [if_pos hname, Option.some_inj]
    constructor
    · intro hk
      exact ⟨q, .inr ⟨hk.symm, rfl⟩, hname.symm⟩
    · rintro ⟨p, hp | ⟨hk, -⟩, heq⟩
      · -- the index would have led to `p` before
        have hplace := (h q.name k).mpr ⟨p, hp, heq.trans hname⟩
        rw [hq] at hplace
        cases hplace
      · exact hk.symm
  · rw [if_neg hname, h name k]
    constructor
    · rintro ⟨p, hp, heq⟩
      exact ⟨p, .inl hp, heq⟩
    · rintro ⟨p, hp | ⟨-, rfl⟩, heq⟩
      · exact ⟨p, hp, heq⟩
      · exact absurd heq.symm hname

theorem Indexed.isSome_place?_iff (h : qs.Indexed) (name : String) :
    (qs.place? name).isSome = true ↔ Text.fold name ∈ qs.list.map fun q => Text.fold q.name := by
  simp only [Option.isSome_iff_exists, h name, List.mem_map]
  constructor
  · rintro ⟨k, q, hk, hq⟩
    exact ⟨q, List.mem_of_getElem? hk, hq⟩
  · rintro ⟨q, hmem, hq⟩
    obtain ⟨k, hk⟩ := List.mem_iff_getElem?.mp hmem
    exact ⟨k, q, hk, hq⟩

/-- A name finds the query that stands where the index leads. -/
theorem Indexed.find?_eq_some (h : qs.Indexed) {k : Nat} (hk : qs.list[k]? = some q) {name : String}
    (hname : Text.fold q.name = Text.fold name) : qs.find? name = some q := by
  rw [find?, (h name k).mpr ⟨q, hk, hname⟩]
  exact hk

end Queries

/-- There is one query for each definition, with its name and meaning, and the index leads to it. -/
structure QueriesAfter (leaves : Query.Leaves) (before : List QueryDefinition) (qs : Queries) : Prop where
  defined : List.Forall₂ (fun q n => n.name = q.name ∧ q.Means leaves n.formula) before qs.list
  indexed : qs.Indexed

namespace QueriesAfter

variable {before : List QueryDefinition} {qs : Queries}

theorem map_name (h : QueriesAfter leaves before qs) :
    qs.list.map NamedQuery.name = before.map QueryDefinition.name :=
  map_eq_map_of_forall₂ (fun _ _ _ hn => hn.1) h.defined

theorem isSome_place?_iff (h : QueriesAfter leaves before qs) (name : String) :
    (qs.place? name).isSome = true ↔ Text.fold name ∈ before.map fun q => Text.fold q.name := by
  have hnames : (qs.list.map fun n => Text.fold n.name) = before.map fun q => Text.fold q.name :=
    map_eq_map_of_forall₂ (fun q _ n hn => by rw [hn.1]) h.defined
  rw [h.indexed.isSome_place?_iff, hnames]

theorem add (h : QueriesAfter leaves before qs) {q : QueryDefinition} {f : Formula} (hf : q.Means leaves f)
    (hq : Text.fold q.name ∉ before.map fun p => Text.fold p.name) :
    QueriesAfter leaves (before ++ [q]) (qs.add ⟨q.name, f⟩) where
  defined := List.rel_append h.defined (.cons ⟨rfl, hf⟩ .nil)
  indexed := h.indexed.add (Option.not_isSome_iff_eq_none.mp fun hsome => hq ((h.isSome_place?_iff q.name).mp hsome))

end QueriesAfter

theorem addQuery_ends (hg : g.Made rs) (before : List QueryDefinition) (q : QueryDefinition) (qs : Queries)
    (h : QueriesAfter leaves before qs) :
    Ends (firstError (q.checks rs leaves before)) (QueriesAfter leaves (before ++ [q])) (addQuery g leaves qs q) := by
  rw [QueryDefinition.checks, firstError_append]
  refine (q.build_ends hg leaves).bind fun f hf => ?_
  rw [firstError_cons]
  exact .check (h.isSome_place?_iff q.name) fun hq => .pure (h.add hf hq)

theorem addQueries_ends (hg : g.Made rs) (leaves : Query.Leaves) (qs : List QueryDefinition) :
    Ends (firstError ((withBefore [] qs).flatMap fun p => p.2.checks rs leaves p.1)) (QueriesAfter leaves qs)
      (qs.foldlM (addQuery g leaves) .empty) :=
  Ends.foldlM (fun before q named => addQuery_ends hg before q named) ⟨.nil, Queries.indexed_empty⟩

/-! ## The catalog -/

section Catalog

variable [Engine]

structure Built (c : Config) (cat : Catalog) : Prop where
  repositories : cat.repositories.Made c.repositories
  leaves : cat.leaves = leavesOf c c.customLeaves
  named : QueriesAfter cat.leaves c.queries cat.named

theorem build_ends (c : Config) : Ends (firstError (checks c)) (Built c) (build c) := by
  rw [checks, firstError_append, firstError_append]
  have hrepositories := (Registry.ofList_ends c.repositories).mapError (f := Error.repeatedRepository)
  rw [map_firstError_repeatChecks] at hrepositories
  refine hrepositories.bind fun g hg => (addLeaves_ends c c.customLeaves).bind ?_
  rintro leaves ⟨rfl, -⟩
  exact (addQueries_ends hg (leavesOf c c.customLeaves) c.queries).bind_pure fun queries h => ⟨hg, rfl, h⟩

/-- The parts of a catalog are built one after the other. -/
theorem build_eq_ok_iff {cat : Catalog} : build c = .ok cat ↔
    (Registry.ofList c.repositories).mapError Error.repeatedRepository = .ok cat.repositories ∧
      buildLeaves c = .ok cat.leaves ∧
      c.queries.foldlM (addQuery cat.repositories cat.leaves) .empty = .ok cat.named := by
  constructor
  · intro h
    obtain ⟨g, hg, h⟩ := exists_of_bind_eq_ok h
    obtain ⟨leaves, hleaves, h⟩ := exists_of_bind_eq_ok h
    obtain ⟨named, hnamed, h⟩ := exists_of_bind_eq_ok h
    cases h
    exact ⟨hg, hleaves, hnamed⟩
  · rintro ⟨hg, hleaves, hnamed⟩
    simp only [build, hg, hleaves, hnamed, bind, Except.bind, pure, Except.pure]

/-- A configuration gives a catalog just when it is well formed. Otherwise the error is that of the first check that
    fails, in the order of the configuration. The catalog has a query for each definition, in their order, and its index
    leads a name to the place of the query that has it. -/
theorem build_ok_iff_wellFormed (c : Config) :
    ((∃ cat, build c = .ok cat) ↔ WellFormed c) ∧ (∀ e, build c = .error e ↔ firstError (checks c) = some e) ∧
      ∀ cat, build c = .ok cat → cat.queries.map NamedQuery.name = c.queries.map QueryDefinition.name ∧
        ∀ name k, cat.place? name = some k ↔
          ∃ q, cat.queries[k]? = some q ∧ Text.fold q.name = Text.fold name := by
  refine ⟨(build_ends c).exists_ok_iff.trans firstError_checks_eq_none_iff, fun _ => (build_ends c).eq_error_iff, ?_⟩
  intro cat h
  have hnamed := ((build_ends c).good_of_ok h).2.named
  exact ⟨hnamed.map_name, hnamed.indexed⟩

end Catalog

/-- A leaf, two queries that call it, and a third with the name of the second. -/
theorem build_ok_iff_wellFormed_bugs :
    let c : Config := ⟨[], .empty, [⟨"Bug", .query "label:bug"⟩],
      [⟨"All", some "is:bug", []⟩, ⟨"Open", some "is:bug is:open", []⟩]⟩
    ∃ cat, build c = .ok cat ∧ cat.place? "open" = some 1 ∧ cat.place? "Bug" = none ∧
      build { c with queries := c.queries ++ [⟨"OPEN", some "is:bug is:pr", []⟩] } = .error (.repeatedName "OPEN") := by
  intro c
  have hc : firstError (checks c) = none := by decide +kernel
  obtain ⟨cat, hcat⟩ := (build_ok_iff_wellFormed c).1.mpr (firstError_checks_eq_none_iff.mp hc)
  obtain ⟨hnames, hplaces⟩ := (build_ok_iff_wellFormed c).2.2 cat hcat
  refine ⟨cat, hcat, (hplaces _ _).mpr ?_, ?_, ((build_ok_iff_wellFormed _).2.1 _).mpr (by decide +kernel)⟩
  · have hsecond : (cat.queries.map NamedQuery.name)[1]? = some "Open" := by rw [hnames]; rfl
    rw [List.getElem?_map, Option.map_eq_some_iff] at hsecond
    obtain ⟨q, hq, hname⟩ := hsecond
    exact ⟨q, hq, by rw [hname]; decide⟩
  · rw [Option.eq_none_iff_forall_ne_some]
    intro k hk
    obtain ⟨q, hq, hname⟩ := (hplaces _ _).mp hk
    have hmem : q.name ∈ c.queries.map QueryDefinition.name := by
      rw [← hnames]
      exact List.mem_map_of_mem (List.mem_of_getElem? hq)
    rcases List.mem_cons.mp hmem with h | h
    · rw [h] at hname
      exact absurd hname (by decide)
    · rw [List.mem_singleton.mp h] at hname
      exact absurd hname (by decide)

end Triage.Catalog
