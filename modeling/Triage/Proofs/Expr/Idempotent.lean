/-
  Triage.Proofs.Expr.Idempotent — a normal form is its own normal form.

  `Canonical` says what normal forms look like, and every rewrite leaves that shape alone: there is nothing to
  dissolve, to absorb or to drop among the operands (`conjuncts_eq_self`, `disjuncts_eq_self`), a conjunction that was
  not multiplied out has as many combinations as before (`conjunction_eq_and`), and entries that differ from the
  fallback are kept (`ofEntries_eq_self`). Entries would still be sorted, so they have to be in order, which normal
  forms have from `ofEntries` alone (`entriesInOrder_normalize`). What is recognised as normalized has the shape as well
  (`canonical_of_isNormalized`), so recognising and rewriting agree. Whatever lies within a normal form has its shape too
  and is its own normal form (`normalize_eq_self_of_within`).
-/

import Triage.Proofs.Expr.Canonical

namespace Triage

/-! ## Entries in order -/

namespace PerRepo

variable {α : Type}

theorem insert_of_before {r : Repository} {a : α} {entries : List (Repository × α)}
    (h : ∀ q ∈ entries, r.before q.1 = true) : insert r a entries = (r, a) :: entries := by
  cases entries with
  | nil => rfl
  | cons q entries =>
    obtain ⟨s, b⟩ := q
    have hb : r.before s = true := h (s, b) List.mem_cons_self
    have hne : r ≠ s := by
      rintro rfl
      rw [Repository.before_irrefl] at hb
      cases hb
    rw [insert, if_neg hne, if_pos hb]

theorem sort_eq_self {entries : List (Repository × α)} (h : Ordered entries) : sort entries = entries := by
  induction entries with
  | nil => rfl
  | cons q entries ih =>
    obtain ⟨r, a⟩ := q
    obtain ⟨hr, ho⟩ := List.pairwise_cons.mp h
    show insert r a (sort entries) = _
    rw [ih ho, insert_of_before hr]

end PerRepo

namespace Expr

/-- The entries at the root are in order, with no repository twice. -/
def EntriesInOrder : Expr → Prop
  | .perRepo entries _ => PerRepo.Ordered entries
  | _ => True

theorem Plain.entriesInOrder {e : Expr} (h : Plain e) : EntriesInOrder e := by
  cases h with
  | const b => trivial
  | flat h => cases h <;> trivial

theorem entriesInOrder_ofEntries (entries : List (Repository × Expr)) {fallback : Expr} (hf : Canonical fallback) :
    EntriesInOrder (ofEntries entries fallback) := by
  rw [ofEntries_eq]
  split
  · exact hf.plain_elsewhere.entriesInOrder
  · exact (ordered_inherit (PerRepo.ordered_sort _) fallback).sublist List.filter_sublist

theorem entriesInOrder_bubbled {connective : List Expr → Expr} {es : List Expr}
    (hc : ∀ ds : List Expr, (∀ d ∈ ds, Plain d) → Plain (connective ds)) (h : ∀ e ∈ es, Canonical e) :
    EntriesInOrder (bubbled connective es) := by
  refine entriesInOrder_ofEntries _ (.plain (hc _ fun d hd => ?_))
  obtain ⟨e, he, rfl⟩ := List.mem_map.mp hd
  exact (h e he).plain_elsewhere

theorem entriesInOrder_disjunction {es : List Expr} (h : ∀ e ∈ es, Canonical e) :
    EntriesInOrder (disjunction es) := by
  cases hr : es.any isPerRepo with
  | true =>
    rw [disjunction_of_perRepo hr]
    exact entriesInOrder_bubbled (fun _ => plain_disjunction) h
  | false => exact (plain_disjunction (plain_of_any h hr)).entriesInOrder

theorem entriesInOrder_conjunction {es : List Expr} (h : ∀ e ∈ es, Canonical e) :
    EntriesInOrder (conjunction es) := by
  cases hr : es.any isPerRepo with
  | true =>
    rw [conjunction_of_perRepo hr]
    exact entriesInOrder_bubbled (fun _ => plain_conjunction) h
  | false => exact (plain_conjunction (plain_of_any h hr)).entriesInOrder

theorem entriesInOrder_negate {e : Expr} (h : Canonical e) : EntriesInOrder e.negate := by
  cases h with
  | plain h => exact (plain_negate h).entriesInOrder
  | perRepo entries fallback _ _ hf =>
    rw [negate]
    exact entriesInOrder_ofEntries _ (.plain (plain_negate hf))

theorem entriesInOrder_normalize (e : Expr) : EntriesInOrder e.normalize := by
  have hmap : ∀ es : List Expr, ∀ d ∈ es.map normalize, Canonical d := by
    intro es d hd
    obtain ⟨e, -, rfl⟩ := List.mem_map.mp hd
    exact canonical_normalize e
  cases e with
  | const b => trivial
  | leaf l => trivial
  | not e => exact entriesInOrder_negate (canonical_normalize e)
  | and es =>
    rw [normalize, normalizeAll_eq_map]
    exact entriesInOrder_conjunction (hmap es)
  | or es =>
    rw [normalize, normalizeAll_eq_map]
    exact entriesInOrder_disjunction (hmap es)
  | perRepo entries fallback => exact entriesInOrder_ofEntries _ (canonical_normalize fallback)

/-! ## Operands that are left alone -/

theorem Flat.isConst_eq_false {e : Expr} (h : Flat e) (b : Bool) : e.isConst b = false := by
  cases h <;> rfl

theorem dissolveAnd_eq_self {es : List Expr} (h : ∀ e ∈ es, e.isAnd = false) : dissolveAnd es = es := by
  refine (List.flatMap_congr fun e he => ?_).trans (List.flatMap_singleton' es)
  have hne := h e he
  cases e <;> first | rfl | cases hne

theorem dissolveOr_eq_self {es : List Expr} (h : ∀ e ∈ es, e.isOr = false) : dissolveOr es = es := by
  refine (List.flatMap_congr fun e he => ?_).trans (List.flatMap_singleton' es)
  have hne := h e he
  cases e <;> first | rfl | cases hne

theorem Proper.distinct_eq_self {es : List Expr} (h : Proper es) : distinct es = es :=
  distinctFrom_eq_self [] (proper_iff.mp h).2.1

theorem filter_isConst_eq_self {es : List Expr} (h : ∀ e ∈ es, Flat e) (b : Bool) :
    (es.filter fun e => !e.isConst b) = es :=
  List.filter_eq_self.mpr fun e he => by rw [(h e he).isConst_eq_false, Bool.not_false]

theorem any_isConst_eq_false {es : List Expr} (h : ∀ e ∈ es, Flat e) (b : Bool) : es.any (isConst b) = false := by
  rw [List.any_eq_false]
  intro e he
  rw [(h e he).isConst_eq_false]
  exact Bool.false_ne_true

theorem conjuncts_eq_self {es : List Expr} (hp : Proper es) (hf : ∀ e ∈ es, Flat e)
    (ha : ∀ e ∈ es, e.isAnd = false) : conjuncts es = es := by
  rw [conjuncts, dissolveAnd_eq_self ha, filter_isConst_eq_self hf, hp.distinct_eq_self]

theorem disjuncts_eq_self {es : List Expr} (hp : Proper es) (hf : ∀ e ∈ es, Flat e)
    (ho : ∀ e ∈ es, e.isOr = false) : disjuncts es = es := by
  rw [disjuncts, dissolveOr_eq_self ho, filter_isConst_eq_self hf, hp.distinct_eq_self]

theorem collapse_of_two_le {unit : Bool} {connective : List Expr → Expr} {es : List Expr} (h : 2 ≤ es.length) :
    collapse unit connective es = connective es := by
  obtain _ | ⟨d, _ | ⟨e, es⟩⟩ := es
  · cases h
  · exact absurd h (Nat.lt_irrefl 1)
  · rfl

/-! ## Connectives that are left alone -/

theorem Excessive.kept {es : List Expr} (h : Excessive es) :
    es.filter isOr = [] ∨ combinationLimit ≤ combinations (es.filter isOr) := by
  cases hany : es.any isOr with
  | true => exact Or.inr ((combinationLimit_le_iff _).mpr (h hany))
  | false =>
    refine Or.inl (List.filter_eq_nil_iff.mpr fun e he => ?_)
    exact List.any_eq_false.mp hany e he

theorem disjunction_eq_or {es : List Expr} (hp : Proper es) (hf : ∀ e ∈ es, Flat e)
    (ho : ∀ e ∈ es, e.isOr = false) : disjunction es = .or es := by
  rw [disjunction_eq (any_isPerRepo_of_plain fun e he => .flat (hf e he)), disjuncts_eq_self hp hf ho,
    dissolveOr_eq_self ho, any_isConst_eq_false hf, (proper_iff.mp hp).2.2, Bool.or_self,
    if_neg Bool.false_ne_true, collapse_of_two_le hp.two]

theorem conjunction_eq_and {es : List Expr} (hp : Proper es) (hf : ∀ e ∈ es, Flat e)
    (ha : ∀ e ∈ es, e.isAnd = false) (hx : Excessive es) : conjunction es = .and es := by
  rw [conjunction_eq (any_isPerRepo_of_plain fun e he => .flat (hf e he)), conjuncts_eq_self hp hf ha,
    dissolveAnd_eq_self ha, any_isConst_eq_false hf, (proper_iff.mp hp).2.2, Bool.or_self,
    if_neg Bool.false_ne_true, collapse_of_two_le hp.two, multiply, if_pos hx.kept]

theorem map_entries_eq_self {entries : List (Repository × Expr)} (f : Repository → Expr → Expr)
    (h : ∀ p ∈ entries, f p.1 p.2 = p.2) : (entries.map fun (r, e) => (r, f r e)) = entries := by
  refine (List.map_congr_left (g := id) fun p hp => ?_).trans (List.map_id entries)
  exact Prod.ext rfl (h p hp)

theorem ofEntries_eq_self {entries : List (Repository × Expr)} {fallback : Expr} (hne : entries ≠ [])
    (he : ∀ p ∈ entries, Plain p.2 ∧ same p.2 fallback = false) (hf : Plain fallback)
    (ho : PerRepo.Ordered entries) : ofEntries entries fallback = .perRepo entries fallback := by
  have hresolved : (entries.map fun (r, e) => (r, e.inRepo r)) = entries :=
    map_entries_eq_self (fun r e => e.inRepo r) fun p hp => inRepo_of_not_perRepo (he p hp).1.not_perRepo p.1
  have hinherit : inherit entries fallback = entries := by
    have := hf.not_perRepo
    cases fallback <;> first | rfl | cases this
  have hkept : keptEntries entries fallback = entries := by
    rw [keptEntries, hresolved, PerRepo.sort_eq_self ho, hinherit, elsewhere_of_not_perRepo hf.not_perRepo]
    refine List.filter_eq_self.mpr fun p hp => ?_
    show (!isSame p.2 fallback) = true
    rw [isSame_eq, (he p hp).2, Bool.not_false]
  rw [ofEntries_eq, hkept, if_neg hne, elsewhere_of_not_perRepo hf.not_perRepo]

/-! ## Normal forms -/

theorem map_normalize_eq_self {es : List Expr} (h : ∀ e ∈ es, e.normalize = e) : es.map normalize = es :=
  (List.map_congr_left h).trans (List.map_id es)

theorem Flat.normalize_eq_self {e : Expr} (h : Flat e) : e.normalize = e := by
  induction h with
  | leaf l => rfl
  | notLeaf l => rfl
  | and es hp hf ha hx ih =>
    rw [normalize, normalizeAll_eq_map, map_normalize_eq_self ih, conjunction_eq_and hp hf ha hx]
  | or es hp hf ho ih =>
    rw [normalize, normalizeAll_eq_map, map_normalize_eq_self ih, disjunction_eq_or hp hf ho]

theorem Plain.normalize_eq_self {e : Expr} (h : Plain e) : e.normalize = e := by
  cases h with
  | const b => rfl
  | flat h => exact h.normalize_eq_self

theorem Canonical.normalize_eq_self {e : Expr} (h : Canonical e) (ho : EntriesInOrder e) : e.normalize = e := by
  cases h with
  | plain h => exact h.normalize_eq_self
  | perRepo entries fallback hne he hf =>
    have hentries : (entries.map fun (r, e) => (r, e.normalize)) = entries :=
      map_entries_eq_self (fun _ => normalize) fun p hp => (he p hp).1.normalize_eq_self
    rw [normalize, normalizeEntries_eq_map, hentries, hf.normalize_eq_self, ofEntries_eq_self hne he hf ho]

/-- Normalizing a normal form gives the very same tree, also where a conjunction was too large to be multiplied
    out. -/
theorem normalize_normalize (e : Expr) : e.normalize.normalize = e.normalize :=
  (canonical_normalize e).normalize_eq_self (entriesInOrder_normalize e)

/-! ## Recognised expressions -/

theorem flat_of_isLiteral {e : Expr} (h : e.isLiteral = true) : Flat e := by
  cases e with
  | leaf l => exact .leaf l
  | not e =>
    cases e with
    | leaf l => exact .notLeaf l
    | const | not | and | or | perRepo => cases h
  | const | and | or | perRepo => cases h

theorem not_connective_of_isLiteral {e : Expr} (h : e.isLiteral = true) : e.isOr = false ∧ e.isAnd = false := by
  cases e <;> first | exact ⟨rfl, rfl⟩ | cases h

theorem excessive_of_isLiteral {es : List Expr} (hl : ∀ e ∈ es, e.isLiteral = true) : Excessive es := by
  intro hany
  obtain ⟨e, he, ho⟩ := List.any_eq_true.mp hany
  rw [(not_connective_of_isLiteral (hl e he)).1] at ho
  cases ho

theorem flat_of_isConjunction {e : Expr} (h : e.isConjunction = true) : Flat e ∧ e.isOr = false := by
  cases e with
  | and es =>
    obtain ⟨hl, hp⟩ := isConjunction_and_iff.mp h
    exact ⟨.and es hp (fun e he => flat_of_isLiteral (hl e he))
      (fun e he => (not_connective_of_isLiteral (hl e he)).2) (excessive_of_isLiteral hl), rfl⟩
  | leaf | not => exact ⟨flat_of_isLiteral h, rfl⟩
  | const | or | perRepo => cases h

theorem plain_of_isDisjunction {e : Expr} (h : e.isDisjunction = true) : Plain e := by
  cases e with
  | const b => exact .const b
  | or es =>
    obtain ⟨hc, hp⟩ := isDisjunction_or_iff.mp h
    exact .flat (.or es hp (fun e he => (flat_of_isConjunction (hc e he)).1)
      fun e he => (flat_of_isConjunction (hc e he)).2)
  | leaf | not | and | perRepo =>
    simp only [isDisjunction] at h
    exact .flat (flat_of_isConjunction h).1

theorem canonical_of_isNormalized {e : Expr} (h : e.isNormalized = true) : Canonical e := by
  cases e with
  | perRepo entries fallback =>
    simp only [isNormalized, Bool.and_eq_true, Bool.not_eq_true', List.isEmpty_eq_false_iff, List.all_eq_true,
      isSame_eq] at h
    obtain ⟨⟨hne, hf⟩, he⟩ := h
    exact .perRepo entries fallback hne (fun p hp => ⟨plain_of_isDisjunction (he p hp).2, (he p hp).1⟩)
      (plain_of_isDisjunction hf)
  | const | leaf | not | and | or => exact .plain (plain_of_isDisjunction h)

/-- An expression that is recognised as normalized is its own normal form: the very same tree, whatever its size. Its
    entries have to be in order, as they are in whatever is built. -/
theorem normalize_eq_self_of_isNormalized {e : Expr} (ho : EntriesInOrder e) (h : e.isNormalized = true) :
    e.normalize = e :=
  (canonical_of_isNormalized h).normalize_eq_self ho

/-- A map built from entries out of order: conjunctions beside a literal in one repository, a constant in another and a
    single literal elsewhere. -/
theorem normalize_eq_self_of_isNormalized_built :
    let runtime : Repository := ⟨"dotnet", "runtime", by decide, by decide, by decide, by decide⟩
    let corefx : Repository := ⟨"dotnet", "corefx", by decide, by decide, by decide, by decide⟩
    let bug : Expr := .leaf (.label "bug")
    let opened : Expr := .leaf (.isOpen true)
    let free : Expr := .leaf (.assignee none)
    let choice : Expr := .or [.and [.not opened, bug], free, .and [bug, opened]]
    let m : PerRepo Expr := ⟨[(corefx, .const true), (runtime, choice)], .not bug⟩
    PerRepo.ofList (.const false) [(some runtime, choice), (none, .not bug), (some corefx, .const true)] = .ok m ∧
      EntriesInOrder m.toExpr ∧ m.toExpr.isNormalized = true ∧ m.toExpr.normalize = m.toExpr := by
  intro runtime corefx bug opened free choice m
  have hm : PerRepo.ofList (.const false) [(some runtime, choice), (none, .not bug), (some corefx, .const true)] =
      .ok m := by
    have hne : corefx ≠ runtime := by decide
    have hb : corefx.before runtime = true := by decide +kernel
    have hlookup : [(runtime, choice)].lookup corefx = none := by rw [lookup_cons_eq_ite, if_neg hne]; rfl
    simp only [PerRepo.ofList, PerRepo.addAll, PerRepo.insert, List.lookup_nil, hlookup, if_neg hne, if_pos hb,
      Option.isSome_none, Bool.false_eq_true, if_false, Option.getD_some, m]
  have hconsists : PerRepo.Consists (fun _ => True) m := PerRepo.consists_of_ofList trivial (fun _ _ => trivial) hm
  have ho : EntriesInOrder m.toExpr := hconsists.ordered
  have h : m.toExpr.isNormalized = true := by decide +kernel
  exact ⟨hm, ho, h, normalize_eq_self_of_isNormalized ho h⟩

/-! ## Inside of normal forms -/

theorem Within.trans {c d e : Expr} (h : Within c d) (h' : Within d e) : Within c e := by
  induction h' with
  | self => exact h
  | not _ ih => exact .not ih
  | and he _ ih => exact .and he ih
  | or he _ ih => exact .or he ih
  | entry hp _ ih => exact .entry hp ih
  | fallback _ ih => exact .fallback ih

theorem Flat.within {d e : Expr} (he : Flat e) (h : Within d e) : Flat d := by
  induction h with
  | self => exact he
  | not _ ih =>
    cases he with
    | notLeaf l => exact ih (.leaf l)
  | and hd _ ih =>
    cases he with
    | and _ _ hf _ _ => exact ih (hf _ hd)
  | or hd _ ih =>
    cases he with
    | or _ _ hf _ => exact ih (hf _ hd)
  | entry => cases he
  | fallback => cases he

theorem Plain.within {d e : Expr} (he : Plain e) (h : Within d e) : Plain d := by
  cases he with
  | const b =>
    cases h with
    | self => exact .const b
  | flat hf => exact .flat (hf.within h)

/-- Whatever lies within a normal form is a normal form. -/
theorem normalize_eq_self_of_within {d e : Expr} (h : Within d e.normalize) : d.normalize = d := by
  have hc := canonical_normalize e
  have ho := entriesInOrder_normalize e
  generalize e.normalize = n at h hc ho
  cases hc with
  | plain hp => exact (hp.within h).normalize_eq_self
  | perRepo entries fallback hne he hf =>
    cases h with
    | self => exact (Canonical.perRepo entries fallback hne he hf).normalize_eq_self ho
    | entry hp hd => exact ((he _ hp).1.within hd).normalize_eq_self
    | fallback hd => exact (hf.within hd).normalize_eq_self

/-- The expression lies properly within the other. -/
structure Inside (d e : Expr) : Prop where
  within : Within d e
  smaller : sizeOf d < sizeOf e

theorem Inside.trans {c d e : Expr} (h : Inside c d) (h' : Inside d e) : Inside c e :=
  ⟨h.within.trans h'.within, Nat.lt_trans h.smaller h'.smaller⟩

/-- Nothing around an expression is its normal form. -/
theorem Inside.ne_normalize {d e : Expr} (h : Inside d e) : e ≠ d.normalize := by
  intro he
  have hself : d.normalize = d := normalize_eq_self_of_within (he ▸ h.within)
  have hlt := h.smaller
  rw [he, hself] at hlt
  exact Nat.lt_irrefl _ hlt

end Expr

end Triage
