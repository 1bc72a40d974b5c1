/-
  Triage.Proofs.Expr.Canonical — the shape of normal forms.

  A normal form is `Canonical`: expressions per repository only at the root, with entries that differ from the
  fallback; constants only there or as the whole; negations of leaves only; and connectives that are `Proper` and not
  nested in one of their kind. It need not be a disjunction of conjunctions. Where a conjunction has a disjunction
  among its operands, multiplying them out would have made too many (`Guarded`), and those normal forms are just the
  ones that are not recognised as normalized (`Canonical.isNormalized_iff`).

  `Plain` is the shape without repositories. The connectives and `negate` keep it, however the operands are nested
  (`plain_disjunction`, `plain_conjunction`, `plain_negate`), and with repositories they work in each one apart.
-/

import Triage.Proofs.Expr.Connective

namespace Triage.Expr

/-! ## Shapes -/

def isAnd : Expr → Bool
  | .and _ => true
  | _ => false

/-- Two operands or more, no two the same and none the negation of another. -/
structure Proper (es : List Expr) : Prop where
  two : 2 ≤ es.length
  apart : es.Pairwise fun d e => same d e = false
  unopposed : ∀ d ∈ es, ∀ e ∈ es, same d (.not e) = false

/-- A conjunction with disjunctions among its operands has too many to multiply out. -/
def Excessive (es : List Expr) : Prop :=
  es.any isOr = true → combinationLimit ≤ ((es.filter isOr).map fun e => e.operands.length).prod

/-- Literals under alternating connectives, without constants and repositories. -/
inductive Flat : Expr → Prop
  | leaf (l : Leaf) : Flat (.leaf l)
  | notLeaf (l : Leaf) : Flat (.not (.leaf l))
  | and (es : List Expr) : Proper es → (∀ e ∈ es, Flat e) → (∀ e ∈ es, e.isAnd = false) → Excessive es → Flat (.and es)
  | or (es : List Expr) : Proper es → (∀ e ∈ es, Flat e) → (∀ e ∈ es, e.isOr = false) → Flat (.or es)

inductive Plain : Expr → Prop
  | const (b : Bool) : Plain (.const b)
  | flat {e : Expr} : Flat e → Plain e

inductive Canonical : Expr → Prop
  | plain {e : Expr} : Plain e → Canonical e
  | perRepo (entries : List (Repository × Expr)) (fallback : Expr) : entries ≠ [] →
      (∀ p ∈ entries, Plain p.2 ∧ same p.2 fallback = false) → Plain fallback → Canonical (.perRepo entries fallback)

/-- The expression occurs in the other, or is it. -/
inductive Within (d : Expr) : Expr → Prop
  | self : Within d d
  | not {e : Expr} : Within d e → Within d (.not e)
  | and {e : Expr} {es : List Expr} : e ∈ es → Within d e → Within d (.and es)
  | or {e : Expr} {es : List Expr} : e ∈ es → Within d e → Within d (.or es)
  | entry {p : Repository × Expr} {entries : List (Repository × Expr)} {fallback : Expr} :
      p ∈ entries → Within d p.2 → Within d (.perRepo entries fallback)
  | fallback {entries : List (Repository × Expr)} {fallback : Expr} :
      Within d fallback → Within d (.perRepo entries fallback)

/-- Some conjunction in the expression has a disjunction as an operand. -/
def Degraded (e : Expr) : Prop := ∃ es, Within (.and es) e ∧ es.any isOr = true

/-- Every conjunction that is left with disjunctions as operands had too many to multiply out. -/
def Guarded (e : Expr) : Prop := ∀ es, Within (.and es) e → Excessive es

/-! ## Proper operands -/

theorem nodup_map_same_iff {es : List Expr} :
    (es.map same).Nodup ↔ es.Pairwise fun d e => same d e = false := by
  rw [List.Nodup, List.pairwise_map]
  constructor
  · exact List.Pairwise.imp fun h => by rw [← Bool.not_eq_true, same_iff]; exact h
  · exact List.Pairwise.imp fun h he => by rw [same_iff.mpr he] at h; cases h

theorem proper_iff {es : List Expr} :
    Proper es ↔ 2 ≤ es.length ∧ (es.map same).Nodup ∧ hasComplement es = false := by
  have hc : hasComplement es = false ↔ ∀ d ∈ es, ∀ e ∈ es, same d (.not e) = false := by
    rw [← Bool.not_eq_true, hasComplement_iff]
    simp only [not_exists, not_and, Bool.not_eq_true]
  rw [nodup_map_same_iff, hc]
  exact ⟨fun h => ⟨h.two, h.apart, h.unopposed⟩, fun ⟨h2, ha, hu⟩ => ⟨h2, ha, hu⟩⟩

theorem isProper_iff {es : List Expr} : isProper es = true ↔ Proper es := by
  rw [proper_iff, isProper, Bool.and_eq_true, Bool.and_eq_true, decide_eq_true_eq, beq_iff_eq, length_distinct_eq_iff,
    Bool.not_eq_true', and_assoc]

theorem isConjunction_and_iff {es : List Expr} :
    (Expr.and es).isConjunction = true ↔ (∀ e ∈ es, e.isLiteral = true) ∧ Proper es := by
  rw [isConjunction, Bool.and_eq_true, List.all_eq_true, isProper_iff]

theorem isDisjunction_or_iff {es : List Expr} :
    (Expr.or es).isDisjunction = true ↔ (∀ e ∈ es, e.isConjunction = true) ∧ Proper es := by
  rw [isDisjunction, Bool.and_eq_true, List.all_eq_true, isProper_iff]

theorem proper_distinct {es : List Expr} (h : 2 ≤ (distinct es).length) (hc : hasComplement (distinct es) = false) :
    Proper (distinct es) := proper_iff.mpr ⟨h, nodup_distinct es, hc⟩

/-! ## Dissolved operands -/

theorem mem_dissolveAnd_iff {c : Expr} {es : List Expr} :
    c ∈ dissolveAnd es ↔ (∃ ds, .and ds ∈ es ∧ c ∈ ds) ∨ c ∈ es ∧ c.isAnd = false := by
  rw [dissolveAnd, List.mem_flatMap]
  constructor
  · rintro ⟨e, he, hc⟩
    cases e with
    | and ds => exact Or.inl ⟨ds, he, hc⟩
    | const | leaf | not | or | perRepo =>
      obtain rfl := List.mem_singleton.mp hc
      exact Or.inr ⟨he, rfl⟩
  · rintro (⟨ds, hd, hc⟩ | ⟨hc, ha⟩)
    · exact ⟨.and ds, hd, hc⟩
    · refine ⟨c, hc, ?_⟩
      cases c <;> first | exact List.mem_singleton_self _ | cases ha

theorem mem_dissolveOr_iff {c : Expr} {es : List Expr} :
    c ∈ dissolveOr es ↔ (∃ ds, .or ds ∈ es ∧ c ∈ ds) ∨ c ∈ es ∧ c.isOr = false := by
  rw [dissolveOr, List.mem_flatMap]
  constructor
  · rintro ⟨e, he, hc⟩
    cases e with
    | or ds => exact Or.inl ⟨ds, he, hc⟩
    | const | leaf | not | and | perRepo =>
      obtain rfl := List.mem_singleton.mp hc
      exact Or.inr ⟨he, rfl⟩
  · rintro (⟨ds, hd, hc⟩ | ⟨hc, ho⟩)
    · exact ⟨.or ds, hd, hc⟩
    · refine ⟨c, hc, ?_⟩
      cases c <;> first | exact List.mem_singleton_self _ | cases ho

theorem mem_dissolveAnd_of_mem_conjuncts {c : Expr} {es : List Expr} (h : c ∈ conjuncts es) : c ∈ dissolveAnd es :=
  (List.mem_filter.mp ((distinct_sublist _).subset h)).1

theorem mem_dissolveOr_of_mem_disjuncts {c : Expr} {es : List Expr} (h : c ∈ disjuncts es) : c ∈ dissolveOr es :=
  (List.mem_filter.mp ((distinct_sublist _).subset h)).1

/-! ## Plain operands -/

theorem Plain.not_perRepo {e : Expr} (h : Plain e) : e.isPerRepo = false := by
  cases h with
  | const b => rfl
  | flat h => cases h <;> rfl

theorem Plain.flat_of_not_const {e : Expr} (h : Plain e) (hc : ∀ b, e.isConst b = false) : Flat e := by
  cases h with
  | const b => have := hc b; simp [isConst] at this
  | flat h => exact h

theorem Flat.operand {e d : Expr} (h : Flat e) (hd : d ∈ e.operands) : Flat d := by
  cases h with
  | leaf | notLeaf => cases hd
  | and es _ hf => exact hf d hd
  | or es _ hf => exact hf d hd

theorem any_isPerRepo_of_plain {es : List Expr} (h : ∀ e ∈ es, Plain e) : es.any isPerRepo = false :=
  any_isPerRepo_eq_false fun e he => (h e he).not_perRepo

theorem flat_of_mem_disjuncts {es : List Expr} (h : ∀ e ∈ es, Plain e)
    (hc : (dissolveOr es).any (isConst true) = false) {e : Expr} (he : e ∈ disjuncts es) :
    Flat e ∧ e.isOr = false := by
  obtain ⟨hd, hf⟩ := List.mem_filter.mp ((distinct_sublist _).subset he)
  have hne : ∀ b, e.isConst b = false := by
    intro b
    cases b with
    | true => simpa using List.any_eq_false.mp hc e hd
    | false => simpa using hf
  rcases mem_dissolveOr_iff.mp hd with ⟨ds, hds, hed⟩ | ⟨hm, ho⟩
  · cases h _ hds with
    | flat hp =>
      cases hp with
      | or _ _ hfl hno => exact ⟨hfl e hed, hno e hed⟩
  · exact ⟨(h e hm).flat_of_not_const hne, ho⟩

theorem flat_of_mem_conjuncts {es : List Expr} (h : ∀ e ∈ es, Plain e)
    (hc : (dissolveAnd es).any (isConst false) = false) {e : Expr} (he : e ∈ conjuncts es) :
    Flat e ∧ e.isAnd = false := by
  obtain ⟨hd, hf⟩ := List.mem_filter.mp ((distinct_sublist _).subset he)
  have hne : ∀ b, e.isConst b = false := by
    intro b
    cases b with
    | true => simpa using hf
    | false => simpa using List.any_eq_false.mp hc e hd
  rcases mem_dissolveAnd_iff.mp hd with ⟨ds, hds, hed⟩ | ⟨hm, ha⟩
  · cases h _ hds with
    | flat hp =>
      cases hp with
      | and _ _ hfl hno => exact ⟨hfl e hed, hno e hed⟩
  · exact ⟨(h e hm).flat_of_not_const hne, ha⟩

/-! ## The connectives keep the shape -/

theorem plain_disjunction {es : List Expr} (h : ∀ e ∈ es, Plain e) : Plain (disjunction es) := by
  rw [disjunction_eq (any_isPerRepo_of_plain h)]
  split
  · exact .const true
  · rename_i hs
    obtain ⟨hc, hn⟩ := Bool.or_eq_false_iff.mp (Bool.not_eq_true _ ▸ hs)
    refine collapse_cases _ (fun _ => .const false) (fun e he => ?_) (fun h2 => ?_)
    · exact .flat (flat_of_mem_disjuncts h hc (he ▸ List.mem_singleton_self e)).1
    · exact .flat (.or _ (proper_distinct h2 hn) (fun e he => (flat_of_mem_disjuncts h hc he).1)
        fun e he => (flat_of_mem_disjuncts h hc he).2)

/-- A branch has the operands that are no disjunctions, and one operand of each disjunction. -/
theorem mem_branch_cases {cs branch : List Expr} (hb : branch ∈ branches cs) {e : Expr} (he : e ∈ branch) :
    e ∈ cs ∧ e.isOr = false ∨ ∃ o ∈ cs, o.isOr = true ∧ e ∈ o.operands := by
  obtain ⟨choice, hc, rfl⟩ := List.mem_map.mp hb
  rcases List.mem_append.mp he with he | he
  · obtain ⟨hm, ho⟩ := List.mem_filter.mp he
    exact Or.inl ⟨hm, by simpa using ho⟩
  · obtain ⟨l, hl, hel⟩ := mem_of_mem_choice hc he
    obtain ⟨o, ho, rfl⟩ := List.mem_map.mp hl
    obtain ⟨hm, ho⟩ := List.mem_filter.mp ho
    exact Or.inr ⟨o, hm, ho, hel⟩

theorem flat_of_mem_branch {cs branch : List Expr} (h : ∀ c ∈ cs, Flat c) (hb : branch ∈ branches cs) {e : Expr}
    (he : e ∈ branch) : Flat e := by
  rcases mem_branch_cases hb he with ⟨hm, -⟩ | ⟨o, hm, -, heo⟩
  · exact h e hm
  · exact (h o hm).operand heo

theorem excessive_of_kept {cs : List Expr}
    (h : cs.filter isOr = [] ∨ combinationLimit ≤ combinations (cs.filter isOr)) : Excessive cs := by
  intro hany
  rcases h with h | h
  · obtain ⟨e, he, ho⟩ := List.any_eq_true.mp hany
    have : e ∈ cs.filter isOr := List.mem_filter.mpr ⟨he, ho⟩
    rw [h] at this
    cases this
  · exact (combinationLimit_le_iff _).mp h

theorem plain_conjunction {es : List Expr} (h : ∀ e ∈ es, Plain e) : Plain (conjunction es) := by
  induction es using connective_induction with
  | bubbled es hr =>
    rw [any_isPerRepo_of_plain h] at hr
    cases hr
  | plain es hr ih =>
    rw [conjunction_eq hr]
    split
    · exact .const false
    · rename_i hs
      obtain ⟨hc, hn⟩ := Bool.or_eq_false_iff.mp (Bool.not_eq_true _ ▸ hs)
      have hflat : ∀ c ∈ conjuncts es, Flat c := fun c hm => (flat_of_mem_conjuncts h hc hm).1
      refine collapse_cases _ (fun _ => .const true) (fun e he => ?_) (fun h2 => ?_)
      · exact .flat (hflat e (he ▸ List.mem_singleton_self e))
      · rw [multiply]
        split
        · rename_i hk
          exact .flat (.and _ (proper_distinct h2 hn) hflat (fun c hm => (flat_of_mem_conjuncts h hc hm).2)
            (excessive_of_kept hk))
        · rename_i hk
          refine plain_disjunction fun d hd => ?_
          obtain ⟨branch, hb, rfl⟩ := List.mem_map.mp hd
          exact ih (not_or.mp hk).1 branch hb fun e he => .flat (flat_of_mem_branch hflat hb he)

theorem plain_negate {e : Expr} (h : Plain e) : Plain e.negate := by
  induction e using Expr.induction with
  | const b => exact .const _
  | leaf l => exact .flat (.notLeaf l)
  | not e =>
    cases h with
    | flat h =>
      cases h with
      | notLeaf l => exact .flat (.leaf l)
  | and es ih =>
    rw [negate, negateAll_eq_map]
    refine plain_disjunction fun d hd => ?_
    obtain ⟨e, he, rfl⟩ := List.mem_map.mp hd
    cases h with
    | flat h => exact ih e he (.flat (h.operand he))
  | or es ih =>
    rw [negate, negateAll_eq_map]
    refine plain_conjunction fun d hd => ?_
    obtain ⟨e, he, rfl⟩ := List.mem_map.mp hd
    cases h with
    | flat h => exact ih e he (.flat (h.operand he))
  | perRepo entries fallback => cases h.not_perRepo

/-! ## Repositories -/

theorem Canonical.plain_inRepo {e : Expr} (h : Canonical e) (r : Repository) : Plain (e.inRepo r) := by
  cases h with
  | plain h => rwa [inRepo_of_not_perRepo h.not_perRepo]
  | perRepo entries fallback _ he hf => exact forall_found (fun p hp => (he p hp).1) hf r

theorem Canonical.plain_elsewhere {e : Expr} (h : Canonical e) : Plain e.elsewhere := by
  cases h with
  | plain h => rwa [elsewhere_of_not_perRepo h.not_perRepo]
  | perRepo entries fallback _ _ hf => exact hf

theorem canonical_ofEntries {entries : List (Repository × Expr)} {fallback : Expr}
    (he : ∀ p ∈ entries, Canonical p.2) (hf : Canonical fallback) : Canonical (ofEntries entries fallback) := by
  rw [ofEntries_eq]
  split
  · exact .plain hf.plain_elsewhere
  · rename_i hk
    refine .perRepo _ _ hk (fun p hp => ?_) hf.plain_elsewhere
    obtain ⟨hm, hne⟩ := mem_keptEntries hp
    refine ⟨?_, hne⟩
    rcases hm with ⟨e, hm, hpe⟩ | ⟨more, e, rfl, hm⟩
    · rw [hpe]
      exact (he _ hm).plain_inRepo p.1
    · cases hf with
      | plain hf => cases hf.not_perRepo
      | perRepo _ _ _ hmore => exact (hmore p hm).1

theorem canonical_bubbled {connective : List Expr → Expr} {es : List Expr}
    (hc : ∀ ds : List Expr, (∀ d ∈ ds, Plain d) → Plain (connective ds)) (h : ∀ e ∈ es, Canonical e) :
    Canonical (bubbled connective es) := by
  refine canonical_ofEntries (fun p hp => ?_) (.plain (hc _ fun d hd => ?_))
  · obtain ⟨r, -, rfl⟩ := List.mem_map.mp hp
    refine .plain (hc _ fun d hd => ?_)
    obtain ⟨e, he, rfl⟩ := List.mem_map.mp hd
    exact (h e he).plain_inRepo r
  · obtain ⟨e, he, rfl⟩ := List.mem_map.mp hd
    exact (h e he).plain_elsewhere

theorem plain_of_any {es : List Expr} (h : ∀ e ∈ es, Canonical e) (hr : es.any isPerRepo = false) :
    ∀ e ∈ es, Plain e := by
  intro e he
  cases h e he with
  | plain h => exact h
  | perRepo entries fallback => cases not_perRepo_of_any hr he

theorem canonical_disjunction {es : List Expr} (h : ∀ e ∈ es, Canonical e) : Canonical (disjunction es) := by
  cases hr : es.any isPerRepo with
  | true =>
    rw [disjunction_of_perRepo hr]
    exact canonical_bubbled (fun _ => plain_disjunction) h
  | false => exact .plain (plain_disjunction (plain_of_any h hr))

theorem canonical_conjunction {es : List Expr} (h : ∀ e ∈ es, Canonical e) : Canonical (conjunction es) := by
  cases hr : es.any isPerRepo with
  | true =>
    rw [conjunction_of_perRepo hr]
    exact canonical_bubbled (fun _ => plain_conjunction) h
  | false => exact .plain (plain_conjunction (plain_of_any h hr))

theorem canonical_negate {e : Expr} (h : Canonical e) : Canonical e.negate := by
  cases h with
  | plain h => exact .plain (plain_negate h)
  | perRepo entries fallback _ he hf =>
    rw [negate, negateEntries_eq_map]
    refine canonical_ofEntries (fun p hp => ?_) (.plain (plain_negate hf))
    obtain ⟨q, hq, rfl⟩ := List.mem_map.mp hp
    exact .plain (plain_negate (he q hq).1)

theorem canonical_normalize (e : Expr) : Canonical e.normalize := by
  have hmap : ∀ es : List Expr, (∀ e ∈ es, Canonical e.normalize) → ∀ d ∈ es.map normalize, Canonical d := by
    intro es h d hd
    obtain ⟨e, he, rfl⟩ := List.mem_map.mp hd
    exact h e he
  induction e using Expr.induction with
  | const b => exact .plain (.const b)
  | leaf l => exact .plain (.flat (.leaf l))
  | not e ih => exact canonical_negate ih
  | and es ih =>
    rw [normalize, normalizeAll_eq_map]
    exact canonical_conjunction (hmap es ih)
  | or es ih =>
    rw [normalize, normalizeAll_eq_map]
    exact canonical_disjunction (hmap es ih)
  | perRepo entries fallback ih ihf =>
    rw [normalize, normalizeEntries_eq_map]
    refine canonical_ofEntries (fun p hp => ?_) ihf
    obtain ⟨q, hq, rfl⟩ := List.mem_map.mp hp
    exact ih q hq

/-! ## Recognising -/

theorem not_within_literal {e : Expr} (h : Flat e) (hl : e.isLiteral = true) (es : List Expr) :
    ¬ Within (.and es) e := by
  intro hw
  cases h with
  | leaf l => cases hw
  | notLeaf l =>
    cases hw with
    | not hw => cases hw
  | and | or => cases hl

theorem Flat.isLiteral_eq {e : Expr} (h : Flat e) (ha : e.isAnd = false) : e.isLiteral = !e.isOr := by
  cases h with
  | leaf | notLeaf | or => rfl
  | and => cases ha

theorem all_isLiteral_eq {es : List Expr} (h : ∀ e ∈ es, Flat e) (ha : ∀ e ∈ es, e.isAnd = false) :
    es.all isLiteral = !es.any isOr := by
  rw [Bool.eq_iff_iff, Bool.not_eq_true', List.all_eq_true, List.any_eq_false]
  refine forall₂_congr fun e he => ?_
  rw [(h e he).isLiteral_eq (ha e he), Bool.not_eq_true', Bool.not_eq_true]

theorem isConjunction_iff {e : Expr} (h : Flat e) (ho : e.isOr = false) : e.isConjunction = true ↔ ¬ Degraded e := by
  have hlit : e.isLiteral = true → ¬ Degraded e := fun hl ⟨es, hw, _⟩ => not_within_literal h hl es hw
  cases h with
  | leaf l => exact iff_of_true rfl (hlit rfl)
  | notLeaf l => exact iff_of_true rfl (hlit rfl)
  | or => cases ho
  | and es hp hf ha =>
    rw [isConjunction, isProper_iff.mpr hp, Bool.and_true, all_isLiteral_eq hf ha, Bool.not_eq_true']
    constructor
    · rintro hany ⟨ds, hw, hds⟩
      cases hw with
      | self =>
        rw [hany] at hds
        cases hds
      | and he hw =>
        refine not_within_literal (hf _ he) ?_ ds hw
        rw [(hf _ he).isLiteral_eq (ha _ he)]
        simpa using List.any_eq_false.mp hany _ he
    · intro hd
      exact Bool.eq_false_iff.mpr fun hany => hd ⟨es, .self, hany⟩

theorem Plain.isDisjunction_iff {e : Expr} (h : Plain e) : e.isDisjunction = true ↔ ¬ Degraded e := by
  cases h with
  | const b =>
    refine iff_of_true rfl ?_
    rintro ⟨es, hw, -⟩
    cases hw
  | flat h =>
    cases h with
    | leaf l => exact isConjunction_iff (.leaf l) rfl
    | notLeaf l => exact isConjunction_iff (.notLeaf l) rfl
    | and es hp hf ha hx => exact isConjunction_iff (.and es hp hf ha hx) rfl
    | or es hp hf ho =>
      rw [isDisjunction, isProper_iff.mpr hp, Bool.and_true, List.all_eq_true]
      constructor
      · rintro hall ⟨ds, hw, hds⟩
        cases hw with
        | or he hw => exact (isConjunction_iff (hf _ he) (ho _ he)).mp (hall _ he) ⟨ds, hw, hds⟩
      · intro hd e he
        exact (isConjunction_iff (hf e he) (ho e he)).mpr fun ⟨ds, hw, hds⟩ => hd ⟨ds, .or he hw, hds⟩

theorem Canonical.isNormalized_iff {e : Expr} (h : Canonical e) : e.isNormalized = true ↔ ¬ Degraded e := by
  cases h with
  | plain h =>
    rw [← h.isDisjunction_iff]
    have := h.not_perRepo
    cases e <;> first | rfl | cases this
  | perRepo entries fallback hne he hf =>
    simp only [isNormalized, Bool.and_eq_true, Bool.not_eq_true', List.isEmpty_eq_false_iff, List.all_eq_true,
      isSame_eq]
    constructor
    · rintro ⟨⟨-, hd⟩, hall⟩ ⟨es, hw, hes⟩
      cases hw with
      | entry hp hw => exact (he _ hp).1.isDisjunction_iff.mp (hall _ hp).2 ⟨es, hw, hes⟩
      | fallback hw => exact hf.isDisjunction_iff.mp hd ⟨es, hw, hes⟩
    · intro hd
      refine ⟨⟨hne, ?_⟩, fun p hp => ⟨(he p hp).2, ?_⟩⟩
      · exact hf.isDisjunction_iff.mpr fun ⟨es, hw, hes⟩ => hd ⟨es, .fallback hw, hes⟩
      · exact (he p hp).1.isDisjunction_iff.mpr fun ⟨es, hw, hes⟩ => hd ⟨es, .entry hp hw, hes⟩

/-! ## The guard -/

theorem Flat.guarded {e : Expr} (h : Flat e) : Guarded e := by
  intro ds hw
  induction h with
  | leaf l => cases hw
  | notLeaf l =>
    cases hw with
    | not hw => cases hw
  | and es _ _ _ hx ih =>
    cases hw with
    | self => exact hx
    | and he hw => exact ih _ he hw
  | or es _ _ _ ih =>
    cases hw with
    | or he hw => exact ih _ he hw

theorem Plain.guarded {e : Expr} (h : Plain e) : Guarded e := by
  cases h with
  | const b =>
    intro ds hw
    cases hw
  | flat h => exact h.guarded

theorem Canonical.guarded {e : Expr} (h : Canonical e) : Guarded e := by
  cases h with
  | plain h => exact h.guarded
  | perRepo entries fallback _ he hf =>
    intro ds hw
    cases hw with
    | entry hp hw => exact (he _ hp).1.guarded ds hw
    | fallback hw => exact hf.guarded ds hw

/-- A normal form has the canonical shape throughout. It is not recognised as normalized exactly if a disjunction is
    left inside a conjunction, and then there were too many combinations to multiply out. -/
theorem normalize_canonical_or_degraded (e : Expr) :
    Canonical e.normalize ∧ (e.normalize.isNormalized = false ↔ Degraded e.normalize) ∧ Guarded e.normalize := by
  have h := canonical_normalize e
  refine ⟨h, ?_, h.guarded⟩
  rw [← Bool.not_eq_true, h.isNormalized_iff, not_not]

end Triage.Expr
