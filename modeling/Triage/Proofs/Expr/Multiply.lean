/-
  Triage.Proofs.Expr.Multiply — how many conjunctions come from multiplying out.

  There are as many branches as ways to choose an operand of each disjunction (`length_branches`), and each branch
  gives at most one disjunct: its operands are literals and conjunctions, and their conjunction is not multiplied out
  again (`isOr_conjunction_eq_false`). It has disjunctions as operands only where one of the chosen conjunctions had
  too many of them. Those are apart from each other, so that all of them are among the new operands and there are
  still too many (`excessive_conjuncts`).
-/

import Triage.Proofs.Expr.Idempotent
import Mathlib.Algebra.BigOperators.Group.List.Lemmas
import Mathlib.Algebra.Order.BigOperators.GroupWithZero.List
import Mathlib.Algebra.Order.Ring.Nat
import Mathlib.Data.List.Perm.Subperm

namespace Triage.Expr

/-! ## Counting -/

/-- In how many ways an operand of each disjunction can be chosen. -/
def product (cs : List Expr) : Nat := ((cs.filter isOr).map fun e => e.operands.length).prod

theorem length_choices {α : Type} (ls : List (List α)) : (choices ls).length = (ls.map List.length).prod := by
  induction ls with
  | nil => rfl
  | cons l ls ih => simp [choices, List.length_flatMap, ih]

theorem length_branches (cs : List Expr) : (branches cs).length = product cs := by
  rw [branches, List.length_map, length_choices, List.map_map]
  rfl

theorem Flat.two_le_length_operands {e : Expr} (h : Flat e) (ho : e.isOr = true) : 2 ≤ e.operands.length := by
  cases h with
  | or es hp => exact hp.two
  | leaf | notLeaf | and => cases ho

theorem product_pos {cs : List Expr} (h : ∀ c ∈ cs, Flat c) : 0 < product cs := by
  rw [product]
  refine List.prod_pos fun n hn => ?_
  obtain ⟨c, hc, rfl⟩ := List.mem_map.mp hn
  obtain ⟨hm, ho⟩ := List.mem_filter.mp hc
  have := (h c hm).two_le_length_operands ho
  omega

/-- Operands that are apart and found among others leave no more choices than those. -/
theorem product_le_of_subset {cs ds : List Expr} (hc : ∀ c ∈ cs, Flat c) (hd : (ds.map same).Nodup)
    (h : ds.map same ⊆ cs.map same) : product ds ≤ product cs := by
  have hnodup : ((ds.filter isOr).map same).Nodup := hd.sublist (List.filter_sublist.map same)
  have hsubset : (ds.filter isOr).map same ⊆ (cs.filter isOr).map same := by
    intro s hs
    obtain ⟨d, hd, rfl⟩ := List.mem_map.mp hs
    obtain ⟨hm, ho⟩ := List.mem_filter.mp hd
    obtain ⟨c, hcm, hcd⟩ := List.mem_map.mp (h (List.mem_map_of_mem hm))
    refine List.mem_map.mpr ⟨c, List.mem_filter.mpr ⟨hcm, ?_⟩, hcd⟩
    rw [isOr_congr (same_iff.mpr hcd), ho]
  -- The disjunctions of `ds` are, up to order, some of those of `cs`.
  obtain ⟨ss, hperm, hsub⟩ := List.subperm_of_subset hnodup hsubset
  obtain ⟨some, hsome, rfl⟩ := List.sublist_map_iff.mp hsub
  have hsame : (some.map fun e => e.operands.length).prod = product ds :=
    (Alike.map_perm (fun _ _ => length_operands_congr) hperm).prod_eq
  have hdvd : (some.map fun e => e.operands.length).prod ∣ product cs := (hsome.map _).prod_dvd_prod
  rw [← hsame]
  exact Nat.le_of_dvd (product_pos hc) hdvd

/-! ## Branches are not multiplied out again -/

theorem flat_of_mem_dissolveAnd {es : List Expr} (h : ∀ e ∈ es, Flat e) {c : Expr} (hc : c ∈ dissolveAnd es) :
    Flat c := by
  rcases mem_dissolveAnd_iff.mp hc with ⟨ds, hds, hcd⟩ | ⟨hm, -⟩
  · exact (h _ hds).operand hcd
  · exact h c hm

/-- Up to `same`, no operand but `true` is lost. -/
theorem mem_conjuncts_of_mem_dissolveAnd {es : List Expr} {c : Expr} (hc : c ∈ dissolveAnd es)
    (ht : c.isConst true = false) : same c ∈ (conjuncts es).map same := by
  refine mem_distinct_iff.mpr (List.mem_map_of_mem (List.mem_filter.mpr ⟨hc, ?_⟩))
  rw [ht, Bool.not_false]

/-- Where literals and conjunctions are put together, a disjunction comes with all operands of a conjunction. -/
theorem exists_and_of_isOr {es : List Expr} (h : ∀ e ∈ es, Flat e ∧ e.isOr = false) {o : Expr}
    (ho : o ∈ conjuncts es) (hor : o.isOr = true) :
    ∃ ds, Flat (.and ds) ∧ o ∈ ds ∧ ds.map same ⊆ (conjuncts es).map same := by
  rcases mem_dissolveAnd_iff.mp (mem_dissolveAnd_of_mem_conjuncts ho) with ⟨ds, hds, hod⟩ | ⟨hm, -⟩
  · refine ⟨ds, (h _ hds).1, hod, fun s hs => ?_⟩
    obtain ⟨d, hd, rfl⟩ := List.mem_map.mp hs
    have hdm : d ∈ dissolveAnd es := mem_dissolveAnd_iff.mpr (Or.inl ⟨ds, hds, hd⟩)
    exact mem_conjuncts_of_mem_dissolveAnd hdm (((h _ hds).1.operand hd).isConst_eq_false true)
  · rw [(h o hm).2] at hor
    cases hor

/-- A conjunction that had too many disjunctions brings all of them along. -/
theorem excessive_conjuncts {es : List Expr} (h : ∀ e ∈ es, Flat e ∧ e.isOr = false) : Excessive (conjuncts es) := by
  intro hany
  obtain ⟨o, ho, hor⟩ := List.any_eq_true.mp hany
  obtain ⟨ds, hds, hod, hsubset⟩ := exists_and_of_isOr h ho hor
  have hflat : ∀ c ∈ conjuncts es, Flat c := fun c hc =>
    flat_of_mem_dissolveAnd (fun e he => (h e he).1) (mem_dissolveAnd_of_mem_conjuncts hc)
  cases hds with
  | and _ hp _ _ hx =>
    have hmany : combinationLimit ≤ product ds := hx (List.any_eq_true.mpr ⟨o, hod, hor⟩)
    exact Nat.le_trans hmany (product_le_of_subset hflat (proper_iff.mp hp).2.1 hsubset)

theorem isOr_conjunction_eq_false {es : List Expr} (h : ∀ e ∈ es, Flat e ∧ e.isOr = false) :
    (conjunction es).isOr = false := by
  rw [conjunction_eq (any_isPerRepo_of_plain fun e he => .flat (h e he).1)]
  split
  · rfl
  · refine collapse_cases (p := fun e => e.isOr = false) _ (fun _ => rfl) (fun e he => ?_) fun _ => ?_
    · -- A disjunction would come with the other operands of a conjunction, and be no single operand.
      by_contra hor
      obtain ⟨ds, hds, -, hsubset⟩ := exists_and_of_isOr h (he ▸ List.mem_singleton_self e) (by simpa using hor)
      cases hds with
      | and _ hp =>
        have hlength := (List.subperm_of_subset (proper_iff.mp hp).2.1 hsubset).length_le
        rw [List.length_map, List.length_map, he, List.length_singleton] at hlength
        have htwo := hp.two
        omega
    · rw [multiply, if_pos (excessive_conjuncts h).kept]
      rfl

theorem isOr_of_mem_branch {cs branch : List Expr} (h : ∀ c ∈ cs, Flat c) (hb : branch ∈ branches cs) {e : Expr}
    (he : e ∈ branch) : e.isOr = false := by
  rcases mem_branch_cases hb he with ⟨-, ho⟩ | ⟨o, hm, ho, heo⟩
  · exact ho
  · cases h o hm with
    | or _ _ _ hno => exact hno e heo
    | leaf | notLeaf | and => cases ho

/-! ## The number of disjuncts -/

/-- How many disjuncts the expression has at its root: `false` has none, and what is no disjunction is its own. -/
def disjunctCount : Expr → Nat
  | .const false => 0
  | .or es => es.length
  | _ => 1

theorem disjunctCount_le_one {e : Expr} (h : e.isOr = false) : e.disjunctCount ≤ 1 := by
  cases e with
  | const b => cases b <;> decide
  | or => cases h
  | leaf | not | and | perRepo => exact Nat.le_refl 1

/-- No disjunct is dissolved into several. -/
theorem disjunctCount_disjunction_le {es : List Expr} (hr : es.any isPerRepo = false) (ho : ∀ e ∈ es, e.isOr = false)
    (hne : es ≠ []) : (disjunction es).disjunctCount ≤ es.length := by
  have hpos : 1 ≤ es.length := List.length_pos_iff.mpr hne
  have hsub : (disjuncts es).Sublist es := by
    rw [disjuncts, dissolveOr_eq_self ho]
    exact (distinct_sublist _).trans List.filter_sublist
  rw [disjunction_eq hr]
  split
  · exact hpos
  · refine collapse_cases (p := fun e => e.disjunctCount ≤ es.length) _ (fun _ => Nat.zero_le _) (fun e he => ?_)
      fun _ => hsub.length_le
    have hm : e ∈ es := hsub.subset (he ▸ List.mem_singleton_self e)
    exact Nat.le_trans (disjunctCount_le_one (ho e hm)) hpos

/-- What is multiplied out has no more disjuncts than branches. -/
theorem disjunctCount_multiply_le {cs : List Expr} (h : ∀ c ∈ cs, Flat c) (hor : cs.any isOr = true)
    (hfew : product cs < combinationLimit) : (multiply cs).disjunctCount ≤ product cs := by
  have hout : ¬ (cs.filter isOr = [] ∨ combinationLimit ≤ combinations (cs.filter isOr)) := fun hk =>
    absurd (excessive_of_kept hk hor) (Nat.not_le.mpr hfew)
  have hbranch : ∀ branch ∈ branches cs, ∀ e ∈ branch, Flat e ∧ e.isOr = false := fun branch hb e he =>
    ⟨flat_of_mem_branch h hb he, isOr_of_mem_branch h hb he⟩
  have hlength : ((branches cs).map conjunction).length = product cs := by
    rw [List.length_map, length_branches]
  rw [multiply, if_neg hout, ← hlength]
  refine disjunctCount_disjunction_le (any_isPerRepo_of_plain (List.forall_mem_map.mpr fun branch hb => ?_))
    (List.forall_mem_map.mpr fun branch hb => ?_) fun hnil => ?_
  · exact plain_conjunction fun e he => .flat (hbranch branch hb e he).1
  · exact isOr_conjunction_eq_false (hbranch branch hb)
  · have hpos := product_pos h
    rw [← hlength, hnil] at hpos
    cases hpos

/-! ## The limit -/

theorem any_isConst_dissolveAnd {es : List Expr} (h : (conjuncts es).any (isConst false) = false) :
    (dissolveAnd es).any (isConst false) = false := by
  rw [List.any_eq_false] at h ⊢
  intro c hc hfalse
  have ht : c.isConst true = false := by cases c <;> simp_all [isConst]
  obtain ⟨d, hd, hdc⟩ := List.mem_map.mp (mem_conjuncts_of_mem_dissolveAnd hc ht)
  refine h d hd ?_
  rw [isConst_congr false (same_iff.mpr hdc), hfalse]

/-- The operands are normal forms without repositories. Put together they are neither `false` nor opposed, two or more
    and with a disjunction among them. Counting in words decides as counting without bound does. From the limit on,
    the conjunction has just these operands in their order; below it, the disjunctions are multiplied out and the
    conjunction has at most so many disjuncts. -/
theorem conjunction_multiplied_out_below_limit {es : List Expr}
    (hes : ∀ e ∈ es, e.isPerRepo = false ∧ ∃ d : Expr, d.normalize = e)
    (hfalse : (conjuncts es).any (isConst false) = false) (hcomplement : hasComplement (conjuncts es) = false)
    (htwo : 2 ≤ (conjuncts es).length) (hor : (conjuncts es).any isOr = true) :
    (combinationLimit ≤ combinations ((conjuncts es).filter isOr) ↔ combinationLimit ≤ product (conjuncts es)) ∧
      (combinationLimit ≤ product (conjuncts es) → conjunction es = .and (conjuncts es)) ∧
      (product (conjuncts es) < combinationLimit → (conjunction es).disjunctCount ≤ product (conjuncts es)) := by
  have hplain : ∀ e ∈ es, Plain e := by
    refine plain_of_any (fun e he => ?_) (any_isPerRepo_eq_false fun e he => (hes e he).1)
    obtain ⟨d, rfl⟩ := (hes e he).2
    exact canonical_normalize d
  have hconst := any_isConst_dissolveAnd hfalse
  have hmultiply : conjunction es = multiply (conjuncts es) := by
    rw [conjunction_eq (any_isPerRepo_of_plain hplain), hconst, hcomplement, Bool.or_self, if_neg Bool.false_ne_true,
      collapse_of_two_le htwo]
  have hiff := combinationLimit_le_iff ((conjuncts es).filter isOr)
  rw [hmultiply]
  refine ⟨hiff, fun hmany => ?_, disjunctCount_multiply_le (fun c hc => ?_) hor⟩
  · rw [multiply, if_pos (Or.inr (hiff.mpr hmany))]
  · exact (flat_of_mem_conjuncts hplain hconst hc).1

/-- Four choices, of which only one is no contradiction, and a hundred. -/
theorem conjunction_multiplied_out_below_limit_labels :
    let label (n : Nat) : Expr := .leaf (.label (String.ofList (List.replicate n 'x')))
    let opened : Expr := .leaf (.isOpen true)
    let few := [.and [opened, .not (label 0)], .or [label 0, .and [label 1, label 2]], .const true,
      .or [label 3, label 0], .or [.and [label 2, label 1], label 0]]
    let many := [.or ((List.range 10).map label), opened, .or ((List.range 10).map fun n => .not (label n))]
    (∀ es ∈ [few, many], (∀ e ∈ es, e.isPerRepo = false ∧ ∃ d : Expr, d.normalize = e) ∧
      (conjuncts es).any (isConst false) = false ∧ hasComplement (conjuncts es) = false ∧
      2 ≤ (conjuncts es).length ∧ (conjuncts es).any isOr = true) ∧
    product (conjuncts few) = 4 ∧ (conjunction few).disjunctCount ≤ 4 ∧
    product (conjuncts many) = 100 ∧ conjunction many = .and (conjuncts many) := by
  intro label opened few many
  have hnormal : ∀ es ∈ [few, many], ∀ e ∈ es, e.isPerRepo = false ∧ ∃ d : Expr, d.normalize = e := by
    have hdisjunctions : ∀ es ∈ [few, many], ∀ e ∈ es, e.isDisjunction = true := by decide +kernel
    intro es hes e he
    have hplain : Plain e := plain_of_isDisjunction (hdisjunctions es hes e he)
    exact ⟨hplain.not_perRepo, e, hplain.normalize_eq_self⟩
  have hops : ∀ es ∈ [few, many], (conjuncts es).any (isConst false) = false ∧ hasComplement (conjuncts es) = false ∧
      2 ≤ (conjuncts es).length ∧ (conjuncts es).any isOr = true := by decide +kernel
  have hfew : product (conjuncts few) = 4 := by decide +kernel
  have hmany : product (conjuncts many) = 100 := by decide +kernel
  have hrule : ∀ es ∈ [few, many], (combinationLimit ≤ product (conjuncts es) → conjunction es = .and (conjuncts es)) ∧
      (product (conjuncts es) < combinationLimit → (conjunction es).disjunctCount ≤ product (conjuncts es)) := by
    intro es hes
    obtain ⟨hfalse, hcomplement, htwo, hor⟩ := hops es hes
    exact (conjunction_multiplied_out_below_limit (hnormal es hes) hfalse hcomplement htwo hor).2
  refine ⟨fun es hes => ⟨hnormal es hes, hops es hes⟩, hfew, ?_, hmany, ?_⟩
  · rw [← hfew]
    exact (hrule few (by simp)).2 (by rw [hfew]; decide)
  · exact (hrule many (by simp)).1 (by rw [hmany]; decide)

end Triage.Expr
