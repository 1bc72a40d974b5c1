/-
  Triage.Proofs.Expr.Meaning — normalizing keeps what an expression means.

  Everything is shown for any assignment `v` of truth values to leaves in any repository `r`, so nothing about issues
  is used. The operations on operands keep "all of them" or "one of them" (`all_conjuncts`, `any_disjuncts`,
  `any_branches`), the connectives therefore mean what their names say for operands of any shape
  (`evalWith_disjunction`, `evalWith_conjunction`), and the normal form follows by induction over the expression.
-/

import Triage.Proofs.Expr.Connective

namespace Triage.Expr

section Eval

variable (v : Leaf → Bool) (r : Repository)

/-! ## Same expressions -/

theorem evalWith_congr {d e : Expr} (h : same d e = true) : d.evalWith v r = e.evalWith v r := by
  induction d using Expr.induction generalizing e with
  | const a =>
    cases e <;> simp only [same, Bool.false_eq_true, beq_iff_eq] at h
    rw [h]
  | leaf l =>
    cases e <;> simp only [same, Bool.false_eq_true, beq_iff_eq] at h
    rw [h]
  | not d ih =>
    cases e <;> simp only [same, Bool.false_eq_true] at h
    rw [evalWith_not, evalWith_not, ih h]
  | and ds ih =>
    cases e <;> simp only [same, Bool.false_eq_true] at h
    rename_i es
    have hp : (ds.map (evalWith v r)).Perm (es.map (evalWith v r)) :=
      map_perm_of_map_perm (sameOperands_iff.mp h) fun d hd e _ hde => ih d hd (same_iff.mpr hde)
    have hv := hp.all_eq (f := id)
    rw [List.all_map, List.all_map, Function.id_comp] at hv
    rw [evalWith_and, evalWith_and, hv]
  | or ds ih =>
    cases e <;> simp only [same, Bool.false_eq_true] at h
    rename_i es
    have hp : (ds.map (evalWith v r)).Perm (es.map (evalWith v r)) :=
      map_perm_of_map_perm (sameOperands_iff.mp h) fun d hd e _ hde => ih d hd (same_iff.mpr hde)
    have hv := hp.any_eq (f := id)
    rw [List.any_map, List.any_map, Function.id_comp] at hv
    rw [evalWith_or, evalWith_or, hv]
  | perRepo entries fallback ih ihf =>
    cases e <;> simp only [same, Bool.false_eq_true, Bool.and_eq_true] at h
    rw [evalWith_perRepo, evalWith_perRepo]
    exact forall_found (p := fun d => ∀ e, same d e = true → d.evalWith v r = e.evalWith v r)
      (fun q hq e => ih q hq) (fun e => ihf) r _ (same_found h.1 h.2 r)

/-! ## Operand lists -/

theorem all_congr_of_mem {p q : Expr → Bool} {es : List Expr} (h : ∀ e ∈ es, p e = q e) : es.all p = es.all q := by
  rw [Bool.eq_iff_iff, List.all_eq_true, List.all_eq_true]
  exact forall₂_congr fun e he => by rw [h e he]

theorem any_congr_of_mem {p q : Expr → Bool} {es : List Expr} (h : ∀ e ∈ es, p e = q e) : es.any p = es.any q := by
  rw [List.any_eq_not_all_not, List.any_eq_not_all_not, all_congr_of_mem fun e he => congrArg Bool.not (h e he)]

theorem all_distinct (es : List Expr) : (distinct es).all (evalWith v r) = es.all (evalWith v r) := by
  rw [Bool.eq_iff_iff, List.all_eq_true, List.all_eq_true]
  constructor
  · intro h e he
    have hm : same e ∈ (distinct es).map same := mem_distinct_iff.mpr (List.mem_map_of_mem he)
    obtain ⟨d, hd, hde⟩ := List.mem_map.mp hm
    rw [← evalWith_congr v r (same_iff.mpr hde)]
    exact h d hd
  · intro h e he
    exact h e ((distinct_sublist es).subset he)

theorem any_distinct (es : List Expr) : (distinct es).any (evalWith v r) = es.any (evalWith v r) := by
  rw [Bool.eq_iff_iff, List.any_eq_true, List.any_eq_true]
  constructor
  · rintro ⟨e, he, hv⟩
    exact ⟨e, (distinct_sublist es).subset he, hv⟩
  · rintro ⟨e, he, hv⟩
    have hm : same e ∈ (distinct es).map same := mem_distinct_iff.mpr (List.mem_map_of_mem he)
    obtain ⟨d, hd, hde⟩ := List.mem_map.mp hm
    exact ⟨d, hd, (evalWith_congr v r (same_iff.mpr hde)).trans hv⟩

theorem all_dissolveAnd (es : List Expr) : (dissolveAnd es).all (evalWith v r) = es.all (evalWith v r) := by
  induction es with
  | nil => rfl
  | cons e es ih =>
    rw [dissolveAnd] at ih ⊢
    rw [List.flatMap_cons, List.all_append, List.all_cons, ih]
    congr 1
    cases e <;> simp

theorem any_dissolveOr (es : List Expr) : (dissolveOr es).any (evalWith v r) = es.any (evalWith v r) := by
  induction es with
  | nil => rfl
  | cons e es ih =>
    rw [dissolveOr] at ih ⊢
    rw [List.flatMap_cons, List.any_append, List.any_cons, ih]
    congr 1
    cases e <;> simp

theorem eq_const_of_isConst {b : Bool} {e : Expr} (h : e.isConst b = true) : e = .const b := by
  cases e <;> simp only [isConst, Bool.false_eq_true, beq_iff_eq] at h
  rw [h]

theorem all_conjuncts (es : List Expr) : (conjuncts es).all (evalWith v r) = es.all (evalWith v r) := by
  rw [conjuncts, all_distinct, ← all_dissolveAnd v r es, List.all_filter]
  refine all_congr_of_mem fun e _ => ?_
  cases h : e.isConst true with
  | true => rw [eq_const_of_isConst h]; rfl
  | false => simp

theorem any_disjuncts (es : List Expr) : (disjuncts es).any (evalWith v r) = es.any (evalWith v r) := by
  rw [disjuncts, any_distinct, ← any_dissolveOr v r es, List.any_filter]
  refine any_congr_of_mem fun e _ => ?_
  cases h : e.isConst false with
  | true => rw [eq_const_of_isConst h]; rfl
  | false => simp

/-- An operand beside its negation: one of the two holds and the other does not. -/
theorem exists_of_hasComplement {es : List Expr} (h : hasComplement es = true) :
    ∃ d ∈ es, ∃ e ∈ es, d.evalWith v r = !e.evalWith v r := by
  obtain ⟨d, hd, e, he, hde⟩ := hasComplement_iff.mp h
  exact ⟨d, hd, e, he, (evalWith_congr v r hde).trans (evalWith_not v r e)⟩

theorem all_eq_false_of_hasComplement {es : List Expr} (h : hasComplement es = true) :
    es.all (evalWith v r) = false := by
  obtain ⟨d, hd, e, he, hde⟩ := exists_of_hasComplement v r h
  rw [List.all_eq_false]
  cases hv : e.evalWith v r with
  | true => exact ⟨d, hd, by rw [hde, hv]; decide⟩
  | false => exact ⟨e, he, by rw [hv]; decide⟩

theorem any_eq_true_of_hasComplement {es : List Expr} (h : hasComplement es = true) :
    es.any (evalWith v r) = true := by
  obtain ⟨d, hd, e, he, hde⟩ := exists_of_hasComplement v r h
  rw [List.any_eq_true]
  cases hv : e.evalWith v r with
  | true => exact ⟨e, he, hv⟩
  | false => exact ⟨d, hd, by rw [hde, hv]; rfl⟩

/-- Multiplying out: all operands hold exactly if all of some branch do. -/
theorem any_branches (cs : List Expr) :
    (branches cs).any (fun branch => branch.all (evalWith v r)) = cs.all (evalWith v r) := by
  have hors : ((cs.filter isOr).map operands).all (fun l => l.any (evalWith v r)) =
      (cs.filter isOr).all (evalWith v r) := by
    rw [List.all_map]
    refine all_congr_of_mem fun e he => ?_
    have ho := (List.mem_filter.mp he).2
    cases e <;> simp only [isOr, Bool.false_eq_true] at ho
    exact (evalWith_or v r _).symm
  have hsplit : cs.all (evalWith v r) =
      ((cs.filter fun e => !e.isOr).all (evalWith v r) && (cs.filter isOr).all (evalWith v r)) := by
    clear hors
    induction cs with
    | nil => rfl
    | cons c cs ih => cases h : c.isOr <;> simp [h, ih, Bool.and_assoc, Bool.and_left_comm]
  rw [branches, List.any_map, hsplit, ← hors, ← any_choices]
  cases h : (cs.filter fun e => !e.isOr).all (evalWith v r) <;> simp [Function.comp_def, List.all_append, h]

/-! ## Connectives -/

theorem evalWith_ofEntries (entries : List (Repository × Expr)) (fallback : Expr) :
    (ofEntries entries fallback).evalWith v r = ((entries.lookup r).getD fallback).evalWith v r := by
  have hf := evalWith_congr v r (same_found_kept entries fallback r)
  rw [evalWith_inRepo] at hf
  rw [← hf, ofEntries_eq]
  split
  · rename_i h
    rw [h]
    rfl
  · exact evalWith_perRepo v r _ _

theorem all_allInRepo (es : List Expr) : (allInRepo r es).all (evalWith v r) = es.all (evalWith v r) := by
  rw [allInRepo, List.all_map]
  exact congrArg _ (funext fun e => evalWith_inRepo v r e)

theorem any_allInRepo (es : List Expr) : (allInRepo r es).any (evalWith v r) = es.any (evalWith v r) := by
  rw [allInRepo, List.any_map]
  exact congrArg _ (funext fun e => evalWith_inRepo v r e)

theorem evalWith_disjunction (es : List Expr) : (disjunction es).evalWith v r = es.any (evalWith v r) := by
  induction es using connective_induction with
  | bubbled es h ih =>
    rw [disjunction_of_perRepo h, bubbled, evalWith_ofEntries, bubbled_found, ih r, any_allInRepo]
  | plain es h =>
    rw [disjunction_eq h, ← any_disjuncts]
    split
    · rename_i hc
      rcases Bool.or_eq_true_iff.mp hc with hc | hc
      · obtain ⟨e, he, hb⟩ := List.any_eq_true.mp hc
        rw [any_disjuncts, ← any_dissolveOr]
        refine (List.any_eq_true.mpr ⟨e, he, ?_⟩).symm
        rw [eq_const_of_isConst hb]
        rfl
      · exact (any_eq_true_of_hasComplement v r hc).symm
    · refine collapse_cases (p := fun e => evalWith v r e = (disjuncts es).any (evalWith v r)) _ (fun h => ?_)
        (fun e h => ?_) (fun _ => evalWith_or v r _)
      · rw [h]; rfl
      · rw [h, List.any_cons, List.any_nil, Bool.or_false]

theorem evalWith_multiply {cs : List Expr}
    (ih : cs.filter isOr ≠ [] → ∀ branch ∈ branches cs, (conjunction branch).evalWith v r = branch.all (evalWith v r)) :
    (multiply cs).evalWith v r = cs.all (evalWith v r) := by
  rw [multiply]
  split
  · exact evalWith_and v r cs
  · rename_i h
    have hb : ((branches cs).map conjunction).any (evalWith v r) =
        (branches cs).any fun branch => branch.all (evalWith v r) := by
      rw [List.any_map, Bool.eq_iff_iff, List.any_eq_true, List.any_eq_true]
      refine exists_congr fun branch => and_congr_right fun hm => ?_
      rw [Function.comp_apply, ih (not_or.mp h).1 branch hm]
    rw [evalWith_disjunction, hb, any_branches]

theorem evalWith_conjunction (es : List Expr) : (conjunction es).evalWith v r = es.all (evalWith v r) := by
  induction es using connective_induction with
  | bubbled es h ih =>
    rw [conjunction_of_perRepo h, bubbled, evalWith_ofEntries, bubbled_found, ih r, all_allInRepo]
  | plain es h ih =>
    rw [conjunction_eq h, ← all_conjuncts]
    split
    · rename_i hc
      rcases Bool.or_eq_true_iff.mp hc with hc | hc
      · obtain ⟨e, he, hb⟩ := List.any_eq_true.mp hc
        rw [all_conjuncts, ← all_dissolveAnd]
        refine (List.all_eq_false.mpr ⟨e, he, ?_⟩).symm
        rw [eq_const_of_isConst hb]
        exact Bool.false_ne_true
      · exact (all_eq_false_of_hasComplement v r hc).symm
    · refine collapse_cases (p := fun e => evalWith v r e = (conjuncts es).all (evalWith v r)) _ (fun h => ?_)
        (fun e h => ?_) (fun _ => evalWith_multiply v r ih)
      · rw [h]; rfl
      · rw [h, List.all_cons, List.all_nil, Bool.and_true]

/-! ## Normal forms -/

theorem evalWith_negate (e : Expr) : e.negate.evalWith v r = !e.evalWith v r := by
  induction e using Expr.induction with
  | const b => rfl
  | leaf l => rfl
  | not e ih => rw [negate, evalWith_not, Bool.not_not]
  | and es ih =>
    rw [negate, negateAll_eq_map, evalWith_disjunction, evalWith_and, List.any_map, List.not_all_eq_any_not]
    exact any_congr_of_mem ih
  | or es ih =>
    rw [negate, negateAll_eq_map, evalWith_conjunction, evalWith_or, List.all_map, List.not_any_eq_all_not]
    exact all_congr_of_mem ih
  | perRepo entries fallback ih ihf =>
    rw [negate, negateEntries_eq_map, evalWith_ofEntries, evalWith_perRepo, lookup_map fun _ => negate]
    have hf := forall_found (p := fun e => evalWith v r (negate e) = !evalWith v r e) ih ihf r
    rw [← hf]
    cases entries.lookup r <;> rfl

theorem evalWith_normalize (e : Expr) : e.normalize.evalWith v r = e.evalWith v r := by
  induction e using Expr.induction with
  | const b => rfl
  | leaf l => rfl
  | not e ih => rw [normalize, evalWith_negate, ih, evalWith_not]
  | and es ih =>
    rw [normalize, normalizeAll_eq_map, evalWith_conjunction, evalWith_and, List.all_map]
    exact all_congr_of_mem ih
  | or es ih =>
    rw [normalize, normalizeAll_eq_map, evalWith_disjunction, evalWith_or, List.any_map]
    exact any_congr_of_mem ih
  | perRepo entries fallback ih ihf =>
    rw [normalize, normalizeEntries_eq_map, evalWith_ofEntries, evalWith_perRepo, lookup_map fun _ => normalize]
    have hf := forall_found (p := fun e => evalWith v r (normalize e) = evalWith v r e) ih ihf r
    rw [← hf]
    cases entries.lookup r <;> rfl

end Eval

/-- An issue matches the normal form of an expression exactly if it matches the expression. -/
theorem eval_normalize [Engine] (e : Expr) (i : Issue) : e.normalize.eval i = e.eval i :=
  evalWith_normalize (Leaf.eval i) i.repository e

end Triage.Expr
