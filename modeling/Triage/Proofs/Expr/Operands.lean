/-
  Triage.Proofs.Expr.Operands — the operations on operand lists that connectives are built from.

  Expressions are known here up to `same`. `distinct` keeps one of each kind (`nodup_distinct`, `mem_distinct_iff`),
  `hasComplement` finds an operand that is the same as the negation of another (`hasComplement_iff`), `choices` takes
  one element of each list (`any_choices`) and `combinations` is their number up to the greatest word
  (`combinations_eq`). Each of them treats lists that are alike in the same way.
-/

import Triage.Proofs.Expr.Same
import Mathlib.Data.Multiset.Sections

namespace Triage.Expr

/-! ## What all same expressions have in common -/

section Congr

variable {d e : Expr}

theorem isConst_congr (b : Bool) (h : same d e = true) : isConst b d = isConst b e := by
  cases d <;> cases e <;> simp only [same, Bool.false_eq_true, beq_iff_eq] at h <;> simp only [isConst, h]

theorem isOr_congr (h : same d e = true) : isOr d = isOr e := by
  cases d <;> cases e <;> first | rfl | simp only [same, Bool.false_eq_true] at h

theorem operands_congr (h : same d e = true) : Alike d.operands e.operands := by
  cases d <;> cases e <;> simp only [same, Bool.false_eq_true] at h
  case and.and => exact sameOperands_iff.mp h
  case or.or => exact sameOperands_iff.mp h
  all_goals exact Alike.refl _

theorem length_operands_congr (h : same d e = true) : d.operands.length = e.operands.length :=
  (operands_congr h).length_eq

theorem same_not_iff {d e : Expr} : same d (.not e) = true ↔ ∃ d', d = .not d' ∧ same d' e = true := by
  cases d <;> simp [same]

end Congr

/-! ## Dissolving -/

namespace Alike

theorem dissolveAnd {es fs : List Expr} (h : Alike es fs) : Alike (dissolveAnd es) (dissolveAnd fs) := by
  refine flatMap (fun d e hde => ?_) h
  cases d <;> cases e <;> simp only [same, Bool.false_eq_true] at hde
  case and.and => exact sameOperands_iff.mp hde
  all_goals exact singleton.mpr (by simp only [same, hde])

theorem dissolveOr {es fs : List Expr} (h : Alike es fs) : Alike (dissolveOr es) (dissolveOr fs) := by
  refine flatMap (fun d e hde => ?_) h
  cases d <;> cases e <;> simp only [same, Bool.false_eq_true] at hde
  case or.or => exact sameOperands_iff.mp hde
  all_goals exact singleton.mpr (by simp only [same, hde])

end Alike

/-! ## One of each -/

theorem distinctFrom_sublist (seen es : List Expr) : (distinctFrom seen es).Sublist es := by
  induction es generalizing seen with
  | nil => exact .refl _
  | cons e es ih =>
    rw [distinctFrom]
    split
    · exact (ih seen).cons e
    · exact (ih _).cons_cons e

theorem mem_distinctFrom_iff {s : Expr → Bool} {seen es : List Expr} :
    s ∈ (distinctFrom seen es).map same ↔ s ∈ es.map same ∧ s ∉ seen.map same := by
  induction es generalizing seen with
  | nil => simp [distinctFrom]
  | cons e es ih =>
    rw [distinctFrom]
    by_cases h : e.among seen = true
    · rw [if_pos h, ih, List.map_cons, List.mem_cons]
      have hs := among_iff.mp h
      refine ⟨fun ⟨h1, h2⟩ => ⟨Or.inr h1, h2⟩, fun ⟨h1, h2⟩ => ⟨h1.resolve_left ?_, h2⟩⟩
      rintro rfl
      exact h2 hs
    · rw [if_neg h, List.map_cons, List.map_cons, List.mem_cons, List.mem_cons, ih, List.map_append, List.mem_append,
        List.map_singleton, List.mem_singleton]
      have hs : same e ∉ seen.map same := fun hm => h (among_iff.mpr hm)
      by_cases he : s = same e
      · subst he
        simp [hs]
      · simp [he]

theorem nodup_distinctFrom (seen es : List Expr) : ((distinctFrom seen es).map same).Nodup := by
  induction es generalizing seen with
  | nil => exact .nil
  | cons e es ih =>
    rw [distinctFrom]
    split
    · exact ih seen
    · refine List.nodup_cons.mpr ⟨fun hm => ?_, ih _⟩
      exact (mem_distinctFrom_iff.mp hm).2 (by simp)

theorem distinctFrom_eq_self (seen : List Expr) {es : List Expr} (h : ((seen ++ es).map same).Nodup) :
    distinctFrom seen es = es := by
  induction es generalizing seen with
  | nil => rfl
  | cons e es ih =>
    have he : e.among seen = false := by
      rw [← Bool.not_eq_true, among_iff]
      rw [List.map_append, List.map_cons] at h
      exact fun hm => List.disjoint_of_nodup_append h hm List.mem_cons_self
    rw [distinctFrom, he, if_neg Bool.false_ne_true, ih (seen ++ [e])]
    rwa [List.append_assoc]

theorem distinct_sublist (es : List Expr) : (distinct es).Sublist es := distinctFrom_sublist [] es

theorem nodup_distinct (es : List Expr) : ((distinct es).map same).Nodup := nodup_distinctFrom [] es

theorem mem_distinct_iff {s : Expr → Bool} {es : List Expr} : s ∈ (distinct es).map same ↔ s ∈ es.map same := by
  simp [distinct, mem_distinctFrom_iff]

theorem length_distinct_eq_iff {es : List Expr} : (distinct es).length = es.length ↔ (es.map same).Nodup := by
  constructor
  · intro h
    rw [← (distinct_sublist es).eq_of_length h]
    exact nodup_distinct es
  · intro h
    exact congrArg List.length (distinctFrom_eq_self [] h)

theorem Alike.distinct {es fs : List Expr} (h : Alike es fs) : Alike (distinct es) (distinct fs) := by
  refine (List.perm_ext_iff_of_nodup (nodup_distinct es) (nodup_distinct fs)).mpr fun s => ?_
  rw [mem_distinct_iff, mem_distinct_iff]
  exact List.Perm.mem_iff h

/-! ## Complements -/

theorem hasComplement_iff {es : List Expr} :
    hasComplement es = true ↔ ∃ d ∈ es, ∃ e ∈ es, same d (.not e) = true := by
  rw [hasComplement, List.any_eq_true]
  constructor
  · rintro ⟨d, hd, h⟩
    split at h
    · rename_i d'
      obtain ⟨e, he, hed⟩ := List.mem_map.mp (among_iff.mp h)
      exact ⟨.not d', hd, e, he, by rw [same]; exact same_iff.mpr hed.symm⟩
    · cases h
  · rintro ⟨d, hd, e, he, h⟩
    obtain ⟨d', rfl, h'⟩ := same_not_iff.mp h
    refine ⟨.not d', hd, among_iff.mpr ?_⟩
    rw [same_iff.mp h']
    exact List.mem_map_of_mem he

theorem Alike.hasComplement_of {es fs : List Expr} (h : Alike es fs) (hc : hasComplement es = true) :
    hasComplement fs = true := by
  obtain ⟨d, hd, e, he, hde⟩ := hasComplement_iff.mp hc
  obtain ⟨d', hd', hdd⟩ := h.exists_mem hd
  obtain ⟨e', he', hee⟩ := h.exists_mem he
  have hn : same (.not e) (.not e') = true := by rw [same]; exact same_iff.mpr hee.symm
  exact hasComplement_iff.mpr ⟨d', hd', e', he', same_trans (same_iff.mpr hdd) (same_trans hde hn)⟩

theorem Alike.hasComplement_eq {es fs : List Expr} (h : Alike es fs) : hasComplement es = hasComplement fs := by
  rw [Bool.eq_iff_iff]
  exact ⟨h.hasComplement_of, h.symm.hasComplement_of⟩

/-! ## The operands of a connective -/

theorem Alike.conjuncts {es fs : List Expr} (h : Alike es fs) : Alike (conjuncts es) (conjuncts fs) :=
  (h.dissolveAnd.filter fun _ _ hde => congrArg Bool.not (isConst_congr true hde)).distinct

theorem Alike.disjuncts {es fs : List Expr} (h : Alike es fs) : Alike (disjuncts es) (disjuncts fs) :=
  (h.dissolveOr.filter fun _ _ hde => congrArg Bool.not (isConst_congr false hde)).distinct

/-! ## Choices -/

theorem any_choices {α : Type} (p : α → Bool) (ls : List (List α)) :
    (choices ls).any (fun c => c.all p) = ls.all fun l => l.any p := by
  induction ls with
  | nil => rfl
  | cons l ls ih =>
    have hl : ∀ a, ((choices ls).map (a :: ·)).any (fun c => c.all p) = (p a && ls.all fun l => l.any p) := by
      intro a
      rw [List.any_map, ← ih]
      cases h : p a <;> simp [Function.comp_def, h]
    rw [choices, List.any_flatMap, List.all_cons]
    simp only [hl]
    cases ls.all fun l => l.any p <;> simp

theorem mem_of_mem_choice {α : Type} {ls : List (List α)} {c : List α} (hc : c ∈ choices ls) {a : α} (ha : a ∈ c) :
    ∃ l ∈ ls, a ∈ l := by
  induction ls generalizing c with
  | nil =>
    rw [choices, List.mem_singleton] at hc
    rw [hc] at ha
    cases ha
  | cons l ls ih =>
    simp only [choices, List.mem_flatMap, List.mem_map] at hc
    obtain ⟨b, hb, more, hm, rfl⟩ := hc
    rcases List.mem_cons.mp ha with rfl | ha
    · exact ⟨l, List.mem_cons_self, hb⟩
    · obtain ⟨k, hk, hak⟩ := ih hm ha
      exact ⟨k, List.mem_cons_of_mem _ hk, hak⟩

/-- The operands as a multiset, each known up to `same`. -/
def bag (es : List Expr) : Multiset (Expr → Bool) := ↑(es.map same)

theorem bag_eq_iff {es fs : List Expr} : bag es = bag fs ↔ Alike es fs := Multiset.coe_eq_coe

/-- The choices are, in some order, the sections of the multisets that are chosen from. -/
theorem map_bag_choices (ls : List (List Expr)) :
    (((choices ls).map bag : List _) : Multiset (Multiset (Expr → Bool))) =
      Multiset.Sections ((ls.map bag : List _) : Multiset (Multiset (Expr → Bool))) := by
  induction ls with
  | nil => rfl
  | cons l ls ih =>
    have hc : ∀ e, (((choices ls).map (e :: ·)).map bag : List (Multiset (Expr → Bool))) =
        ((choices ls).map bag).map (Multiset.cons (same e)) := by
      intro e
      rw [List.map_map, List.map_map]
      rfl
    rw [List.map_cons, ← Multiset.cons_coe, Multiset.sections_cons, ← ih, choices, List.map_flatMap]
    simp only [hc, bag, Multiset.map_coe, Multiset.coe_bind, List.flatMap_map]

theorem perm_choices {ls ks : List (List Expr)} (h : (ls.map bag).Perm (ks.map bag)) :
    ((choices ls).map bag).Perm ((choices ks).map bag) := by
  rw [← Multiset.coe_eq_coe, map_bag_choices, map_bag_choices, Multiset.coe_eq_coe.mpr h]

/-! ## Counting choices -/

theorem foldl_min_eq (bound n : Nat) (es : List Expr) :
    es.foldl (fun n e => min (n * e.operands.length) bound) (min n bound) =
      min (n * (es.map fun e => e.operands.length).prod) bound := by
  induction es generalizing n with
  | nil => simp
  | cons e es ih =>
    have hmul : min (min n bound * e.operands.length) bound = min (n * e.operands.length) bound := by
      rcases Nat.le_total n bound with h | h
      · rw [Nat.min_eq_left h]
      · rw [Nat.min_eq_right h]
        rcases Nat.eq_zero_or_pos e.operands.length with h0 | h0
        · rw [h0, Nat.mul_zero, Nat.mul_zero]
        · rw [Nat.min_eq_right (Nat.le_mul_of_pos_right bound h0),
            Nat.min_eq_right (Nat.le_trans h (Nat.le_mul_of_pos_right n h0))]
    rw [List.foldl_cons, hmul, ih, List.map_cons, List.prod_cons, Nat.mul_assoc]

theorem combinations_eq (ors : List Expr) :
    combinations ors = min (ors.map fun e => e.operands.length).prod (UInt64.size - 1) := by
  have h := foldl_min_eq (UInt64.size - 1) 1 ors
  rwa [Nat.one_mul] at h

/-- The limit is far below the greatest word, so that counting in words decides as counting without bound does. -/
theorem combinationLimit_le_iff (ors : List Expr) :
    combinationLimit ≤ combinations ors ↔ combinationLimit ≤ (ors.map fun e => e.operands.length).prod := by
  have h : combinationLimit ≤ UInt64.size - 1 := by decide
  rw [combinations_eq]
  omega

theorem Alike.combinations_eq {es fs : List Expr} (h : Alike es fs) : combinations es = combinations fs := by
  rw [Expr.combinations_eq, Expr.combinations_eq,
    (h.map_perm (f := fun e => e.operands.length) fun _ _ => length_operands_congr).prod_eq]

end Triage.Expr
