/-
  Triage.Proofs.Expr.Specialize — normalizing for all repositories at once is normalizing for each.

  `specialize r` replaces every expression per repository, however deep, by what it stands for in `r`. The normal form
  of an expression stands in `r` for the normal form of the specialized expression (`normalize_inRepo`), up to the
  order of operands: an entry that is dropped is only the same as the fallback.

  For that the connectives have to respect `same` (`same_disjunction`, `same_conjunction`, `same_negate`). The branches
  of a conjunction that is multiplied out are the same up to order, and as many, so that both conjunctions are
  multiplied out or neither is.
-/

import Triage.Proofs.Expr.Canonical

namespace Triage.Expr

mutual

/-- The expression in one repository, with nothing left that depends on the repository. -/
def specialize (r : Repository) : Expr → Expr
  | .const b => .const b
  | .leaf l => .leaf l
  | .not e => .not (specialize r e)
  | .and es => .and (specializeAll r es)
  | .or es => .or (specializeAll r es)
  | .perRepo entries fallback =>
    match specializeEntry r entries with
    | some e => e
    | none => specialize r fallback

def specializeAll (r : Repository) : List Expr → List Expr
  | [] => []
  | e :: es => specialize r e :: specializeAll r es

def specializeEntry (r : Repository) : List (Repository × Expr) → Option Expr
  | [] => none
  | (s, e) :: es => if r = s then some (specialize r e) else specializeEntry r es

end

theorem specializeAll_eq_map (r : Repository) (es : List Expr) : specializeAll r es = es.map (specialize r) := by
  induction es with
  | nil => rfl
  | cons e es ih => rw [specializeAll, ih]; rfl

theorem specializeEntry_eq_lookup (r : Repository) (entries : List (Repository × Expr)) :
    specializeEntry r entries = (entries.lookup r).map (specialize r) := by
  induction entries with
  | nil => rfl
  | cons p entries ih =>
    obtain ⟨s, e⟩ := p
    rw [specializeEntry, lookup_cons_eq_ite, ih]
    split <;> rfl

theorem specialize_perRepo (r : Repository) (entries : List (Repository × Expr)) (fallback : Expr) :
    (perRepo entries fallback).specialize r = ((entries.lookup r).getD fallback).specialize r := by
  rw [specialize, specializeEntry_eq_lookup]
  cases entries.lookup r <;> rfl

/-! ## Connectives of operands that are alike -/

theorem isPerRepo_congr {d e : Expr} (h : same d e = true) : isPerRepo d = isPerRepo e := by
  cases d <;> cases e <;> first | rfl | simp only [same, Bool.false_eq_true] at h

theorem same_collapse {unit : Bool} {connective : List Expr → Expr} {es fs : List Expr} (h : Alike es fs)
    (hc : same (connective es) (connective fs) = true) :
    same (collapse unit connective es) (collapse unit connective fs) = true := by
  have hl := h.length_eq
  match es, fs with
  | [], [] => exact same_self _
  | [e], [f] => exact Alike.singleton.mp h
  | _ :: _ :: _, _ :: _ :: _ => exact hc
  | [], _ :: _ => cases hl
  | _ :: _, [] => cases hl
  | [_], _ :: _ :: _ => simp at hl
  | _ :: _ :: _, [_] => simp at hl

theorem same_disjunction {es fs : List Expr} (h : Alike es fs) (hr : es.any isPerRepo = false) :
    same (disjunction es) (disjunction fs) = true := by
  have hr' : fs.any isPerRepo = false := by rw [← hr, h.any_eq fun _ _ => isPerRepo_congr]
  have hc : ((dissolveOr es).any (isConst true) || hasComplement (disjuncts es)) =
      ((dissolveOr fs).any (isConst true) || hasComplement (disjuncts fs)) := by
    rw [h.dissolveOr.any_eq fun _ _ => isConst_congr true, h.disjuncts.hasComplement_eq]
  rw [disjunction_eq hr, disjunction_eq hr', hc]
  split
  · exact same_self _
  · exact same_collapse h.disjuncts (same_or_iff.mpr h.disjuncts)

theorem perm_branches {cs ds : List Expr} (h : Alike cs ds) :
    ((branches cs).map bag).Perm ((branches ds).map bag) := by
  have hothers : bag (cs.filter fun e => !e.isOr) = bag (ds.filter fun e => !e.isOr) :=
    bag_eq_iff.mpr (h.filter fun _ _ hde => congrArg Bool.not (isOr_congr hde))
  have hors : (((cs.filter isOr).map operands).map bag).Perm (((ds.filter isOr).map operands).map bag) := by
    rw [List.map_map, List.map_map]
    exact (h.filter fun _ _ => isOr_congr).map_perm fun _ _ hde => bag_eq_iff.mpr (operands_congr hde)
  have hbag : ∀ cs : List Expr, (branches cs).map bag =
      ((choices ((cs.filter isOr).map operands)).map bag).map (bag (cs.filter fun e => !e.isOr) + ·) := by
    intro cs
    rw [branches, List.map_map, List.map_map]
    refine List.map_congr_left fun choice _ => ?_
    simp only [Function.comp_apply, bag, List.map_append, Multiset.coe_add]
  rw [hbag, hbag, hothers]
  exact (perm_choices hors).map _

theorem same_multiply {cs ds : List Expr} (h : Alike cs ds) (hc : ∀ c ∈ cs, Flat c) (hd : ∀ d ∈ ds, Flat d)
    (ih : cs.filter isOr ≠ [] → ∀ b ∈ branches cs, ∀ b' : List Expr, (∀ e ∈ b', Plain e) → Alike b b' →
      same (conjunction b) (conjunction b') = true) :
    same (multiply cs) (multiply ds) = true := by
  have hors : Alike (cs.filter isOr) (ds.filter isOr) := h.filter fun _ _ => isOr_congr
  have hnil : cs.filter isOr = [] ↔ ds.filter isOr = [] := by
    rw [← List.length_eq_zero_iff, ← List.length_eq_zero_iff, hors.length_eq]
  rw [multiply, multiply, ← hors.combinations_eq]
  by_cases hk : cs.filter isOr = [] ∨ combinationLimit ≤ combinations (cs.filter isOr)
  · rw [if_pos hk, if_pos (hk.imp_left hnil.mp)]
    exact same_and_iff.mpr h
  · rw [if_neg hk, if_neg fun hk' => hk (hk'.imp_left hnil.mpr)]
    refine same_disjunction ?_ (any_isPerRepo_of_plain fun e he => ?_)
    · unfold Alike
      rw [List.map_map, List.map_map]
      refine map_perm_of_map_perm (perm_branches h) fun b hb b' hb' hbb => same_iff.mp ?_
      exact ih (not_or.mp hk).1 b hb b' (fun e he => .flat (flat_of_mem_branch hd hb' he)) (bag_eq_iff.mp hbb)
    · obtain ⟨b, hb, rfl⟩ := List.mem_map.mp he
      exact plain_conjunction fun e he => .flat (flat_of_mem_branch hc hb he)

theorem same_conjunction {es fs : List Expr} (hes : ∀ e ∈ es, Plain e) (hfs : ∀ f ∈ fs, Plain f) (h : Alike es fs) :
    same (conjunction es) (conjunction fs) = true := by
  induction es using connective_induction generalizing fs with
  | bubbled es hr =>
    rw [any_isPerRepo_of_plain hes] at hr
    cases hr
  | plain es hr ih =>
    have hc : ((dissolveAnd es).any (isConst false) || hasComplement (conjuncts es)) =
        ((dissolveAnd fs).any (isConst false) || hasComplement (conjuncts fs)) := by
      rw [h.dissolveAnd.any_eq fun _ _ => isConst_congr false, h.conjuncts.hasComplement_eq]
    rw [conjunction_eq hr, conjunction_eq (any_isPerRepo_of_plain hfs), hc]
    split
    · exact same_self _
    · rename_i hs
      have hf := (Bool.or_eq_false_iff.mp (Bool.not_eq_true _ ▸ hs)).1
      have he := (Bool.or_eq_false_iff.mp (hc ▸ Bool.not_eq_true _ ▸ hs)).1
      have hflat : ∀ c ∈ conjuncts es, Flat c := fun c hm => (flat_of_mem_conjuncts hes he hm).1
      refine same_collapse h.conjuncts (same_multiply h.conjuncts hflat ?_ fun hors b hb b' hb' hbb => ?_)
      · exact fun d hm => (flat_of_mem_conjuncts hfs hf hm).1
      · exact ih hors b hb (fun e he => .flat (flat_of_mem_branch hflat hb he)) hb' hbb

theorem same_negate {d e : Expr} (hd : Plain d) (he : Plain e) (h : same d e = true) :
    same d.negate e.negate = true := by
  have hop : ∀ {e : Expr}, Plain e → ∀ c ∈ e.operands, Plain c := by
    intro e he c hc
    cases he with
    | const b => cases hc
    | flat he => exact .flat (he.operand hc)
  have hneg : ∀ {es : List Expr}, (∀ e ∈ es, Plain e) → ∀ e ∈ es.map negate, Plain e := by
    intro es hes e he
    obtain ⟨c, hc, rfl⟩ := List.mem_map.mp he
    exact plain_negate (hes c hc)
  induction d using Expr.induction generalizing e with
  | const b =>
    cases e <;> simp only [same, Bool.false_eq_true, beq_iff_eq] at h
    rw [h]
    exact same_self _
  | leaf l =>
    cases e <;> simp only [same, Bool.false_eq_true, beq_iff_eq] at h
    rw [h]
    exact same_self _
  | not d =>
    cases e <;> simp only [same, Bool.false_eq_true] at h
    exact h
  | and ds ih =>
    cases e <;> simp only [same, Bool.false_eq_true] at h
    rename_i es
    rw [negate, negate, negateAll_eq_map, negateAll_eq_map]
    refine same_disjunction ?_ (any_isPerRepo_of_plain (hneg (hop hd)))
    exact (sameOperands_iff.mp h).map fun c hc c' hc' => ih c hc (hop hd c hc) (hop he c' hc')
  | or ds ih =>
    cases e <;> simp only [same, Bool.false_eq_true] at h
    rename_i es
    rw [negate, negate, negateAll_eq_map, negateAll_eq_map]
    refine same_conjunction (hneg (hop hd)) (hneg (hop he)) ?_
    exact (sameOperands_iff.mp h).map fun c hc c' hc' => ih c hc (hop hd c hc) (hop he c' hc')
  | perRepo entries fallback => cases hd.not_perRepo

/-! ## Connectives in one repository -/

theorem same_ofEntries_inRepo (entries : List (Repository × Expr)) {fallback : Expr} (hf : Canonical fallback)
    (r : Repository) :
    same ((ofEntries entries fallback).inRepo r) (((entries.lookup r).getD fallback).inRepo r) = true := by
  have hs := same_found_kept entries fallback r
  rw [ofEntries_eq]
  split
  · rename_i hk
    rw [hk] at hs
    rwa [inRepo_of_not_perRepo hf.plain_elsewhere.not_perRepo]
  · exact hs

theorem same_bubbled_inRepo {connective : List Expr → Expr} {es : List Expr}
    (hc : ∀ ds : List Expr, (∀ d ∈ ds, Plain d) → Plain (connective ds)) (h : ∀ e ∈ es, Canonical e) (r : Repository) :
    same ((bubbled connective es).inRepo r) (connective (allInRepo r es)) = true := by
  have hall : ∀ f : Expr → Expr, (∀ e ∈ es, Plain (f e)) → Plain (connective (es.map f)) := by
    intro f hf
    refine hc _ fun d hd => ?_
    obtain ⟨e, he, rfl⟩ := List.mem_map.mp hd
    exact hf e he
  have hp : Plain (connective (allInRepo r es)) := hall (inRepo r) fun e he => (h e he).plain_inRepo r
  have hf : Plain (connective (allElsewhere es)) := hall elsewhere fun e he => (h e he).plain_elsewhere
  have hs := same_ofEntries_inRepo ((repositories es).map fun s => (s, connective (allInRepo s es))) (.plain hf) r
  rwa [bubbled_found, inRepo_of_not_perRepo hp.not_perRepo] at hs

theorem same_disjunction_inRepo {es : List Expr} (h : ∀ e ∈ es, Canonical e) (r : Repository) :
    same ((disjunction es).inRepo r) (disjunction (allInRepo r es)) = true := by
  cases hr : es.any isPerRepo with
  | true =>
    rw [disjunction_of_perRepo hr]
    exact same_bubbled_inRepo (fun _ => plain_disjunction) h r
  | false =>
    rw [allInRepo_of_any hr, inRepo_of_not_perRepo (plain_disjunction (plain_of_any h hr)).not_perRepo]
    exact same_self _

theorem same_conjunction_inRepo {es : List Expr} (h : ∀ e ∈ es, Canonical e) (r : Repository) :
    same ((conjunction es).inRepo r) (conjunction (allInRepo r es)) = true := by
  cases hr : es.any isPerRepo with
  | true =>
    rw [conjunction_of_perRepo hr]
    exact same_bubbled_inRepo (fun _ => plain_conjunction) h r
  | false =>
    rw [allInRepo_of_any hr, inRepo_of_not_perRepo (plain_conjunction (plain_of_any h hr)).not_perRepo]
    exact same_self _

theorem same_negate_inRepo {e : Expr} (h : Canonical e) (r : Repository) :
    same (e.negate.inRepo r) (e.inRepo r).negate = true := by
  cases h with
  | plain h =>
    rw [inRepo_of_not_perRepo h.not_perRepo, inRepo_of_not_perRepo (plain_negate h).not_perRepo]
    exact same_self _
  | perRepo entries fallback _ he hf =>
    have hs := same_ofEntries_inRepo (negateEntries entries) (.plain (plain_negate hf)) r
    have hget : ((entries.lookup r).map negate).getD fallback.negate = ((entries.lookup r).getD fallback).negate := by
      cases entries.lookup r <;> rfl
    have hp : Plain ((entries.lookup r).getD fallback) := forall_found (fun p hp => (he p hp).1) hf r
    rw [negateEntries_eq_map, lookup_map fun _ => negate, hget,
      inRepo_of_not_perRepo (plain_negate hp).not_perRepo] at hs
    rw [negate, negateEntries_eq_map]
    exact hs

/-! ## Normal forms -/

theorem plain_normalize_specialize (e : Expr) (r : Repository) : Plain (e.specialize r).normalize := by
  induction e using Expr.induction with
  | const b => exact .const b
  | leaf l => exact .flat (.leaf l)
  | not e ih => exact plain_negate ih
  | and es ih =>
    rw [specialize, specializeAll_eq_map, normalize, normalizeAll_eq_map]
    refine plain_conjunction fun d hd => ?_
    simp only [List.mem_map, exists_exists_and_eq_and] at hd
    obtain ⟨e, he, rfl⟩ := hd
    exact ih e he
  | or es ih =>
    rw [specialize, specializeAll_eq_map, normalize, normalizeAll_eq_map]
    refine plain_disjunction fun d hd => ?_
    simp only [List.mem_map, exists_exists_and_eq_and] at hd
    obtain ⟨e, he, rfl⟩ := hd
    exact ih e he
  | perRepo entries fallback ih ihf =>
    rw [specialize_perRepo]
    exact forall_found (p := fun e => Plain (normalize (specialize r e))) ih ihf r

theorem same_normalize_inRepo (e : Expr) (r : Repository) :
    same (e.normalize.inRepo r) (e.specialize r).normalize = true := by
  -- The operands of a connective: canonical, and in `r` the same one by one as the specialized operands.
  have hcan : ∀ es : List Expr, ∀ d ∈ es.map normalize, Canonical d := by
    intro es d hd
    obtain ⟨e, -, rfl⟩ := List.mem_map.mp hd
    exact canonical_normalize e
  have hin : ∀ es : List Expr, ∀ d ∈ allInRepo r (es.map normalize), Plain d := by
    intro es d hd
    obtain ⟨c, hc, rfl⟩ := List.mem_map.mp hd
    exact (hcan es c hc).plain_inRepo r
  have hspec : ∀ es : List Expr, ∀ d ∈ (es.map (specialize r)).map normalize, Plain d := by
    intro es d hd
    simp only [List.mem_map, exists_exists_and_eq_and] at hd
    obtain ⟨e, -, rfl⟩ := hd
    exact plain_normalize_specialize e r
  have halike : ∀ es : List Expr, (∀ e ∈ es, same (e.normalize.inRepo r) (e.specialize r).normalize = true) →
      Alike (allInRepo r (es.map normalize)) ((es.map (specialize r)).map normalize) := by
    intro es ih
    rw [allInRepo, List.map_map, List.map_map]
    exact .of_map ih
  induction e using Expr.induction with
  | const b => exact same_self _
  | leaf l => exact same_self _
  | not e ih =>
    have hn := same_negate ((canonical_normalize e).plain_inRepo r) (plain_normalize_specialize e r) ih
    exact same_trans (same_negate_inRepo (canonical_normalize e) r) hn
  | and es ih =>
    rw [specialize, specializeAll_eq_map, normalize, normalize, normalizeAll_eq_map, normalizeAll_eq_map]
    exact same_trans (same_conjunction_inRepo (hcan es) r) (same_conjunction (hin es) (hspec es) (halike es ih))
  | or es ih =>
    rw [specialize, specializeAll_eq_map, normalize, normalize, normalizeAll_eq_map, normalizeAll_eq_map]
    exact same_trans (same_disjunction_inRepo (hcan es) r)
      (same_disjunction (halike es ih) (any_isPerRepo_of_plain (hin es)))
  | perRepo entries fallback ih ihf =>
    have hget : ((entries.lookup r).map normalize).getD fallback.normalize =
        ((entries.lookup r).getD fallback).normalize := by
      cases entries.lookup r <;> rfl
    have hs := same_ofEntries_inRepo (normalizeEntries entries) (canonical_normalize fallback) r
    rw [normalizeEntries_eq_map, lookup_map fun _ => normalize, hget] at hs
    rw [specialize_perRepo, normalize, normalizeEntries_eq_map]
    refine same_trans hs ?_
    exact forall_found (p := fun e => same (inRepo r (normalize e)) (normalize (specialize r e)) = true) ih ihf r

/-- What the normal form stands for in a repository equals the normal form of what the expression stands for there. -/
theorem normalize_inRepo_isSame (e : Expr) (r : Repository) :
    isSame (e.normalize.inRepo r) (e.specialize r).normalize = true := by
  rw [isSame_eq]
  exact same_normalize_inRepo e r

end Triage.Expr
