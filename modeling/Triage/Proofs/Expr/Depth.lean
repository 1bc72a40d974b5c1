/-
  Triage.Proofs.Expr.Depth — how deep conjunctions go into one another.

  A conjunction that is multiplied out is a disjunction of conjunctions, which could be multiplied out in turn.
  `conjunctionWithin n` is the same computation with room for at most `n` conjunctions inside one another, and what it
  gives is what `conjunction` gives (`eq_conjunction_of_within`). Of normal operands two are enough: the operands of a
  branch are no disjunctions, so a disjunction among its conjuncts came with a conjunction that had too many of them to
  be multiplied out, and all of them are there again (`excessive_conjuncts`).
-/

import Triage.Proofs.Expr.Multiply

namespace Triage.Expr

/-! ## Levels -/

/-- The conjunction of the operands comes to the choices and is multiplied out. -/
structure MultipliesOut (es : List Expr) : Prop where
  whole : es.any isPerRepo = false
  noFalse : (dissolveAnd es).any (isConst false) = false
  unopposed : hasComplement (conjuncts es) = false
  two : 2 ≤ (conjuncts es).length
  disjunctions : (conjuncts es).filter isOr ≠ []
  few : combinations ((conjuncts es).filter isOr) < combinationLimit

/-- `conjunction`, with at most `levels` conjunctions inside one another; `none` if there would be more. -/
def conjunctionWithin : Nat → List Expr → Option Expr
  | 0, _ => none
  | levels + 1, es =>
    if es.any isPerRepo then do
      let entries ← (repositories es).mapM fun r => (conjunctionWithin levels (allInRepo r es)).map (r, ·)
      let fallback ← conjunctionWithin levels (allElsewhere es)
      return ofEntries entries fallback
    else if (dissolveAnd es).any (isConst false) || hasComplement (conjuncts es) then some (.const false)
    else match conjuncts es with
      | [] => some (.const true)
      | [e] => some e
      | cs =>
        if cs.filter isOr = [] ∨ combinationLimit ≤ combinations (cs.filter isOr) then some (.and cs)
        else ((branches cs).mapM (conjunctionWithin levels)).map disjunction

/-! ## Options of a list -/

theorem mapM_eq_some_map {α β : Type} {f : α → Option β} {g : α → β} {as : List α} (h : ∀ a ∈ as, f a = some (g a)) :
    as.mapM f = some (as.map g) := by
  induction as with
  | nil => rfl
  | cons a as ih =>
    obtain ⟨ha, has⟩ := List.forall_mem_cons.mp h
    rw [List.mapM_cons, ha, ih has]
    rfl

theorem eq_map_of_mapM {α β : Type} {f : α → Option β} {g : α → β} (h : ∀ a b, f a = some b → b = g a)
    {as : List α} {bs : List β} (hm : as.mapM f = some bs) : bs = as.map g := by
  induction as generalizing bs with
  | nil =>
    cases hm
    rfl
  | cons a as ih =>
    rw [List.mapM_cons] at hm
    obtain ⟨b, hb, hm⟩ := Option.bind_eq_some_iff.mp hm
    obtain ⟨more, hmore, hbs⟩ := Option.bind_eq_some_iff.mp hm
    cases hbs
    rw [List.map_cons, h a b hb, ih hmore]

/-! ## One level -/

theorem MultipliesOut.conjunction_eq {es : List Expr} (h : MultipliesOut es) :
    conjunction es = disjunction ((branches (conjuncts es)).map conjunction) := by
  have hkept : ¬ ((conjuncts es).filter isOr = [] ∨ combinationLimit ≤ combinations ((conjuncts es).filter isOr)) :=
    not_or.mpr ⟨h.disjunctions, Nat.not_le.mpr h.few⟩
  rw [Expr.conjunction_eq h.whole, h.noFalse, h.unopposed, Bool.or_self, if_neg Bool.false_ne_true,
    collapse_of_two_le h.two, multiply, if_neg hkept]

/-- A conjunction that is multiplied out has room for its branches on the levels below. -/
theorem MultipliesOut.conjunctionWithin_eq {es : List Expr} (h : MultipliesOut es) (levels : Nat) :
    conjunctionWithin (levels + 1) es =
      ((branches (conjuncts es)).mapM (conjunctionWithin levels)).map disjunction := by
  have hkept : ¬ ((conjuncts es).filter isOr = [] ∨ combinationLimit ≤ combinations ((conjuncts es).filter isOr)) :=
    not_or.mpr ⟨h.disjunctions, Nat.not_le.mpr h.few⟩
  rw [conjunctionWithin, h.whole, h.noFalse, h.unopposed, Bool.or_self, if_neg Bool.false_ne_true,
    if_neg Bool.false_ne_true]
  obtain ⟨c, d, cs, hcs⟩ : ∃ c d cs, conjuncts es = c :: d :: cs := by
    have htwo := h.two
    match conjuncts es, htwo with
    | c :: d :: cs, _ => exact ⟨c, d, cs, rfl⟩
  rw [hcs] at hkept ⊢
  exact if_neg hkept

/-- A conjunction that is not multiplied out takes one level. -/
theorem conjunctionWithin_of_not_multipliesOut {es : List Expr} (hr : es.any isPerRepo = false)
    (h : ¬ MultipliesOut es) (levels : Nat) : conjunctionWithin (levels + 1) es = some (conjunction es) := by
  rw [conjunctionWithin, hr, if_neg Bool.false_ne_true, Expr.conjunction_eq hr]
  by_cases hs : ((dissolveAnd es).any (isConst false) || hasComplement (conjuncts es)) = true
  · rw [if_pos hs, if_pos hs]
  · obtain ⟨hfalse, hcomplement⟩ := Bool.or_eq_false_iff.mp (Bool.not_eq_true _ ▸ hs)
    rw [if_neg hs, if_neg hs]
    match hcs : conjuncts es with
    | [] => rfl
    | [e] => rfl
    | c :: d :: cs =>
      have hkept : (c :: d :: cs).filter isOr = [] ∨
          combinationLimit ≤ combinations ((c :: d :: cs).filter isOr) := by
        rw [← hcs]
        by_contra hout
        obtain ⟨hors, hfew⟩ := not_or.mp hout
        exact h ⟨hr, hfalse, hcomplement, by rw [hcs]; exact Nat.le_add_left 2 cs.length, hors, Nat.not_le.mp hfew⟩
      have hmultiply : collapse true multiply (c :: d :: cs) = .and (c :: d :: cs) := if_pos hkept
      rw [hmultiply]
      exact if_pos hkept

/-- Whatever the room, the computation is that of `conjunction`. -/
theorem eq_conjunction_of_within {levels : Nat} {es : List Expr} {e : Expr}
    (h : conjunctionWithin levels es = some e) : e = conjunction es := by
  induction levels generalizing es e with
  | zero => cases h
  | succ levels ih =>
    cases hr : es.any isPerRepo with
    | true =>
      rw [conjunctionWithin, if_pos hr] at h
      obtain ⟨entries, hentries, h⟩ := Option.bind_eq_some_iff.mp h
      obtain ⟨fallback, hfallback, h⟩ := Option.bind_eq_some_iff.mp h
      cases h
      rw [conjunction_of_perRepo hr, bubbled, ih hfallback]
      refine congrArg (ofEntries · _) (eq_map_of_mapM (fun r p hp => ?_) hentries)
      obtain ⟨d, hd, rfl⟩ := Option.map_eq_some_iff.mp hp
      rw [ih hd]
    | false =>
      by_cases hm : MultipliesOut es
      · rw [hm.conjunctionWithin_eq, Option.map_eq_some_iff] at h
        obtain ⟨ds, hds, rfl⟩ := h
        rw [hm.conjunction_eq, eq_map_of_mapM (fun _ _ => ih) hds]
      · rw [conjunctionWithin_of_not_multipliesOut hr hm, Option.some_inj] at h
        exact h.symm

/-! ## Branches -/

/-- What a conjunction comes to that is not multiplied out. -/
inductive Settled : Expr → Prop
  | const (b : Bool) : Settled (.const b)
  | literal {e : Expr} : e.isLiteral = true → Settled e
  | literals {es : List Expr} : (∀ e ∈ es, e.isLiteral = true) → Settled (.and es)
  | excessive {es : List Expr} : es.any isOr = true → combinationLimit ≤ product es → Settled (.and es)

theorem Plain.settled {e : Expr} (h : Plain e) (ho : e.isOr = false) : Settled e := by
  cases h with
  | const b => exact .const b
  | flat h =>
    cases h with
    | leaf l => exact .literal rfl
    | notLeaf l => exact .literal rfl
    | or => cases ho
    | and es _ hf ha hx =>
      cases hany : es.any isOr with
      | true => exact .excessive hany (hx hany)
      | false =>
        refine .literals (List.all_eq_true.mp ?_)
        rw [all_isLiteral_eq hf ha, hany, Bool.not_false]

/-- Literals and conjunctions put together are not multiplied out. -/
theorem not_multipliesOut_of_flat {es : List Expr} (h : ∀ e ∈ es, Flat e ∧ e.isOr = false) : ¬ MultipliesOut es := by
  intro hm
  rcases (excessive_conjuncts h).kept with hnil | hmany
  · exact hm.disjunctions hnil
  · exact Nat.not_le.mpr hm.few hmany

/-- Of normal forms without repositories, the conjunctions that multiplying out makes are constants, literals,
    conjunctions of literals, or conjunctions with too many disjunctions among their operands. None is a disjunction
    and none is multiplied out itself, so two levels of conjunctions are enough for the whole. -/
theorem conjunction_within_two_levels {es : List Expr}
    (hes : ∀ e ∈ es, e.isPerRepo = false ∧ ∃ d : Expr, d.normalize = e) :
    (MultipliesOut es → ∀ branch ∈ branches (conjuncts es),
      Settled (conjunction branch) ∧ (conjunction branch).isOr = false ∧ ¬ MultipliesOut branch) ∧
    conjunctionWithin 2 es = some (conjunction es) := by
  have hplain : ∀ e ∈ es, Plain e := by
    refine plain_of_any (fun e he => ?_) (any_isPerRepo_eq_false fun e he => (hes e he).1)
    obtain ⟨d, rfl⟩ := (hes e he).2
    exact canonical_normalize d
  have hbranch : MultipliesOut es → ∀ branch ∈ branches (conjuncts es), ∀ e ∈ branch, Flat e ∧ e.isOr = false := by
    intro hm branch hb e he
    have hflat : ∀ c ∈ conjuncts es, Flat c := fun c hc => (flat_of_mem_conjuncts hplain hm.noFalse hc).1
    exact ⟨flat_of_mem_branch hflat hb he, isOr_of_mem_branch hflat hb he⟩
  refine ⟨fun hm branch hb => ?_, ?_⟩
  · have hor := isOr_conjunction_eq_false (hbranch hm branch hb)
    have hsettled := (plain_conjunction fun e he => .flat (hbranch hm branch hb e he).1).settled hor
    exact ⟨hsettled, hor, not_multipliesOut_of_flat (hbranch hm branch hb)⟩
  · by_cases hm : MultipliesOut es
    · have hlevel : ∀ branch ∈ branches (conjuncts es), conjunctionWithin 1 branch = some (conjunction branch) := by
        intro branch hb
        have hr : branch.any isPerRepo = false :=
          any_isPerRepo_of_plain fun e he => .flat (hbranch hm branch hb e he).1
        exact conjunctionWithin_of_not_multipliesOut hr (not_multipliesOut_of_flat (hbranch hm branch hb)) 0
      rw [hm.conjunctionWithin_eq, mapM_eq_some_map hlevel, Option.map_some, hm.conjunction_eq]
    · exact conjunctionWithin_of_not_multipliesOut (any_isPerRepo_of_plain hplain) hm 1

/-- A disjunct that was too large to be multiplied out meets another operand: it is still too large in its branch. One
    level is not enough. -/
theorem conjunction_within_two_levels_excessive :
    let label (n : Nat) : Expr := .leaf (.label (String.ofList (List.replicate n 'x')))
    let opened : Expr := .leaf (.isOpen true)
    let free : Expr := .leaf (.assignee none)
    let large : Expr := .and [.or ((List.range 10).map label), .or ((List.range 10).map fun n => .not (label n))]
    let es := [.or [large, opened], free]
    (∀ e ∈ es, e.isPerRepo = false ∧ ∃ d : Expr, d.normalize = e) ∧ MultipliesOut es ∧
      [free, large] ∈ branches (conjuncts es) ∧ Settled (conjunction [free, large]) ∧ ¬ MultipliesOut [free, large] ∧
      conjunctionWithin 1 es = none ∧ conjunctionWithin 2 es = some (conjunction es) := by
  intro label opened free large es
  obtain ⟨hfactors, hchoice, hproper⟩ : Proper large.operands ∧ Proper [large, opened] ∧ Proper es := by
    simp only [← isProper_iff]
    decide +kernel
  have hlarge : Flat large := by
    have hors : ∀ e ∈ large.operands, e.isDisjunction = true ∧ e.isAnd = false ∧ ∀ b, e.isConst b = false := by
      decide +kernel
    refine .and _ hfactors (fun e he => ?_) (fun e he => (hors e he).2.1) fun _ => by decide
    exact (plain_of_isDisjunction (hors e he).1).flat_of_not_const (hors e he).2.2
  have hdisjuncts : ∀ e ∈ [large, opened], Flat e ∧ e.isOr = false :=
    List.forall_mem_cons.mpr ⟨⟨hlarge, rfl⟩, List.forall_mem_singleton.mpr ⟨.leaf _, rfl⟩⟩
  have hflat : ∀ e ∈ es, Flat e ∧ e.isAnd = false := by
    refine List.forall_mem_cons.mpr ⟨⟨?_, rfl⟩, List.forall_mem_singleton.mpr ⟨.leaf _, rfl⟩⟩
    exact .or _ hchoice (fun e he => (hdisjuncts e he).1) fun e he => (hdisjuncts e he).2
  have hdissolve : dissolveAnd es = es := dissolveAnd_eq_self fun e he => (hflat e he).2
  have hconjuncts : conjuncts es = es :=
    conjuncts_eq_self hproper (fun e he => (hflat e he).1) fun e he => (hflat e he).2
  have hnormal : ∀ e ∈ es, e.isPerRepo = false ∧ ∃ d : Expr, d.normalize = e := fun e he =>
    ⟨(Plain.flat (hflat e he).1).not_perRepo, e, (hflat e he).1.normalize_eq_self⟩
  have hmultiplies : MultipliesOut es := by
    refine ⟨rfl, ?_, ?_, ?_, ?_, ?_⟩
    · rw [hdissolve]
      rfl
    · rw [hconjuncts]
      exact (proper_iff.mp hproper).2.2
    · rw [hconjuncts]
      exact hproper.two
    · rw [hconjuncts]
      exact List.cons_ne_nil _ _
    · rw [hconjuncts]
      decide
  have hbranch : [free, large] ∈ branches (conjuncts es) := by
    rw [hconjuncts]
    exact List.mem_cons_self
  obtain ⟨hbranches, hwithin⟩ := conjunction_within_two_levels hnormal
  obtain ⟨hsettled, -, hnot⟩ := hbranches hmultiplies _ hbranch
  refine ⟨hnormal, hmultiplies, hbranch, hsettled, hnot, ?_, hwithin⟩
  rw [hmultiplies.conjunctionWithin_eq, hconjuncts]
  rfl

end Triage.Expr
