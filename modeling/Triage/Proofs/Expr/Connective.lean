/-
  Triage.Proofs.Expr.Connective — what conjunction, disjunction and `ofEntries` do, once for all proofs about them.

  Without expressions per repository among the operands each connective is one equation: a constant, or its operands
  collapsed (`disjunction_eq`, `conjunction_eq`). With them it is the same connective in each repository
  (`bubbled_found`). `connective_induction` follows their recursion: into the repositories, and into the branches of
  a conjunction that is multiplied out.
-/

import Triage.Proofs.Expr.Operands
import Triage.Proofs.Expr.PerRepo

namespace Triage.Expr

/-! ## Entries -/

/-- The entries that `ofEntries` keeps. -/
def keptEntries (entries : List (Repository × Expr)) (fallback : Expr) : List (Repository × Expr) :=
  (inherit (PerRepo.sort (entries.map fun (r, e) => (r, e.inRepo r))) fallback).filter fun (_, e) =>
    !isSame e fallback.elsewhere

theorem ofEntries_eq (entries : List (Repository × Expr)) (fallback : Expr) :
    ofEntries entries fallback = if keptEntries entries fallback = [] then fallback.elsewhere
      else .perRepo (keptEntries entries fallback) fallback.elsewhere := by
  unfold ofEntries
  dsimp only
  split
  · rename_i hk
    rw [if_pos (show keptEntries entries fallback = [] from hk)]
  · rename_i hk
    rw [if_neg (show ¬ keptEntries entries fallback = [] from hk)]
    rfl

/-- An entry that is dropped is the same as what is found instead. -/
theorem same_found_kept (entries : List (Repository × Expr)) (fallback : Expr) (r : Repository) :
    same (((keptEntries entries fallback).lookup r).getD fallback.elsewhere)
      (((entries.lookup r).getD fallback).inRepo r) = true := by
  have hsorted : (PerRepo.sort (entries.map fun (s, e) => (s, e.inRepo s))).lookup r =
      (entries.lookup r).map (inRepo r) := by
    rw [PerRepo.lookup_sort]
    exact lookup_map (fun s (e : Expr) => e.inRepo s) r entries
  have hfound := lookup_inherit r (PerRepo.sort (entries.map fun (s, e) => (s, e.inRepo s))) fallback
  have hget : ((entries.lookup r).map (inRepo r)).getD (fallback.inRepo r) =
      ((entries.lookup r).getD fallback).inRepo r := by
    cases entries.lookup r <;> rfl
  rw [hsorted, hget] at hfound
  rw [← hfound, keptEntries, PerRepo.lookup_filter (ordered_inherit (PerRepo.ordered_sort _) _)]
  cases (inherit (PerRepo.sort (entries.map fun (s, e) => (s, e.inRepo s))) fallback).lookup r with
  | none => exact same_self _
  | some e =>
    simp only [Option.filter_some, isSame_eq]
    cases h : same e fallback.elsewhere with
    | true =>
      show same fallback.elsewhere e = true
      rw [same_comm]
      exact h
    | false => exact same_self _

theorem mem_keptEntries {entries : List (Repository × Expr)} {fallback : Expr} {p : Repository × Expr}
    (h : p ∈ keptEntries entries fallback) :
    ((∃ e, (p.1, e) ∈ entries ∧ p.2 = e.inRepo p.1) ∨ ∃ more e, fallback = .perRepo more e ∧ p ∈ more) ∧
      same p.2 fallback.elsewhere = false := by
  obtain ⟨hm, hne⟩ := List.mem_filter.mp h
  refine ⟨(mem_inherit hm).imp_left fun hs => ?_, by simpa using hne⟩
  obtain ⟨⟨r, e⟩, he, rfl⟩ := List.mem_map.mp (PerRepo.mem_sort hs)
  exact ⟨e, he, rfl⟩

/-! ## Expressions per repository among the operands -/

/-- A connective of operands in each repository apart. -/
def bubbled (connective : List Expr → Expr) (es : List Expr) : Expr :=
  ofEntries ((repositories es).map fun r => (r, connective (allInRepo r es))) (connective (allElsewhere es))

theorem mem_repositories {r : Repository} {es : List Expr} {entries : List (Repository × Expr)} {fallback : Expr}
    (he : .perRepo entries fallback ∈ es) {e : Expr} (h : entries.lookup r = some e) : r ∈ repositories es := by
  rw [repositories, List.mem_eraseDups, List.mem_flatMap]
  exact ⟨_, he, List.mem_map_of_mem (mem_of_lookup h)⟩

theorem allElsewhere_of_not_mem {r : Repository} {es : List Expr} (h : r ∉ repositories es) :
    allElsewhere es = allInRepo r es := by
  refine List.map_congr_left fun e he => ?_
  cases e with
  | perRepo entries fallback =>
    cases hl : entries.lookup r with
    | none => simp only [elsewhere, inRepo, hl, Option.getD_none]
    | some d => exact absurd (mem_repositories he hl) h
  | const | leaf | not | and | or => rfl

theorem bubbled_found (connective : List Expr → Expr) (es : List Expr) (r : Repository) :
    (((repositories es).map fun s => (s, connective (allInRepo s es))).lookup r).getD (connective (allElsewhere es)) =
      connective (allInRepo r es) := by
  rw [lookup_keys_map (fun s => connective (allInRepo s es))]
  by_cases h : r ∈ repositories es
  · rw [if_pos h, Option.getD_some]
  · rw [if_neg h, Option.getD_none, allElsewhere_of_not_mem h]

theorem not_perRepo_of_any {es : List Expr} (h : es.any isPerRepo = false) {e : Expr} (he : e ∈ es) :
    e.isPerRepo = false := by
  have := List.any_eq_false.mp h e he
  simpa using this

theorem any_isPerRepo_eq_false {es : List Expr} (h : ∀ e ∈ es, e.isPerRepo = false) : es.any isPerRepo = false := by
  rw [List.any_eq_false]
  intro e he
  rw [h e he]
  exact Bool.false_ne_true

theorem allInRepo_of_any {es : List Expr} (h : es.any isPerRepo = false) (r : Repository) : allInRepo r es = es := by
  refine (List.map_congr_left fun e he => ?_).trans (List.map_id es)
  exact inRepo_of_not_perRepo (not_perRepo_of_any h he) r

/-! ## The connectives -/

/-- One operand stands for itself, none for the constant. -/
def collapse (unit : Bool) (connective : List Expr → Expr) : List Expr → Expr
  | [] => .const unit
  | [e] => e
  | es => connective es

theorem collapse_cases {p : Expr → Prop} {unit : Bool} {connective : List Expr → Expr} (es : List Expr)
    (none : es = [] → p (.const unit)) (one : ∀ e, es = [e] → p e) (more : 2 ≤ es.length → p (connective es)) :
    p (collapse unit connective es) := by
  match es with
  | [] => exact none rfl
  | [e] => exact one e rfl
  | _ :: _ :: es => exact more (Nat.le_add_left 2 es.length)

/-- The conjunctions that multiplying out makes of the operands. -/
def branches (cs : List Expr) : List (List Expr) :=
  (choices ((cs.filter isOr).map operands)).map fun choice => cs.filter (fun e => !e.isOr) ++ choice

/-- A conjunction of two operands or more, multiplied out unless that makes too many. -/
def multiply (cs : List Expr) : Expr :=
  if cs.filter isOr = [] ∨ combinationLimit ≤ combinations (cs.filter isOr) then .and cs
  else disjunction ((branches cs).map conjunction)

theorem disjunction_of_perRepo {es : List Expr} (h : es.any isPerRepo = true) :
    disjunction es = bubbled disjunction es := by
  rw [disjunction, dif_pos h]
  rfl

theorem conjunction_of_perRepo {es : List Expr} (h : es.any isPerRepo = true) :
    conjunction es = bubbled conjunction es := by
  rw [conjunction, dif_pos h]
  rfl

theorem disjunction_eq {es : List Expr} (h : es.any isPerRepo = false) :
    disjunction es = if ((dissolveOr es).any (isConst true) || hasComplement (disjuncts es)) = true then .const true
      else collapse false .or (disjuncts es) := by
  rw [disjunction, dif_neg (by rw [h]; exact Bool.false_ne_true)]
  rfl

theorem conjunction_eq {es : List Expr} (h : es.any isPerRepo = false) :
    conjunction es = if ((dissolveAnd es).any (isConst false) || hasComplement (conjuncts es)) = true then .const false
      else collapse true multiply (conjuncts es) := by
  have hm : ∀ cs : List Expr,
      ((choices ((cs.filter isOr).map operands)).attach.map fun ⟨choice, _⟩ =>
        conjunction (cs.filter (fun e => !e.isOr) ++ choice)) = (branches cs).map conjunction := by
    intro cs
    rw [branches, List.map_map]
    exact List.attach_map_val (f := conjunction ∘ fun choice => cs.filter (fun e => !e.isOr) ++ choice)
  rw [conjunction, dif_neg (by rw [h]; exact Bool.false_ne_true)]
  split
  · rfl
  · cases hc : conjuncts es with
    | nil => rfl
    | cons c cs =>
      cases cs with
      | nil => rfl
      | cons d cs =>
        simp only [collapse, multiply, hm]
        by_cases hors : (c :: d :: cs).filter isOr = []
        · rw [dif_pos hors, if_pos (Or.inl hors)]
        · rw [dif_neg hors]
          by_cases hl : combinationLimit ≤ combinations ((c :: d :: cs).filter isOr)
          · rw [if_pos hl, if_pos (Or.inr hl)]
          · rw [if_neg hl, if_neg (not_or.mpr ⟨hors, hl⟩)]

/-- The operands of a connective in one repository, the operands elsewhere and the branches of a conjunction all
    weigh less than the operands. -/
theorem connective_induction {motive : List Expr → Prop}
    (bubbled : ∀ es, es.any isPerRepo = true → (∀ r, motive (allInRepo r es)) → motive (allElsewhere es) → motive es)
    (plain : ∀ es, es.any isPerRepo = false →
      ((conjuncts es).filter isOr ≠ [] → ∀ branch ∈ branches (conjuncts es), motive branch) → motive es)
    (es : List Expr) : motive es := by
  generalize hw : weight es = w
  induction w using Nat.strongRecOn generalizing es with
  | ind w ih =>
    subst hw
    cases h : es.any isPerRepo with
    | true =>
      exact bubbled es h (fun r => ih _ (weight_inRepo_lt r h) _ rfl) (ih _ (weight_elsewhere_lt h) _ rfl)
    | false =>
      refine plain es h fun hors branch hb => ?_
      obtain ⟨choice, hc, rfl⟩ := List.mem_map.mp hb
      exact ih _ (weight_branch_lt hors hc) _ rfl

end Triage.Expr
