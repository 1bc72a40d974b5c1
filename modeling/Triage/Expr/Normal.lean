/-
  Triage.Expr.Normal — the normal form of an expression.

  A normal expression is a disjunction of conjunctions of literals, per repository at the root where repositories
  differ. `conjunction` and `disjunction` combine operands that are normal: expressions per repository are moved to
  the root, nested connectives of the same kind are dissolved, constants are absorbed, repeated operands are dropped
  and an operand beside its negation settles the whole. A conjunction of disjunctions is multiplied out, unless that
  makes `combinationLimit` conjunctions or more: then it stays as it is.
-/

import Triage.Expr.Basic
import Triage.Expr.Same

namespace Triage.Expr

/-- So many conjunctions are not made by multiplying out. -/
def combinationLimit : Nat := 100

/-! ## Operand lists -/

def dissolveAnd (es : List Expr) : List Expr := es.flatMap fun
  | .and ds => ds
  | e => [e]

def dissolveOr (es : List Expr) : List Expr := es.flatMap fun
  | .or ds => ds
  | e => [e]

/-- The operands without those that are the same as one in `seen` or an earlier one. -/
def distinctFrom : List Expr → List Expr → List Expr
  | _, [] => []
  | seen, e :: es => if e.among seen then distinctFrom seen es else e :: distinctFrom (seen ++ [e]) es

def distinct (es : List Expr) : List Expr := distinctFrom [] es

/-- Whether some operand stands beside its negation. -/
def hasComplement (es : List Expr) : Bool := es.any fun
  | .not e => e.among es
  | _ => false

def isOr : Expr → Bool
  | .or _ => true
  | _ => false

/-- One element of each list, in all ways; the choice from the last list changes first. -/
def choices {α : Type} : List (List α) → List (List α)
  | [] => [[]]
  | as :: rest => as.flatMap fun a => (choices rest).map (a :: ·)

/-- How many choices there are, counted in a 64-bit word that stops at its greatest value. -/
def combinations (ors : List Expr) : Nat := ors.foldl (fun n e => min (n * e.operands.length) (UInt64.size - 1)) 1

/-! ## Expressions per repository -/

/-- The repositories with an entry in one of the operands. -/
def repositories (es : List Expr) : List Repository :=
  (es.flatMap fun
    | .perRepo entries _ => entries.map Prod.fst
    | _ => []).eraseDups

/-- The entries with those of a nested fallback, where they do not have the repository themselves. -/
def inherit (entries : List (Repository × Expr)) : Expr → List (Repository × Expr)
  | .perRepo more _ => more.foldl (fun es (r, e) => if (es.lookup r).isSome then es else PerRepo.insert r e es) entries
  | _ => entries

/-- What the operands stand for in a repository. -/
def allInRepo (r : Repository) (es : List Expr) : List Expr := es.map (inRepo r)

/-- What the operands stand for in a repository that has an entry in none of them. -/
def allElsewhere (es : List Expr) : List Expr := es.map elsewhere

/-- An expression per repository from normal expressions. Nested ones are resolved; an entry that is the same as the
    fallback is dropped, and without entries only the fallback is left. -/
def ofEntries (entries : List (Repository × Expr)) (fallback : Expr) : Expr :=
  let resolved := PerRepo.sort (entries.map fun (r, e) => (r, e.inRepo r))
  match (inherit resolved fallback).filter fun (_, e) => !isSame e fallback.elsewhere with
  | [] => fallback.elsewhere
  | kept => .perRepo kept fallback.elsewhere

/-! ## Weights -/

/-- The size of a list of operands; what `conjunction` and `disjunction` recurse on. -/
noncomputable def weight : List Expr → Nat
  | [] => 0
  | e :: es => sizeOf e + weight es

@[simp] theorem weight_nil : weight [] = 0 := rfl

@[simp] theorem weight_cons (e : Expr) (es : List Expr) : weight (e :: es) = sizeOf e + weight es := rfl

@[simp] theorem weight_append (es fs : List Expr) : weight (es ++ fs) = weight es + weight fs := by
  induction es with
  | nil => simp
  | cons e es ih => simp only [List.cons_append, weight_cons, ih]; omega

theorem weight_lt_sizeOf (es : List Expr) : weight es < sizeOf es := by
  induction es with
  | nil => simp
  | cons e es ih => simp only [weight_cons, List.cons.sizeOf_spec]; omega

theorem sizeOf_lookup_lt {r : Repository} {e : Expr} {entries : List (Repository × Expr)}
    (h : entries.lookup r = some e) : sizeOf e < sizeOf entries := by
  induction entries with
  | nil => cases h
  | cons p es ih =>
    obtain ⟨s, f⟩ := p
    simp only [List.lookup_cons] at h
    simp only [List.cons.sizeOf_spec, Prod.mk.sizeOf_spec]
    split at h
    · cases h; omega
    · have := ih h; omega

theorem sizeOf_inRepo_lt {e : Expr} (r : Repository) (h : e.isPerRepo = true) : sizeOf (e.inRepo r) < sizeOf e := by
  cases e <;> simp only [isPerRepo, Bool.false_eq_true] at h
  rename_i entries fallback
  simp only [inRepo, perRepo.sizeOf_spec]
  cases hl : entries.lookup r with
  | none => simp only [Option.getD_none]; omega
  | some e => have := sizeOf_lookup_lt hl; simp only [Option.getD_some]; omega

theorem sizeOf_elsewhere_lt {e : Expr} (h : e.isPerRepo = true) : sizeOf e.elsewhere < sizeOf e := by
  cases e <;> simp only [isPerRepo, Bool.false_eq_true] at h
  simp only [elsewhere, perRepo.sizeOf_spec]; omega

theorem sizeOf_inRepo_le (e : Expr) (r : Repository) : sizeOf (e.inRepo r) ≤ sizeOf e := by
  by_cases h : e.isPerRepo = true
  · exact Nat.le_of_lt (sizeOf_inRepo_lt r h)
  · cases e <;> simp_all [isPerRepo, inRepo]

theorem sizeOf_elsewhere_le (e : Expr) : sizeOf e.elsewhere ≤ sizeOf e := by
  by_cases h : e.isPerRepo = true
  · exact Nat.le_of_lt (sizeOf_elsewhere_lt h)
  · cases e <;> simp_all [isPerRepo, elsewhere]

theorem weight_map_lt {f : Expr → Expr} (hle : ∀ e, sizeOf (f e) ≤ sizeOf e)
    (hlt : ∀ e, e.isPerRepo = true → sizeOf (f e) < sizeOf e) {es : List Expr} (h : es.any isPerRepo = true) :
    weight (es.map f) < weight es := by
  have hw : ∀ fs : List Expr, weight (fs.map f) ≤ weight fs := by
    intro fs
    induction fs with
    | nil => exact Nat.le_refl _
    | cons e fs ih => have := hle e; simp only [List.map_cons, weight_cons]; omega
  induction es with
  | nil => cases h
  | cons e es ih =>
    simp only [List.map_cons, weight_cons]
    simp only [List.any_cons, Bool.or_eq_true] at h
    rcases h with h | h
    · have := hlt e h; have := hw es; omega
    · have := hle e; have := ih h; omega

theorem weight_inRepo_lt (r : Repository) {es : List Expr} (h : es.any isPerRepo = true) :
    weight (allInRepo r es) < weight es :=
  weight_map_lt (fun e => sizeOf_inRepo_le e r) (fun _ => sizeOf_inRepo_lt r) h

theorem weight_elsewhere_lt {es : List Expr} (h : es.any isPerRepo = true) : weight (allElsewhere es) < weight es :=
  weight_map_lt sizeOf_elsewhere_le (fun _ => sizeOf_elsewhere_lt) h

theorem weight_dissolveAnd_le (es : List Expr) : weight (dissolveAnd es) ≤ weight es := by
  induction es with
  | nil => exact Nat.le_refl _
  | cons e es ih =>
    simp only [dissolveAnd, List.flatMap_cons, weight_append, weight_cons] at ih ⊢
    refine Nat.add_le_add ?_ ih
    split
    · rename_i ds
      have := weight_lt_sizeOf ds
      simp only [and.sizeOf_spec]; omega
    · simp

theorem weight_filter_le (p : Expr → Bool) (es : List Expr) : weight (es.filter p) ≤ weight es := by
  induction es with
  | nil => exact Nat.le_refl _
  | cons e es ih =>
    rw [List.filter_cons]
    split <;> simp only [weight_cons] <;> omega

theorem weight_distinctFrom_le (seen es : List Expr) : weight (distinctFrom seen es) ≤ weight es := by
  induction es generalizing seen with
  | nil => exact Nat.le_refl _
  | cons e es ih =>
    unfold distinctFrom
    split
    · have := ih seen; simp only [weight_cons]; omega
    · have := ih (seen ++ [e]); simp only [weight_cons]; omega

theorem weight_filter_add (p : Expr → Bool) (es : List Expr) :
    weight (es.filter p) + weight (es.filter fun e => !p e) = weight es := by
  induction es with
  | nil => rfl
  | cons e es ih =>
    simp only [List.filter_cons]
    cases p e <;> simp <;> omega

theorem sizeOf_of_mem_operands {e o : Expr} (h : e ∈ o.operands) : sizeOf e < sizeOf o := by
  cases o <;> simp only [operands, List.not_mem_nil] at h
  all_goals
    have := List.sizeOf_lt_of_mem h
    simp only [and.sizeOf_spec, or.sizeOf_spec]
    omega

theorem weight_choice_le {ors : List Expr} {branch : List Expr} (h : branch ∈ choices (ors.map operands)) :
    weight branch + ors.length ≤ weight ors := by
  induction ors generalizing branch with
  | nil => simp only [List.map_nil, choices, List.mem_singleton] at h; subst h; simp
  | cons o ors ih =>
    simp only [List.map_cons, choices, List.mem_flatMap, List.mem_map] at h
    obtain ⟨e, he, rest, hr, rfl⟩ := h
    have := ih hr
    have := sizeOf_of_mem_operands he
    simp only [weight_cons, List.length_cons]; omega

/-! ## Connectives of normal operands -/

/-- The operands of a conjunction of `es`: nested conjunctions dissolved, no `true`, nothing twice. -/
def conjuncts (es : List Expr) : List Expr := distinct ((dissolveAnd es).filter fun e => !e.isConst true)

/-- The operands of a disjunction of `es`: nested disjunctions dissolved, no `false`, nothing twice. -/
def disjuncts (es : List Expr) : List Expr := distinct ((dissolveOr es).filter fun e => !e.isConst false)

theorem weight_conjuncts_le (es : List Expr) : weight (conjuncts es) ≤ weight es :=
  Nat.le_trans (weight_distinctFrom_le _ _) (Nat.le_trans (weight_filter_le _ _) (weight_dissolveAnd_le _))

theorem weight_branch_lt {es branch : List Expr} (hors : (conjuncts es).filter isOr ≠ [])
    (h : branch ∈ choices (((conjuncts es).filter isOr).map operands)) :
    weight ((conjuncts es).filter (fun e => !e.isOr) ++ branch) < weight es := by
  have h1 := weight_conjuncts_le es
  have h2 := weight_filter_add isOr (conjuncts es)
  have h3 := weight_choice_le h
  have h4 : 0 < ((conjuncts es).filter isOr).length := List.length_pos_iff.mpr hors
  rw [weight_append]; omega

def disjunction (es : List Expr) : Expr :=
  if _h : es.any isPerRepo = true then
    ofEntries ((repositories es).map fun r => (r, disjunction (allInRepo r es))) (disjunction (allElsewhere es))
  else if (dissolveOr es).any (isConst true) || hasComplement (disjuncts es) then .const true
  else match disjuncts es with
    | [] => .const false
    | [e] => e
    | ds => .or ds
  termination_by weight es
  decreasing_by
    · exact weight_inRepo_lt r _h
    · exact weight_elsewhere_lt _h

def conjunction (es : List Expr) : Expr :=
  if _h : es.any isPerRepo = true then
    ofEntries ((repositories es).map fun r => (r, conjunction (allInRepo r es))) (conjunction (allElsewhere es))
  else if (dissolveAnd es).any (isConst false) || hasComplement (conjuncts es) then .const false
  else match conjuncts es with
    | [] => .const true
    | [e] => e
    | cs =>
      let ors := (conjuncts es).filter isOr
      let others := (conjuncts es).filter fun e => !e.isOr
      if _hors : ors = [] then .and cs
      else if combinationLimit ≤ combinations ors then .and cs
      else disjunction ((choices (ors.map operands)).attach.map fun ⟨branch, _hb⟩ => conjunction (others ++ branch))
  termination_by weight es
  decreasing_by
    · exact weight_inRepo_lt r _h
    · exact weight_elsewhere_lt _h
    · exact weight_branch_lt _hors _hb

/-! ## Normalizing -/

mutual

/-- The negation of a normal expression. -/
def negate : Expr → Expr
  | .const b => .const (!b)
  | .leaf l => .not (.leaf l)
  | .not e => e
  | .and es => disjunction (negateAll es)
  | .or es => conjunction (negateAll es)
  | .perRepo entries fallback => ofEntries (negateEntries entries) (negate fallback)

def negateAll : List Expr → List Expr
  | [] => []
  | e :: es => negate e :: negateAll es

def negateEntries : List (Repository × Expr) → List (Repository × Expr)
  | [] => []
  | (r, e) :: es => (r, negate e) :: negateEntries es

end

mutual

def normalize : Expr → Expr
  | .const b => .const b
  | .leaf l => .leaf l
  | .not e => negate (normalize e)
  | .and es => conjunction (normalizeAll es)
  | .or es => disjunction (normalizeAll es)
  | .perRepo entries fallback => ofEntries (normalizeEntries entries) (normalize fallback)

def normalizeAll : List Expr → List Expr
  | [] => []
  | e :: es => normalize e :: normalizeAll es

def normalizeEntries : List (Repository × Expr) → List (Repository × Expr)
  | [] => []
  | (r, e) :: es => (r, normalize e) :: normalizeEntries es

end

/-! ## Recognising normal expressions -/

def isLiteral : Expr → Bool
  | .not e => e.isLeaf
  | e => e.isLeaf

/-- Two operands or more, none twice and none beside its negation. -/
def isProper (es : List Expr) : Bool :=
  2 ≤ es.length && (distinct es).length == es.length && !hasComplement es

def isConjunction : Expr → Bool
  | .and es => es.all isLiteral && isProper es
  | e => e.isLiteral

def isDisjunction : Expr → Bool
  | .const _ => true
  | .or es => es.all isConjunction && isProper es
  | e => e.isConjunction

def isNormalized : Expr → Bool
  | .perRepo entries fallback =>
    !entries.isEmpty && fallback.isDisjunction &&
      entries.all fun (_, e) => !isSame e fallback && e.isDisjunction
  | e => e.isDisjunction

end Triage.Expr
