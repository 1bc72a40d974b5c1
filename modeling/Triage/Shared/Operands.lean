/-
  Triage.Shared.Operands — what can be read of nodes without making any.

  These are the operations on operand lists of `Triage.Expr.Normal` on nodes: what they read of a node is its shape,
  and two nodes are the same if they are one or their trees are the same. The trees of what they give are what those
  of `Triage.Expr.Normal` give for the trees (`map_tree_conjuncts`).
-/

import Triage.Expr.Normal
import Triage.Shared.Store

namespace Triage.Shared.Store

open Triage.Expr (choices)

variable (s : Store)

/-! ## One node -/

def isConst (b : Bool) (r : Ref) : Bool :=
  match s.shape r with
  | .const c => c == b
  | _ => false

def isOr (r : Ref) : Bool :=
  match s.shape r with
  | .or _ => true
  | _ => false

def isPerRepo (r : Ref) : Bool :=
  match s.shape r with
  | .perRepo _ _ => true
  | _ => false

def operands (r : Ref) : List Ref :=
  match s.shape r with
  | .and es | .or es => es
  | _ => []

def inRepo (q : Repository) (r : Ref) : Ref :=
  match s.shape r with
  | .perRepo entries fallback => (entries.lookup q).getD fallback
  | _ => r

def elsewhere (r : Ref) : Ref :=
  match s.shape r with
  | .perRepo _ fallback => fallback
  | _ => r

/-- One node is the same as itself, whatever its tree. -/
def same (a b : Ref) : Bool := a == b || Expr.isSame (s.tree a) (s.tree b)

/-! ## Lists of nodes -/

def among (e : Ref) (es : List Ref) : Bool := es.any fun f => s.same f e

def dissolveAnd (es : List Ref) : List Ref := es.flatMap fun e =>
  match s.shape e with
  | .and ds => ds
  | _ => [e]

def dissolveOr (es : List Ref) : List Ref := es.flatMap fun e =>
  match s.shape e with
  | .or ds => ds
  | _ => [e]

def distinctFrom : List Ref → List Ref → List Ref
  | _, [] => []
  | seen, e :: es => if s.among e seen then distinctFrom seen es else e :: distinctFrom (seen ++ [e]) es

def distinct (es : List Ref) : List Ref := s.distinctFrom [] es

def hasComplement (es : List Ref) : Bool := es.any fun e =>
  match s.shape e with
  | .not d => s.among d es
  | _ => false

def conjuncts (es : List Ref) : List Ref := s.distinct ((s.dissolveAnd es).filter fun e => !s.isConst true e)

def disjuncts (es : List Ref) : List Ref := s.distinct ((s.dissolveOr es).filter fun e => !s.isConst false e)

def combinations (ors : List Ref) : Nat :=
  ors.foldl (fun n e => min (n * (s.operands e).length) (UInt64.size - 1)) 1

def repositories (es : List Ref) : List Repository :=
  (es.flatMap fun e =>
    match s.shape e with
    | .perRepo entries _ => entries.map Prod.fst
    | _ => []).eraseDups

def allInRepo (q : Repository) (es : List Ref) : List Ref := es.map (s.inRepo q)

def allElsewhere (es : List Ref) : List Ref := es.map s.elsewhere

def inherit (entries : List (Repository × Ref)) (fallback : Ref) : List (Repository × Ref) :=
  match s.shape fallback with
  | .perRepo more _ =>
    more.foldl (fun es (q, e) => if (es.lookup q).isSome then es else PerRepo.insert q e es) entries
  | _ => entries

/-- The entries of an expression per repository, nested ones resolved, without those that are the same as the
    fallback. -/
def keptEntries (entries : List (Repository × Ref)) (fallback : Ref) : List (Repository × Ref) :=
  (s.inherit (PerRepo.sort (entries.map fun (q, e) => (q, s.inRepo q e))) fallback).filter fun (_, e) =>
    !s.same e (s.elsewhere fallback)

/-! ## Trees of what is read -/

/-- Entries with trees for nodes. -/
def entryTrees (entries : List (Repository × Ref)) : List (Repository × Expr) := entries.map fun (q, e) => (q, s.tree e)

@[simp] theorem isConst_tree (b : Bool) (r : Ref) : (s.tree r).isConst b = s.isConst b r := by
  rw [tree_eq, isConst]
  cases s.shape r <;> rfl

@[simp] theorem isOr_tree (r : Ref) : (s.tree r).isOr = s.isOr r := by
  rw [tree_eq, isOr]
  cases s.shape r <;> rfl

@[simp] theorem isPerRepo_tree (r : Ref) : (s.tree r).isPerRepo = s.isPerRepo r := by
  rw [tree_eq, isPerRepo]
  cases s.shape r <;> rfl

@[simp] theorem operands_tree (r : Ref) : (s.tree r).operands = (s.operands r).map s.tree := by
  rw [tree_eq, operands]
  cases s.shape r <;> rfl

theorem lookup_entryTrees (q : Repository) (entries : List (Repository × Ref)) :
    (s.entryTrees entries).lookup q = (entries.lookup q).map s.tree := by
  induction entries with
  | nil => rfl
  | cons p entries ih =>
    rw [entryTrees] at ih ⊢
    rw [List.map_cons, List.lookup_cons, List.lookup_cons, ih]
    cases q == p.1 <;> rfl

@[simp] theorem inRepo_tree (q : Repository) (r : Ref) : (s.tree r).inRepo q = s.tree (s.inRepo q r) := by
  have hr := s.tree_eq r
  rw [inRepo]
  cases hk : s.shape r with
  | perRepo entries fallback =>
    rw [hr, hk]
    show ((s.entryTrees entries).lookup q).getD (s.tree fallback) = s.tree ((entries.lookup q).getD fallback)
    rw [lookup_entryTrees]
    cases entries.lookup q <;> rfl
  | const | leaf | not | and | or =>
    rw [hr, hk]
    rfl

@[simp] theorem elsewhere_tree (r : Ref) : (s.tree r).elsewhere = s.tree (s.elsewhere r) := by
  have hr := s.tree_eq r
  rw [elsewhere]
  cases hk : s.shape r with
  | perRepo entries fallback =>
    rw [hr, hk]
    rfl
  | const | leaf | not | and | or =>
    rw [hr, hk]
    rfl

@[simp] theorem same_eq (a b : Ref) : s.same a b = Expr.same (s.tree a) (s.tree b) := by
  rw [same, Expr.isSame_eq]
  by_cases h : a = b
  · rw [h, Expr.same_self, beq_self_eq_true]
    rfl
  · rw [beq_eq_false_iff_ne.mpr h, Bool.false_or]

@[simp] theorem among_tree (e : Ref) (es : List Ref) : (s.tree e).among (es.map s.tree) = s.among e es := by
  rw [Expr.among, among, List.any_map]
  exact congrArg _ (funext fun f => by simp)

theorem map_tree_dissolveAnd (es : List Ref) : (s.dissolveAnd es).map s.tree = Expr.dissolveAnd (es.map s.tree) := by
  rw [dissolveAnd, Expr.dissolveAnd, List.map_flatMap, List.flatMap_map]
  refine congrArg (fun f => es.flatMap f) (funext fun e => ?_)
  cases hk : s.shape e <;> rw [tree_eq s e, hk] <;> first | rfl | simp [Shape.toExpr, tree_eq s e, hk]

theorem map_tree_dissolveOr (es : List Ref) : (s.dissolveOr es).map s.tree = Expr.dissolveOr (es.map s.tree) := by
  rw [dissolveOr, Expr.dissolveOr, List.map_flatMap, List.flatMap_map]
  refine congrArg (fun f => es.flatMap f) (funext fun e => ?_)
  cases hk : s.shape e <;> rw [tree_eq s e, hk] <;> first | rfl | simp [Shape.toExpr, tree_eq s e, hk]

theorem map_tree_distinctFrom (seen es : List Ref) :
    (s.distinctFrom seen es).map s.tree = Expr.distinctFrom (seen.map s.tree) (es.map s.tree) := by
  induction es generalizing seen with
  | nil => rfl
  | cons e es ih =>
    rw [distinctFrom, List.map_cons, Expr.distinctFrom, among_tree]
    split
    · exact ih seen
    · rw [List.map_cons, ih, List.map_append, List.map_singleton]

theorem map_tree_filter {p : Ref → Bool} {P : Expr → Bool} (h : ∀ e, P (s.tree e) = p e) (es : List Ref) :
    (es.filter p).map s.tree = (es.map s.tree).filter P := by
  rw [List.filter_map]
  exact congrArg (fun f => (es.filter f).map s.tree) (funext fun e => (h e).symm)

theorem map_tree_conjuncts (es : List Ref) : (s.conjuncts es).map s.tree = Expr.conjuncts (es.map s.tree) := by
  rw [conjuncts, Expr.conjuncts, distinct, Expr.distinct, map_tree_distinctFrom, List.map_nil,
    s.map_tree_filter (P := fun e => !e.isConst true) (fun e => by rw [isConst_tree]), map_tree_dissolveAnd]

theorem map_tree_disjuncts (es : List Ref) : (s.disjuncts es).map s.tree = Expr.disjuncts (es.map s.tree) := by
  rw [disjuncts, Expr.disjuncts, distinct, Expr.distinct, map_tree_distinctFrom, List.map_nil,
    s.map_tree_filter (P := fun e => !e.isConst false) (fun e => by rw [isConst_tree]), map_tree_dissolveOr]

theorem hasComplement_tree (es : List Ref) : Expr.hasComplement (es.map s.tree) = s.hasComplement es := by
  rw [Expr.hasComplement, hasComplement, List.any_map]
  refine congrArg (fun f => es.any f) (funext fun e => ?_)
  rw [Function.comp_apply]
  cases hk : s.shape e <;> rw [tree_eq s e, hk] <;> first | rfl | exact s.among_tree _ es

theorem any_isConst_tree (b : Bool) (es : List Ref) :
    (es.map s.tree).any (Expr.isConst b) = es.any (s.isConst b) := by
  rw [List.any_map]
  exact congrArg _ (funext fun e => s.isConst_tree b e)

theorem any_isPerRepo_tree (es : List Ref) : (es.map s.tree).any Expr.isPerRepo = es.any s.isPerRepo := by
  rw [List.any_map]
  exact congrArg _ (funext fun e => s.isPerRepo_tree e)

theorem combinations_tree (ors : List Ref) : Expr.combinations (ors.map s.tree) = s.combinations ors := by
  rw [Expr.combinations, combinations, List.foldl_map]
  simp only [operands_tree, List.length_map]

theorem repositories_tree (es : List Ref) : Expr.repositories (es.map s.tree) = s.repositories es := by
  rw [Expr.repositories, repositories, List.flatMap_map]
  refine congrArg (fun f => (es.flatMap f).eraseDups) (funext fun e => ?_)
  cases hk : s.shape e <;> rw [tree_eq s e, hk] <;> first | rfl | simp [Shape.toExpr]

theorem map_tree_allInRepo (q : Repository) (es : List Ref) :
    (s.allInRepo q es).map s.tree = Expr.allInRepo q (es.map s.tree) := by
  rw [allInRepo, Expr.allInRepo, List.map_map, List.map_map]
  exact List.map_congr_left fun e _ => (s.inRepo_tree q e).symm

theorem map_tree_allElsewhere (es : List Ref) :
    (s.allElsewhere es).map s.tree = Expr.allElsewhere (es.map s.tree) := by
  rw [allElsewhere, Expr.allElsewhere, List.map_map, List.map_map]
  exact List.map_congr_left fun e _ => (s.elsewhere_tree e).symm

theorem choices_map {α β : Type} (f : α → β) (ls : List (List α)) :
    choices (ls.map (List.map f)) = (choices ls).map (List.map f) := by
  induction ls with
  | nil => rfl
  | cons l ls ih =>
    rw [List.map_cons, choices, choices, ih, List.map_flatMap, List.flatMap_map]
    simp only [List.map_map]
    rfl

/-- The choices among the operands of the disjunctions, as trees. -/
theorem choices_operands_tree (ors : List Ref) :
    choices ((ors.map s.tree).map Expr.operands) = (choices (ors.map s.operands)).map (List.map s.tree) := by
  rw [← choices_map, List.map_map, List.map_map]
  exact congrArg choices (List.map_congr_left fun e _ => s.operands_tree e)

end Triage.Shared.Store
