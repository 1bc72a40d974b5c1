/-
  Triage.Shared.Normal — the normal form of an expression whose parts are nodes.

  The connectives, `ofEntries` and `negate` work as those of `Triage.Expr.Normal`, on nodes: an operand that is left
  alone keeps its node, a constant is the node that everyone uses, and only what is new is made. What they read is
  older than what they make, and nodes do not change, so it is read in the store `s` that was there at first.
-/

import Triage.Shared.Operands

namespace Triage.Shared

open Triage.Expr (choices combinationLimit)

inductive Fault where
  /-- A node is to be made of one that does not exist. -/
  | dangling
  /-- A memo is needed while it is being found. -/
  | reentered
  deriving DecidableEq, Repr

/-- What makes nodes, or ends in a fault. -/
abbrev Build := StateT Store (Except Fault)

def make (k : Shape) : Build Ref := fun s =>
  if h : ∀ r ∈ k.refs, r < s.size then .ok (s.size, s.push k h) else .error .dangling

/-- As `make`, but constants are not made again, and a connective without operands is one. -/
def construct : Shape → Build Ref
  | .const b => return constant b
  | .and [] => return constant true
  | .or [] => return constant false
  | k => make k

def ofEntries (s : Store) (entries : List (Repository × Ref)) (fallback : Ref) : Build Ref :=
  match s.keptEntries entries fallback with
  | [] => return s.elsewhere fallback
  | kept => make (.perRepo kept (s.elsewhere fallback))

/-! ## Connectives -/

def disjunction (s : Store) (es : List Ref) : Build Ref := do
  if _h : es.any s.isPerRepo = true then
    let entries ← (s.repositories es).mapM fun q => do return (q, ← disjunction s (s.allInRepo q es))
    let fallback ← disjunction s (s.allElsewhere es)
    ofEntries (← get) entries fallback
  else if (s.dissolveOr es).any (s.isConst true) || s.hasComplement (s.disjuncts es) then
    return constant true
  else match s.disjuncts es with
    | [] => return constant false
    | [e] => return e
    | ds => make (.or ds)
  termination_by Expr.weight (es.map s.tree)
  decreasing_by
    · rw [s.map_tree_allInRepo]
      exact Expr.weight_inRepo_lt q (by rw [s.any_isPerRepo_tree, _h])
    · rw [s.map_tree_allElsewhere]
      exact Expr.weight_elsewhere_lt (by rw [s.any_isPerRepo_tree, _h])

theorem weight_branch_lt (s : Store) {es choice : List Ref} (hors : (s.conjuncts es).filter s.isOr ≠ [])
    (h : choice ∈ choices (((s.conjuncts es).filter s.isOr).map s.operands)) :
    Expr.weight (((s.conjuncts es).filter (fun e => !s.isOr e) ++ choice).map s.tree) <
      Expr.weight (es.map s.tree) := by
  have hors' : ((s.conjuncts es).filter s.isOr).map s.tree = (Expr.conjuncts (es.map s.tree)).filter Expr.isOr := by
    rw [s.map_tree_filter (P := Expr.isOr) s.isOr_tree, s.map_tree_conjuncts]
  have hothers : ((s.conjuncts es).filter fun e => !s.isOr e).map s.tree =
      (Expr.conjuncts (es.map s.tree)).filter fun e => !e.isOr := by
    rw [s.map_tree_filter (P := fun e => !e.isOr) (fun e => by rw [s.isOr_tree]), s.map_tree_conjuncts]
  have hchoice : choice.map s.tree ∈ choices (((Expr.conjuncts (es.map s.tree)).filter Expr.isOr).map Expr.operands) := by
    rw [← hors', s.choices_operands_tree]
    exact List.mem_map_of_mem h
  rw [List.map_append, hothers]
  refine Expr.weight_branch_lt (fun hnil => hors ?_) hchoice
  rw [← hors'] at hnil
  exact List.map_eq_nil_iff.mp hnil

def conjunction (s : Store) (es : List Ref) : Build Ref := do
  if _h : es.any s.isPerRepo = true then
    let entries ← (s.repositories es).mapM fun q => do return (q, ← conjunction s (s.allInRepo q es))
    let fallback ← conjunction s (s.allElsewhere es)
    ofEntries (← get) entries fallback
  else if (s.dissolveAnd es).any (s.isConst false) || s.hasComplement (s.conjuncts es) then
    return constant false
  else match s.conjuncts es with
    | [] => return constant true
    | [e] => return e
    | cs =>
      let ors := (s.conjuncts es).filter s.isOr
      let others := (s.conjuncts es).filter fun e => !s.isOr e
      if _hors : ors = [] then make (.and cs)
      else if combinationLimit ≤ s.combinations ors then make (.and cs)
      else
        let branches ← (choices (ors.map s.operands)).attach.mapM fun ⟨choice, _⟩ => conjunction s (others ++ choice)
        disjunction (← get) branches
  termination_by Expr.weight (es.map s.tree)
  decreasing_by
    · rw [s.map_tree_allInRepo]
      exact Expr.weight_inRepo_lt q (by rw [s.any_isPerRepo_tree, _h])
    · rw [s.map_tree_allElsewhere]
      exact Expr.weight_elsewhere_lt (by rw [s.any_isPerRepo_tree, _h])
    · exact weight_branch_lt s _hors ‹_›

/-- The negation of a normal expression. -/
def negate (s : Store) (r : Ref) : Build Ref :=
  match _h : s.shape r with
  | .const b => return constant (!b)
  | .leaf _ => make (.not r)
  | .not e => return e
  | .and es => do
    let negated ← es.attach.mapM fun ⟨e, _he⟩ => negate s e
    disjunction (← get) negated
  | .or es => do
    let negated ← es.attach.mapM fun ⟨e, _he⟩ => negate s e
    conjunction (← get) negated
  | .perRepo entries fallback => do
    let negated ← entries.attach.mapM fun ⟨(q, e), _he⟩ => do return (q, ← negate s e)
    let otherwise ← negate s fallback
    ofEntries (← get) negated otherwise
  termination_by r
  decreasing_by
    · exact s.lt_of_mem_refs (by rw [_h]; exact _he)
    · exact s.lt_of_mem_refs (by rw [_h]; exact _he)
    · exact s.lt_of_mem_refs (by rw [_h]; exact Shape.mem_refs_of_mem_entries _he)
    · exact s.lt_of_mem_refs (by rw [_h]; exact List.mem_cons_self)

end Triage.Shared
