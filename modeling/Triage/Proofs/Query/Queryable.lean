/-
  Triage.Proofs.Query.Queryable — the expressions that can be queried for, which are all that queries are parsed to.

  No query asks for a pattern, a constant or a repository, and its connectives have two operands or more. The grammar
  derives nothing else (`Single.queryable` and the like), so it holds of what queries are parsed to
  (`parse_queryable`).
-/

import Triage.Proofs.Query.Derivation

namespace Triage.Query

/-- The leaves that can be queried for: patterns cannot, and "is:untriaged" has to be called so. -/
inductive QueryableLeaf (leaves : Leaves) : Leaf → Prop
  | label (name : String) : QueryableLeaf leaves (.label name)
  | milestone (name : Option String) : QueryableLeaf leaves (.milestone name)
  | assignee (name : Option String) : QueryableLeaf leaves (.assignee name)
  | isIssue (b : Bool) : QueryableLeaf leaves (.isIssue b)
  | isOpen (b : Bool) : QueryableLeaf leaves (.isOpen b)
  | untriaged {c : UntriagedConfig} : leaves.find? "untriaged" = some (.leaf (.untriaged c)) →
      QueryableLeaf leaves (.untriaged c)

inductive Queryable (leaves : Leaves) : Expr → Prop
  | leaf {l : Leaf} : QueryableLeaf leaves l → Queryable leaves (.leaf l)
  | not {e : Expr} : Queryable leaves e → Queryable leaves (.not e)
  | and {es : List Expr} : 2 ≤ es.length → (∀ e ∈ es, Queryable leaves e) → Queryable leaves (.and es)
  | or {es : List Expr} : 2 ≤ es.length → (∀ e ∈ es, Queryable leaves e) → Queryable leaves (.or es)

/-! ## Operands under a connective -/

theorem joined_queryable {leaves : Leaves} {connective : List Formula → Formula} {fs : List Formula} (hne : fs ≠ [])
    (h : ∀ f ∈ fs, Queryable leaves f.expr) (hc : 2 ≤ fs.length → Queryable leaves (connective fs).expr) :
    Queryable leaves (joined connective fs).expr := by
  obtain _ | ⟨f, _ | ⟨g, fs⟩⟩ := fs
  · exact absurd rfl hne
  · exact h f List.mem_cons_self
  · exact hc (Nat.le_add_left 2 fs.length)

theorem forall_expr {leaves : Leaves} {fs : List Formula} (h : ∀ f ∈ fs, Queryable leaves f.expr) :
    ∀ e ∈ fs.map Formula.expr, Queryable leaves e := by
  intro e he
  obtain ⟨f, hf, rfl⟩ := List.mem_map.mp he
  exact h f hf

theorem joined_and_queryable {leaves : Leaves} {fs : List Formula} (hne : fs ≠ [])
    (h : ∀ f ∈ fs, Queryable leaves f.expr) : Queryable leaves (joined .and fs).expr := by
  refine joined_queryable hne h fun hlen => ?_
  rw [Formula.expr_and]
  exact .and (by rwa [List.length_map]) (forall_expr h)

theorem joined_or_queryable {leaves : Leaves} {fs : List Formula} (hne : fs ≠ [])
    (h : ∀ f ∈ fs, Queryable leaves f.expr) : Queryable leaves (joined .or fs).expr := by
  refine joined_queryable hne h fun hlen => ?_
  rw [Formula.expr_or]
  exact .or (by rwa [List.length_map]) (forall_expr h)

/-! ## What is derived -/

section Derived

variable {leaves : Leaves}

/-- All that the leaves stand for can be queried for. -/
def QueryableLeaves (leaves : Leaves) : Prop := ∀ name f, leaves.find? name = some f → Queryable leaves f.expr

theorem Named.queryable (hl : QueryableLeaves leaves) {key value : String} {f : Formula}
    (h : Named leaves key value f) : Queryable leaves f.expr := by
  cases h with
  | label => exact .leaf (.label value)
  | notLabel => exact .not (.leaf (.label value))
  | milestone => exact .leaf (.milestone (some value))
  | assignee => exact .leaf (.assignee (some value))
  | noMilestone => exact .leaf (.milestone none)
  | noAssignee => exact .leaf (.assignee none)
  | issue => exact .leaf (.isIssue true)
  | pullRequest => exact .leaf (.isIssue false)
  | opened => exact .leaf (.isOpen true)
  | closed => exact .leaf (.isOpen false)
  | called _ _ hf => exact hl value f hf

mutual

theorem Single.queryable (hl : QueryableLeaves leaves) {w : List Symbol} {f : Formula} :
    Single leaves w f → Queryable leaves f.expr
  | .not h => .not (h.queryable hl)
  | .bracket h => joined_or_queryable (h.queryable hl).1 (h.queryable hl).2
  | .pair h => (single_pair_iff.mp (.pair h)).queryable hl

theorem Operands.queryable (hl : QueryableLeaves leaves) {w : List Symbol} {fs : List Formula} :
    Operands leaves w fs → fs ≠ [] ∧ ∀ f ∈ fs, Queryable leaves f.expr
  | .one h => ⟨List.cons_ne_nil _ _, List.forall_mem_singleton.mpr (h.queryable hl)⟩
  | .and h hs => ⟨List.cons_ne_nil _ _, List.forall_mem_cons.mpr ⟨h.queryable hl, (hs.queryable hl).2⟩⟩
  | .beside h hs => ⟨List.cons_ne_nil _ _, List.forall_mem_cons.mpr ⟨h.queryable hl, (hs.queryable hl).2⟩⟩

theorem Alternatives.queryable (hl : QueryableLeaves leaves) {w : List Symbol} {fs : List Formula} :
    Alternatives leaves w fs → fs ≠ [] ∧ ∀ f ∈ fs, Queryable leaves f.expr
  | .one h => ⟨List.cons_ne_nil _ _,
      List.forall_mem_singleton.mpr (joined_and_queryable (h.queryable hl).1 (h.queryable hl).2)⟩
  | .or h hs => ⟨List.cons_ne_nil _ _,
      List.forall_mem_cons.mpr
        ⟨joined_and_queryable (h.queryable hl).1 (h.queryable hl).2, (hs.queryable hl).2⟩⟩

end

/-- What a query is parsed to can be queried for, if what its leaves stand for can. -/
theorem parse_queryable (hl : QueryableLeaves leaves) {query : String} {f : Formula}
    (h : parse leaves query = .ok f) : Queryable leaves f.expr := by
  obtain ⟨ts, -, fs, hfs, rfl⟩ := parse_derives h
  exact joined_or_queryable (hfs.queryable hl).1 (hfs.queryable hl).2

end Derived

end Triage.Query
