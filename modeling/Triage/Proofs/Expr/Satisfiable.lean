/-
  Triage.Proofs.Expr.Satisfiable — a normal form that nothing can make true is `false`.

  The connectives look for contradictions only one operand list at a time, and there only for an operand beside its
  negation. For a normal form that is recognised as normalized this finds all of them: each of its conjunctions holds
  once the leaves that it asks for are true and the others are not (`all_asking`), since no literal in it is denied by
  another. So whatever is not `false` can be made true (`satisfiable_of_isDisjunction`).
-/

import Triage.Proofs.Expr.Canonical
import Triage.Proofs.Expr.Meaning

namespace Triage.Expr

/-- The leaves among the literals are true, all others are not. -/
def asking (literals : List Expr) (l : Leaf) : Bool := (Expr.leaf l).among literals

theorem asking_iff {literals : List Expr} {l : Leaf} :
    asking literals l = true ↔ ∃ d ∈ literals, same d (.leaf l) = true := by
  simp only [asking, among, List.any_eq_true, isSame_eq]

theorem literal_cases {e : Expr} (h : e.isLiteral = true) : (∃ l, e = .leaf l) ∨ ∃ l, e = .not (.leaf l) := by
  cases e with
  | leaf l => exact Or.inl ⟨l, rfl⟩
  | not d =>
    cases d with
    | leaf l => exact Or.inr ⟨l, rfl⟩
    | const | not | and | or | perRepo => simp [isLiteral, isLeaf] at h
  | const | and | or | perRepo => simp [isLiteral, isLeaf] at h

/-- Literals of which none denies another hold together. -/
theorem all_asking {literals : List Expr} (hl : ∀ e ∈ literals, e.isLiteral = true)
    (hu : ∀ d ∈ literals, ∀ e ∈ literals, same d (.not e) = false) (r : Repository) :
    literals.all (evalWith (asking literals) r) = true := by
  rw [List.all_eq_true]
  intro e he
  rcases literal_cases (hl e he) with ⟨l, rfl⟩ | ⟨l, rfl⟩
  · exact asking_iff.mpr ⟨.leaf l, he, same_self _⟩
  · have hfree : asking literals l = false := by
      rw [← Bool.not_eq_true, asking_iff]
      rintro ⟨d, hd, hdl⟩
      have hopposed : same (.not (.leaf l)) (.not d) = true := by rw [same, same_comm, hdl]
      rw [hu _ he d hd] at hopposed
      cases hopposed
    rw [evalWith_not, evalWith_leaf, hfree]
    rfl

theorem satisfiable_of_isLiteral {e : Expr} (h : e.isLiteral = true) : ∃ v, ∀ r, e.evalWith v r = true := by
  have hu : ∀ d ∈ [e], ∀ d' ∈ [e], same d (.not d') = false := by
    rcases literal_cases h with ⟨l, rfl⟩ | ⟨l, rfl⟩ <;> simp [same]
  refine ⟨asking [e], fun r => ?_⟩
  have hall := all_asking (List.forall_mem_singleton.mpr h) hu r
  simpa using hall

theorem satisfiable_of_isConjunction {e : Expr} (h : e.isConjunction = true) : ∃ v, ∀ r, e.evalWith v r = true := by
  cases e with
  | and es =>
    obtain ⟨hl, hp⟩ := isConjunction_and_iff.mp h
    refine ⟨asking es, fun r => ?_⟩
    rw [evalWith_and]
    exact all_asking hl hp.unopposed r
  | const | leaf | not | or | perRepo => exact satisfiable_of_isLiteral h

/-- A disjunction holds where its first conjunction does. -/
theorem satisfiable_of_isDisjunction {e : Expr} (h : e.isDisjunction = true) (hne : e ≠ .const false) :
    ∃ v, ∀ r, e.evalWith v r = true := by
  cases e with
  | const b =>
    cases b with
    | true => exact ⟨fun _ => true, fun _ => rfl⟩
    | false => exact absurd rfl hne
  | or es =>
    obtain ⟨hc, hp⟩ := isDisjunction_or_iff.mp h
    have htwo : 2 ≤ es.length := hp.two
    obtain ⟨d, hd⟩ := List.exists_mem_of_length_pos (by omega : 0 < es.length)
    obtain ⟨v, hv⟩ := satisfiable_of_isConjunction (hc d hd)
    refine ⟨v, fun r => ?_⟩
    rw [evalWith_or, List.any_eq_true]
    exact ⟨d, hd, hv r⟩
  | leaf | not | and | perRepo => exact satisfiable_of_isConjunction h

theorem isDisjunction_inRepo {e : Expr} (h : e.isNormalized = true) (r : Repository) :
    (e.inRepo r).isDisjunction = true := by
  cases e with
  | perRepo entries fallback =>
    simp only [isNormalized, Bool.and_eq_true, List.all_eq_true] at h
    obtain ⟨⟨-, hf⟩, he⟩ := h
    exact forall_found (p := fun d => d.isDisjunction = true) (fun p hp => (he p hp).2) hf r
  | const | leaf | not | and | or => exact h

/-- Where the normal form is recognised as normalized, it stands for `false` in exactly the repositories in which no
    truth values of the leaves make the expression true. -/
theorem normalize_inRepo_eq_false_iff {e : Expr} (h : e.normalize.isNormalized = true) (r : Repository) :
    e.normalize.inRepo r = .const false ↔ ∀ v : Leaf → Bool, e.evalWith v r = false := by
  have heval : ∀ v, (e.normalize.inRepo r).evalWith v r = e.evalWith v r := by
    intro v
    rw [evalWith_inRepo, evalWith_normalize]
  constructor
  · intro hfalse v
    rw [← heval v, hfalse, evalWith_const]
  · intro hnever
    by_contra hne
    obtain ⟨v, hv⟩ := satisfiable_of_isDisjunction (isDisjunction_inRepo h r) hne
    have htrue : e.evalWith v r = true := by rw [← heval v, hv r]
    rw [hnever v] at htrue
    cases htrue

/-- A contradiction in one repository, seen once the disjunction that stands there is multiplied out. -/
theorem normalize_inRepo_eq_false_iff_denied :
    let r : Repository := ⟨"dotnet", "runtime", by decide, by decide, by decide, by decide⟩
    let bug : Expr := .leaf (.label "bug")
    let opened : Expr := .leaf (.isOpen true)
    let e : Expr := .and [.perRepo [(r, .or [bug, opened])] opened, .not bug, .not (.perRepo [(r, opened)] bug)]
    e.normalize.isNormalized = true ∧ e.normalize.inRepo r = .const false ∧
      (e.normalize.inRepo r = .const false ↔ ∀ v : Leaf → Bool, e.evalWith v r = false) := by
  intro r bug opened e
  have h : e.normalize.isNormalized = true := by decide +kernel
  have hfalse : (e.normalize.inRepo r).isConst false = true := by decide +kernel
  exact ⟨h, eq_const_of_isConst hfalse, normalize_inRepo_eq_false_iff h r⟩

end Triage.Expr
