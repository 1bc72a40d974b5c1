/-
  Triage.Proofs.Search.Literal — what the text of a search says.

  The text of a search is that of a list of literals with blanks between them, and an expression that has the search
  holds where all of them do (`says_of_fragment`). Denying a kind or a state is asking for the other one, so only names
  are denied in a literal.
-/

import Triage.Proofs.Expr.Basic
import Triage.Regex.Engine
import Triage.Search

namespace Triage.Search

/-! ## Literals -/

/-- What the search syntax can ask of an issue. -/
inductive Literal where
  | label (denied : Bool) (name : String)
  | milestone (denied : Bool) (name : String)
  | assignee (denied : Bool) (name : String)
  | noMilestone
  | noAssignee
  | isIssue (b : Bool)
  | isOpen (b : Bool)
  deriving DecidableEq, Repr

namespace Literal

def leaf : Literal → Leaf
  | .label _ name => .label name
  | .milestone _ name => .milestone (some name)
  | .assignee _ name => .assignee (some name)
  | .noMilestone => .milestone none
  | .noAssignee => .assignee none
  | .isIssue b => .isIssue b
  | .isOpen b => .isOpen b

def denied : Literal → Bool
  | .label denied _ | .milestone denied _ | .assignee denied _ => denied
  | .noMilestone | .noAssignee | .isIssue _ | .isOpen _ => false

def holds [Engine] (i : Issue) (l : Literal) : Bool := l.leaf.eval i != l.denied

def key : Literal → String
  | .label denied _ => if denied then "-label" else "label"
  | .milestone denied _ => if denied then "-milestone" else "milestone"
  | .assignee denied _ => if denied then "-assignee" else "assignee"
  | .noMilestone | .noAssignee => "no"
  | .isIssue _ | .isOpen _ => "is"

def written : Literal → String
  | .label _ name => quoted name
  | .milestone _ name | .assignee _ name => value name
  | .noMilestone => "milestone"
  | .noAssignee => "assignee"
  | .isIssue b => if b then "issue" else "pr"
  | .isOpen b => if b then "open" else "closed"

def text (l : Literal) : String := l.key ++ ":" ++ l.written

/-- The literal that asks for a leaf, or denies it. -/
def ask (denied : Bool) : Leaf → Option Literal
  | .label name => some (.label denied name)
  | .milestone (some name) => some (.milestone denied name)
  | .milestone none => if denied then none else some .noMilestone
  | .assignee (some name) => some (.assignee denied name)
  | .assignee none => if denied then none else some .noAssignee
  | .isIssue b => some (.isIssue (b != denied))
  | .isOpen b => some (.isOpen (b != denied))
  | .labelPattern _ | .milestonePattern _ | .untriaged _ => none

theorem holds_of_ask [Engine] {denied : Bool} {l : Leaf} {m : Literal} (h : ask denied l = some m) (i : Issue) :
    m.holds i = (l.eval i != denied) := by
  cases l with
  | milestone name | assignee name => cases name <;> cases denied <;> cases h <;> rfl
  | isIssue b | isOpen b =>
    have hb : ∀ x : Bool, ((x == (b != denied)) != false) = ((x == b) != denied) := by
      intro x
      cases x <;> cases b <;> cases denied <;> rfl
    cases h
    exact hb _
  | label =>
    cases h
    rfl
  | labelPattern | milestonePattern | untriaged => cases h

theorem leaf_of_ask {denied : Bool} {l : Leaf} {m : Literal} (h : ask denied l = some m) :
    m.key = "is" ∨ m.leaf = l := by
  cases l with
  | label =>
    cases h
    exact Or.inr rfl
  | milestone name | assignee name => cases name <;> cases denied <;> cases h <;> exact Or.inr rfl
  | isIssue | isOpen =>
    cases h
    exact Or.inl rfl
  | labelPattern | milestonePattern | untriaged => cases h

end Literal

/-- The literals one after the other. -/
def write (ls : List Literal) : String := " ".intercalate (ls.map Literal.text)

/-! ## Texts -/

theorem write_append {ls ms : List Literal} (hl : ls ≠ []) (hm : ms ≠ []) :
    write (ls ++ ms) = write ls ++ " " ++ write ms := by
  rw [write, List.map_append, String.intercalate_append_of_ne_nil (by simpa using hl) (by simpa using hm), write, write]

theorem write_isEmpty (ls : List Literal) : (write ls).isEmpty = ls.isEmpty := by
  cases ls with
  | nil => rfl
  | cons l ls =>
    have hne : write (l :: ls) ≠ "" := by
      rw [write, List.map_cons, Literal.text, String.intercalate_cons_append]
      intro h
      have := congrArg String.toList h
      simp at this
    rw [List.isEmpty_cons]
    simpa using hne

theorem intercalate_write {lss : List (List Literal)} (h : ∀ ls ∈ lss, ls ≠ []) :
    " ".intercalate (lss.map write) = write lss.flatten := by
  induction lss with
  | nil => rfl
  | cons ls lss ih =>
    obtain ⟨hl, hlss⟩ := List.forall_mem_cons.mp h
    cases lss with
    | nil => rw [List.map_singleton, String.intercalate_singleton, List.flatten_singleton]
    | cons ms lss =>
      have hne : (ms :: lss).flatten ≠ [] := by
        rw [List.flatten_cons]
        exact List.append_ne_nil_of_left_ne_nil (hlss ms List.mem_cons_self) _
      rw [List.flatten_cons, write_append hl hne, ← ih hlss]
      exact String.intercalate_cons_of_ne_nil (List.cons_ne_nil _ _)

/-- Texts that say nothing are left out. -/
theorem write_flatten (lss : List (List Literal)) :
    " ".intercalate ((lss.map write).filter fun f => !f.isEmpty) = write lss.flatten := by
  have hkeep : (fun f : String => !f.isEmpty) ∘ write = fun ls => !ls.isEmpty := by
    funext ls
    exact congrArg Bool.not (write_isEmpty ls)
  rw [List.filter_map, hkeep, intercalate_write, List.flatten_filter_not_isEmpty]
  intro ls hls
  simpa using (List.mem_filter.mp hls).2

/-! ## Expressions -/

theorem fragment_leaf (negated : Bool) (l : Leaf) :
    fragment negated (.leaf l) = (Literal.ask negated l).map Literal.text := by
  cases l with
  | milestone name | assignee name => cases name <;> cases negated <;> rfl
  | isIssue b | isOpen b => cases b <;> cases negated <;> rfl
  | label | labelPattern | milestonePattern | untriaged => cases negated <;> rfl

/-- The search looks where the issue is. -/
def covers (s : Search) (i : Issue) : Bool := s.repository.all (· == i.repository)

theorem covers_iff {s : Search} {i : Issue} :
    s.covers i = true ↔ s.repository = none ∨ s.repository = some i.repository := by
  rw [covers]
  cases s.repository with
  | none => simp
  | some r => simp

section Meaning

variable [Engine]

/-- The text says what the expression does, or its negation if `negated`. -/
structure Says (negated : Bool) (e : Expr) (text : String) (ls : List Literal) : Prop where
  text_eq : text = write ls
  eval_eq : ∀ i, (e.eval i != negated) = ls.all (·.holds i)
  /-- A kind or a state that is denied is asked for as the other one. -/
  mentions : ∀ l ∈ ls, l.key = "is" ∨ e.Mentions l.leaf

theorem says_of_leaf {negated : Bool} {l : Leaf} {text : String} (h : fragment negated (.leaf l) = some text) :
    ∃ ls, Says negated (.leaf l) text ls := by
  rw [fragment_leaf] at h
  obtain ⟨m, hm, rfl⟩ := Option.map_eq_some_iff.mp h
  refine ⟨[m], String.intercalate_singleton.symm, fun i => ?_, List.forall_mem_singleton.mpr ?_⟩
  · rw [List.all_cons, List.all_nil, Bool.and_true, Literal.holds_of_ask hm]
    rfl
  · refine (Literal.leaf_of_ask hm).imp_right fun hl => ?_
    rw [hl]
    exact .leaf

theorem says_of_fragments {es : List Expr} {fs : List String}
    (ih : ∀ e ∈ es, ∀ text, fragment false e = some text → ∃ ls, Says false e text ls) (h : fragments es = some fs) :
    ∃ lss : List (List Literal), fs = lss.map write ∧ (∀ i, es.all (·.eval i) = lss.flatten.all (·.holds i)) ∧
      ∀ l ∈ lss.flatten, l.key = "is" ∨ ∃ e ∈ es, e.Mentions l.leaf := by
  induction es generalizing fs with
  | nil =>
    cases h
    refine ⟨[], rfl, fun i => rfl, fun l hl => ?_⟩
    cases hl
  | cons e es ihs =>
    simp only [fragments, Option.bind_eq_bind, Option.bind_eq_some_iff, Option.pure_def, Option.some.injEq] at h
    obtain ⟨text, ht, more, hmore, rfl⟩ := h
    obtain ⟨ls, hls⟩ := ih e List.mem_cons_self text ht
    obtain ⟨lss, rfl, heval, hmentions⟩ := ihs (fun d hd => ih d (List.mem_cons_of_mem e hd)) hmore
    refine ⟨ls :: lss, by rw [List.map_cons, hls.text_eq], fun i => ?_, fun l hl => ?_⟩
    · have := hls.eval_eq i
      rw [List.all_cons, heval, List.flatten_cons, List.all_append, ← this, Bool.bne_false]
    · rw [List.flatten_cons, List.mem_append] at hl
      rcases hl with hl | hl
      · exact (hls.mentions l hl).imp_right fun hm => ⟨e, List.mem_cons_self, hm⟩
      · exact (hmentions l hl).imp_right fun ⟨d, hd, hm⟩ => ⟨d, List.mem_cons_of_mem e hd, hm⟩

/-- A text that an expression has says what the expression does. -/
theorem says_of_fragment {negated : Bool} {e : Expr} {text : String} (h : fragment negated e = some text) :
    ∃ ls, Says negated e text ls := by
  induction e using Expr.induction generalizing negated text with
  | const b =>
    rw [fragment] at h
    split at h
    · rename_i hb
      cases h
      refine ⟨[], rfl, fun i => hb, fun l hl => ?_⟩
      cases hl
    · cases h
  | leaf l => exact says_of_leaf h
  | not e ih =>
    rw [fragment] at h
    obtain ⟨ls, hls⟩ := ih h
    refine ⟨ls, hls.text_eq, fun i => ?_, fun l hl => (hls.mentions l hl).imp_right .not⟩
    rw [← hls.eval_eq i]
    show ((!e.eval i) != negated) = _
    cases e.eval i <;> cases negated <;> rfl
  | and es ih =>
    cases negated with
    | true => cases h
    | false =>
      obtain ⟨fs, hfs, rfl⟩ := Option.map_eq_some_iff.mp h
      obtain ⟨lss, rfl, heval, hmentions⟩ := says_of_fragments (fun e he _ => ih e he) hfs
      refine ⟨lss.flatten, write_flatten lss, fun i => ?_, fun l hl => ?_⟩
      · rw [← heval i, Bool.bne_false, Expr.eval, Expr.evalWith_and]
        rfl
      · exact (hmentions l hl).imp_right fun ⟨e, he, hm⟩ => .and he hm
  | or es => cases h
  | perRepo entries fallback => cases h

/-- The search says what the expression does. -/
structure Finds (s : Search) (e : Expr) (ls : List Literal) : Prop where
  query_eq : s.query = write ls
  eval_eq : ∀ i, e.eval i = (s.covers i && ls.all (·.holds i))
  mentions : ∀ l ∈ ls, l.key = "is" ∨ e.Mentions l.leaf

theorem finds_of_ofExpr {e : Expr} {s : Search} (h : ofExpr e = some s) : ∃ ls, Finds s e ls := by
  unfold ofExpr at h
  split at h
  · rename_i r e
    obtain ⟨text, ht, rfl⟩ := Option.map_eq_some_iff.mp h
    obtain ⟨ls, hls⟩ := says_of_fragment ht
    refine ⟨ls, hls.text_eq, fun i => ?_, fun l hl => (hls.mentions l hl).imp_right (.entry List.mem_cons_self)⟩
    have he : e.eval i = ls.all (·.holds i) := by rw [← hls.eval_eq i, Bool.bne_false]
    rw [← he, Expr.eval, Expr.evalWith_perRepo, Expr.lookup_cons_eq_ite, covers, Option.all_some]
    by_cases hr : i.repository = r
    · subst hr
      rw [if_pos rfl, beq_self_eq_true, Bool.true_and]
      rfl
    · rw [if_neg hr, beq_eq_false_iff_ne.mpr (Ne.symm hr), Bool.false_and]
      rfl
  · obtain ⟨text, ht, rfl⟩ := Option.map_eq_some_iff.mp h
    obtain ⟨ls, hls⟩ := says_of_fragment ht
    refine ⟨ls, hls.text_eq, fun i => ?_, hls.mentions⟩
    rw [← hls.eval_eq i, Bool.bne_false]
    rfl

/-- The search of an expression reads as a list of literals, and the expression holds of just the issues of the
    repository that is searched, or of any, on which all these literals hold. -/
theorem query_reads_as_literals {e : Expr} {s : Search} (h : ofExpr e = some s) :
    ∃ ls : List Literal, s.query = " ".intercalate (ls.map Literal.text) ∧
      ∀ i : Issue, e.eval i = true ↔
        (s.repository = none ∨ s.repository = some i.repository) ∧ ∀ l ∈ ls, l.holds i = true := by
  obtain ⟨ls, hls⟩ := finds_of_ofExpr h
  refine ⟨ls, hls.query_eq, fun i => ?_⟩
  have heval : e.eval i = (s.covers i && ls.all (·.holds i)) := hls.eval_eq i
  rw [heval, Bool.and_eq_true, covers_iff, List.all_eq_true]

end Meaning

/-- Literals that are denied twice, said of the opposite and grouped, in one repository. -/
theorem query_reads_as_literals_denied :
    let r : Repository := ⟨"dotnet", "runtime", by decide, by decide, by decide, by decide⟩
    let e : Expr := .perRepo [(r, .and [.not (.not (.leaf (.label "a \"b\""))), .not (.const false),
      .and [.not (.leaf (.isOpen false)), .not (.leaf (.milestone (some "to do")))]])] (.const false)
    let query := "label:\"a \\\"b\\\"\" is:open -milestone:\"to do\""
    ofExpr e = some ⟨some r, query⟩ ∧ ∃ ls : List Literal, query = " ".intercalate (ls.map Literal.text) ∧
      ∀ i : Issue, e.eval i = true ↔
        (some r = none ∨ some r = some i.repository) ∧ ∀ l ∈ ls, l.holds i = true := by
  intro r e query
  have h : ofExpr e = some ⟨some r, query⟩ := by decide +kernel
  exact ⟨h, query_reads_as_literals h⟩

end Triage.Search
