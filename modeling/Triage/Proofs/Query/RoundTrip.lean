/-
  Triage.Proofs.Query.RoundTrip — an expression that can be queried for is what its text is parsed to.

  The text of such an expression is one operand of the grammar if it stands in brackets where it has to
  (`WritesOperand`), and alternatives of it as it is (`WritesAlternatives`). Each construct hands its operands what
  follows them, which is always something that ends a value.
-/

import Triage.Expr.Text
import Triage.Proofs.Query.Queryable
import Triage.Proofs.Query.Token

namespace Triage.Query

section Write

variable {leaves : Leaves}

/-! ## Leaves -/

/-- The keys that leaves are written with. -/
def writtenKeys : List String := ["label", "milestone", "assignee", "no", "is"]

theorem reads_written {key : String} (hk : key ∈ writtenKeys) (value : String) {rest : List Char} (hr : Ended rest) :
    Reads [.pair key value] ((key ++ ":" ++ Value.write value).toList ++ rest) rest := by
  have hchars : ∃ cs, key = String.ofList cs ∧ SpelledKey cs := by
    simp only [writtenKeys, List.mem_cons, List.not_mem_nil, or_false] at hk
    rcases hk with rfl | rfl | rfl | rfl | rfl <;>
      exact ⟨_, rfl, .intro (by decide) (List.all_eq_true.mp (by decide))⟩
  obtain ⟨cs, rfl, hcs⟩ := hchars
  rw [String.toList_append, String.toList_append, String.toList_ofList, List.append_assoc cs]
  exact reads_pair hcs value hr

/-- The text of a leaf is a key and a value that are parsed to it. -/
theorem QueryableLeaf.text_eq {l : Leaf} (h : QueryableLeaf leaves l) : ∃ key ∈ writtenKeys, ∃ value,
    l.text = key ++ ":" ++ Value.write value ∧ leaf leaves key value = .ok (.leaf l) := by
  cases h with
  | label name => exact ⟨"label", by decide, name, rfl, rfl⟩
  | milestone name =>
    cases name with
    | none => exact ⟨"no", by decide, "milestone", by decide, rfl⟩
    | some name => exact ⟨"milestone", by decide, name, rfl, rfl⟩
  | assignee name =>
    cases name with
    | none => exact ⟨"no", by decide, "assignee", by decide, rfl⟩
    | some name => exact ⟨"assignee", by decide, name, rfl, rfl⟩
  | isIssue b =>
    cases b with
    | false => exact ⟨"is", by decide, "pr", by decide, rfl⟩
    | true => exact ⟨"is", by decide, "issue", by decide, rfl⟩
  | isOpen b =>
    cases b with
    | false => exact ⟨"is", by decide, "closed", by decide, rfl⟩
    | true => exact ⟨"is", by decide, "open", by decide, rfl⟩
  | untriaged hc =>
    have ht : "is:untriaged" = "is" ++ ":" ++ Value.write "untriaged" := by decide
    refine ⟨"is", by decide, "untriaged", ht, ?_⟩
    rw [leaf]
    simp only [hc]
    rfl

/-! ## Texts -/

/-- The text inside another expression is one operand, whatever ends it. -/
def WritesOperand (leaves : Leaves) (e : Expr) : Prop :=
  ∀ rest, Ended rest → ∃ w, Single leaves w (.ofExpr e) ∧ Reads w ((e.bracket e.text).toList ++ rest) rest

/-- The text is alternatives, whatever ends it. -/
def WritesAlternatives (leaves : Leaves) (e : Expr) : Prop :=
  ∀ rest, Ended rest → ∃ w fs, Alternatives leaves w fs ∧ joined .or fs = .ofExpr e ∧
    Reads w (e.text.toList ++ rest) rest

theorem WritesOperand.of_leaf {l : Leaf} (h : QueryableLeaf leaves l) : WritesOperand leaves (.leaf l) := by
  intro rest hr
  obtain ⟨key, hk, value, ht, hl⟩ := h.text_eq
  refine ⟨_, .pair hl, ?_⟩
  show Reads _ (l.text.toList ++ rest) rest
  rw [ht]
  exact reads_written hk value hr

theorem WritesOperand.not {e : Expr} (h : WritesOperand leaves e) : WritesOperand leaves (.not e) := by
  intro rest hr
  obtain ⟨w, hw, hread⟩ := h rest hr
  refine ⟨_, .not hw, ?_⟩
  show Reads _ (("!" ++ e.bracket e.text).toList ++ rest) rest
  rw [String.toList_append, List.append_assoc]
  exact (reads_not _).trans hread

theorem WritesOperand.alternatives {e : Expr} (he : e.isConnective = false) (h : WritesOperand leaves e) :
    WritesAlternatives leaves e := by
  intro rest hr
  obtain ⟨w, hw, hread⟩ := h rest hr
  rw [Expr.bracket, if_neg (by rw [he]; decide)] at hread
  exact ⟨w, _, .one (.one hw), rfl, hread⟩

theorem WritesAlternatives.operand {e : Expr} (he : e.isConnective = true) (h : WritesAlternatives leaves e) :
    WritesOperand leaves e := by
  intro rest hr
  obtain ⟨w, fs, hw, hfs, hread⟩ := h (')' :: rest) (.bracketRight rest)
  refine ⟨_, hfs ▸ Single.bracket hw, ?_⟩
  rw [Expr.bracket, if_pos he, String.toList_append, String.toList_append, List.append_assoc, List.append_assoc]
  exact (reads_bracketLeft _).trans (hread.trans (reads_bracketRight rest))

theorem joined_cons_cons (separator : String) (e e' : Expr) (es : List Expr) (rest : List Char) :
    (Expr.joined separator (e :: e' :: es)).toList ++ rest =
      (e.bracket e.text).toList ++ (separator.toList ++ ((Expr.joined separator (e' :: es)).toList ++ rest)) := by
  simp only [Expr.joined, Expr.joinedMore, String.toList_append, List.append_assoc]

theorem joined_singleton (separator : String) (e : Expr) : Expr.joined separator [e] = e.bracket e.text := by
  simp only [Expr.joined, Expr.joinedMore, String.append_empty]

/-- Operands with a separator between them are read as what the grammar derives from operands one after the other. -/
theorem reads_joined {derives : List Symbol → List Formula → Prop} {s : Symbol} (separator : String)
    (hone : ∀ {w f}, Single leaves w f → derives w [f])
    (hmore : ∀ {w f w' fs}, Single leaves w f → derives w' fs → derives (w ++ s :: w') (f :: fs))
    (hend : ∀ cs, Ended (separator.toList ++ cs)) (hsep : ∀ cs, Reads [s] (separator.toList ++ cs) cs)
    {e : Expr} {es : List Expr} (h : ∀ e' ∈ e :: es, WritesOperand leaves e') {rest : List Char} (hr : Ended rest) :
    ∃ w, derives w ((e :: es).map .ofExpr) ∧
      Reads w ((Expr.joined separator (e :: es)).toList ++ rest) rest := by
  induction es generalizing e with
  | nil =>
    obtain ⟨w, hw, hread⟩ := h e List.mem_cons_self rest hr
    exact ⟨w, hone hw, by rwa [joined_singleton]⟩
  | cons e' es ih =>
    obtain ⟨w', hw', hread'⟩ := ih fun d hd => h d (List.mem_cons_of_mem e hd)
    obtain ⟨w, hw, hread⟩ := h e List.mem_cons_self _ (hend _)
    refine ⟨w ++ s :: w', hmore hw hw', ?_⟩
    rw [joined_cons_cons]
    exact hread.trans ((hsep _).trans hread')

/-- Two operands or more stand under the connective. -/
theorem joined_of_two_le (connective : List Formula → Formula) {fs : List Formula} (h : 2 ≤ fs.length) :
    joined connective fs = connective fs := by
  obtain _ | ⟨f, _ | ⟨g, fs⟩⟩ := fs
  · cases h
  · exact absurd h (Nat.lt_irrefl 1)
  · rfl

theorem map_expr_ofExpr (es : List Expr) : (es.map Formula.ofExpr).map Formula.expr = es := by
  rw [List.map_map]
  exact List.map_id es

theorem writesAlternatives_and {es : List Expr} (hlen : 2 ≤ es.length) (h : ∀ e ∈ es, WritesOperand leaves e) :
    WritesAlternatives leaves (.and es) := by
  obtain ⟨e, es, rfl⟩ := List.exists_cons_of_length_pos (Nat.lt_of_lt_of_le Nat.two_pos hlen)
  intro rest hr
  obtain ⟨w, hw, hread⟩ : ∃ w, Operands leaves w ((e :: es).map .ofExpr) ∧
      Reads w ((Expr.joined " AND " (e :: es)).toList ++ rest) rest :=
    reads_joined " AND " .one .and (fun _ => .blank _) reads_and h hr
  refine ⟨w, _, .one hw, Formula.ext ?_, hread⟩
  show (joined .and _).expr = _
  rw [joined_of_two_le _ (by rwa [List.length_map]), Formula.expr_and, map_expr_ofExpr, Formula.expr_ofExpr]

theorem writesAlternatives_or {es : List Expr} (hlen : 2 ≤ es.length) (h : ∀ e ∈ es, WritesOperand leaves e) :
    WritesAlternatives leaves (.or es) := by
  obtain ⟨e, es, rfl⟩ := List.exists_cons_of_length_pos (Nat.lt_of_lt_of_le Nat.two_pos hlen)
  intro rest hr
  obtain ⟨w, hw, hread⟩ : ∃ w, Alternatives leaves w ((e :: es).map .ofExpr) ∧
      Reads w ((Expr.joined " OR " (e :: es)).toList ++ rest) rest :=
    reads_joined " OR " (fun h => .one (.one h)) (fun h => .or (.one h)) (fun _ => .blank _) reads_or h hr
  refine ⟨w, _, hw, Formula.ext ?_, hread⟩
  rw [joined_of_two_le _ (by rwa [List.length_map]), Formula.expr_or, map_expr_ofExpr, Formula.expr_ofExpr]

theorem Queryable.writesOperand {e : Expr} (h : Queryable leaves e) : WritesOperand leaves e := by
  induction h with
  | leaf h => exact .of_leaf h
  | not _ ih => exact ih.not
  | and hlen _ ih => exact (writesAlternatives_and hlen ih).operand rfl
  | or hlen _ ih => exact (writesAlternatives_or hlen ih).operand rfl

theorem Queryable.writesAlternatives {e : Expr} (h : Queryable leaves e) : WritesAlternatives leaves e := by
  have hop := h.writesOperand
  cases h with
  | leaf _ => exact hop.alternatives rfl
  | not _ => exact hop.alternatives rfl
  | and hlen h => exact writesAlternatives_and hlen fun e he => (h e he).writesOperand
  | or hlen h => exact writesAlternatives_or hlen fun e he => (h e he).writesOperand

theorem parse_text {e : Expr} (h : Queryable leaves e) : parse leaves e.text = .ok (.ofExpr e) := by
  obtain ⟨w, fs, hw, hfs, hread⟩ := h.writesAlternatives [] .nil
  rw [List.append_nil] at hread
  obtain ⟨ts, ht, rfl⟩ := tokenize_of_reads hread
  rw [String.ofList_toList] at ht
  rw [parse_of_alternatives ht hw, hfs]

/-- A parsed query is what its text is parsed to, if what the leaves stand for can be queried for. -/
theorem parse_text_of_parse (hl : QueryableLeaves leaves) {query : String} {f : Formula}
    (h : parse leaves query = .ok f) : parse leaves f.expr.text = .ok f := by
  rw [parse_text (parse_queryable hl h), Formula.ofExpr_expr]

end Write

/-- The text of an expression that can be queried for is parsed to it, with any leaves. A query without leaves of its
    own is parsed to what the text of the result is parsed to. -/
theorem parse_inverts_text :
    (∀ (leaves : Leaves) (e : Expr), Queryable leaves e → parse leaves e.text = .ok (.ofExpr e)) ∧
    ∀ (query : String) (f : Formula), parse .empty query = .ok f → parse .empty f.expr.text = .ok f :=
  ⟨fun _ _ h => parse_text h, fun _ _ h => parse_text_of_parse (fun _ _ hf => by cases hf) h⟩

/-- A name with a quote, a backslash and a line feed, and a query with brackets that its text does without. -/
theorem parse_inverts_text_nested :
    parse (.ofList [("untriaged", .leaf (.untriaged .empty))])
        (Expr.or [.and [.leaf (.label "a\"\\\n"), .not (.or [.leaf (.assignee (some "")), .leaf (.milestone none)])],
          .leaf (.untriaged .empty)]).text =
      .ok (.ofExpr (.or [.and [.leaf (.label "a\"\\\n"),
        .not (.or [.leaf (.assignee (some "")), .leaf (.milestone none)])], .leaf (.untriaged .empty)])) ∧
    parse .empty "!(is:open is:pr)||((-label:a))" =
      .ok (.or [.not (.and [.leaf (.isOpen true), .leaf (.isIssue false)]), .not (.leaf (.label "a"))]) ∧
    parse .empty "!(is:open AND is:pr) OR !label:a" =
      .ok (.or [.not (.and [.leaf (.isOpen true), .leaf (.isIssue false)]), .not (.leaf (.label "a"))]) := by
  have ht : tokenize "!(is:open is:pr)||((-label:a))" =
      .ok ⟨[⟨.not, 0⟩, ⟨.bracketLeft, 1⟩, ⟨.pair "is" "open", 2⟩, ⟨.pair "is" "pr", 10⟩, ⟨.bracketRight, 15⟩, ⟨.or, 16⟩,
        ⟨.bracketLeft, 18⟩, ⟨.bracketLeft, 19⟩, ⟨.pair "-label" "a", 20⟩, ⟨.bracketRight, 28⟩, ⟨.bracketRight, 29⟩],
        30⟩ := by decide +kernel
  have hparse : parse .empty "!(is:open is:pr)||((-label:a))" =
      .ok (.or [.not (.and [.leaf (.isOpen true), .leaf (.isIssue false)]), .not (.leaf (.label "a"))]) := by
    rw [parse_eq, ht]
    rfl
  have htext : (Expr.or [.not (.and [.leaf (.isOpen true), .leaf (.isIssue false)]), .not (.leaf (.label "a"))]).text =
      "!(is:open AND is:pr) OR !label:a" := by decide +kernel
  have hback := parse_inverts_text.2 _ _ hparse
  simp only [Formula.expr_or, Formula.expr_and, Formula.expr_not, Formula.expr_leaf, List.map_cons, List.map_nil,
    htext] at hback
  refine ⟨parse_inverts_text.1 _ _ ?_, hparse, hback⟩
  refine .or (by decide) ?_
  simp only [List.forall_mem_cons]
  refine ⟨.and (by decide) ?_, .leaf (.untriaged rfl), by simp⟩
  simp only [List.forall_mem_cons]
  refine ⟨.leaf (.label _), .not (.or (by decide) ?_), by simp⟩
  simp only [List.forall_mem_cons]
  exact ⟨.leaf (.assignee _), .leaf (.milestone _), by simp⟩

end Triage.Query
