/-
  Triage.Proofs.Query.Derivation — the parser accepts exactly what the grammar derives.

  That it reads what is derived is shown with the grammar. Here is the way back: whatever the parser has read is part
  of a derivation (`Begun`). In each pair of brackets that is open, the alternatives before the one being read, the
  operands before the one being read and the NOTs before the place are there (`OperandAwaited`), and right after an
  operand there is no more to wait for (`OperandRead`). Each move keeps that (`Begun.move`), so tokens that are read to
  an end are derived (`expression_derives`).

  A pair stands for what the table says (`Named`). No symbols are derived for two formulas: the parser would have to
  return both (`Derives.unique`).
-/

import Triage.Proofs.Query.Grammar
import Triage.Proofs.Query.Moves
import Mathlib.Data.List.Basic

namespace Triage.Query

/-- The symbols are a query, which stands for the formula. -/
def Derives (leaves : Leaves) (w : List Symbol) (f : Formula) : Prop :=
  ∃ fs, Alternatives leaves w fs ∧ joined .or fs = f

/-! ## Pairs -/

/-- The table of pairs. The case of ASCII letters does not count in keys, nor in the values of "no" and "is". -/
inductive Named (leaves : Leaves) (key value : String) : Formula → Prop
  | label : Text.fold key = "label" → Named leaves key value (.leaf (.label value))
  | notLabel : Text.fold key = "-label" → Named leaves key value (.not (.leaf (.label value)))
  | milestone : Text.fold key = "milestone" → Named leaves key value (.leaf (.milestone (some value)))
  | assignee : Text.fold key = "assignee" → Named leaves key value (.leaf (.assignee (some value)))
  | noMilestone : Text.fold key = "no" → Text.fold value = "milestone" →
      Named leaves key value (.leaf (.milestone none))
  | noAssignee : Text.fold key = "no" → Text.fold value = "assignee" →
      Named leaves key value (.leaf (.assignee none))
  | issue : Text.fold key = "is" → Text.fold value = "issue" → Named leaves key value (.leaf (.isIssue true))
  | pullRequest : Text.fold key = "is" → Text.fold value = "pr" → Named leaves key value (.leaf (.isIssue false))
  | opened : Text.fold key = "is" → Text.fold value = "open" → Named leaves key value (.leaf (.isOpen true))
  | closed : Text.fold key = "is" → Text.fold value = "closed" → Named leaves key value (.leaf (.isOpen false))
  | called {f : Formula} : Text.fold key = "is" → Text.fold value ∉ reservedNames →
      leaves.find? value = some f → Named leaves key value f

/-- The formula has the property, if there is one. -/
def Yields (p : Formula → Prop) (x : Except Cause Formula) : Prop := ∀ f, x = .ok f → p f

namespace Yields

variable {p : Formula → Prop}

theorem ok {f : Formula} (h : p f) : Yields p (.ok f) := by
  rintro _ ⟨⟩
  exact h

theorem error (cause : Cause) : Yields p (.error cause) := by
  rintro _ ⟨⟩

theorem ite {c : Prop} [Decidable c] {x y : Except Cause Formula} (hx : c → Yields p x) (hy : ¬ c → Yields p y) :
    Yields p (if c then x else y) := by
  split
  · exact hx ‹c›
  · exact hy ‹¬ c›

end Yields

section Table

variable {leaves : Leaves} {key value : String} {f : Formula}

theorem yields_named (leaves : Leaves) (key value : String) :
    Yields (Named leaves key value) (leaf leaves key value) := by
  rw [leaf]
  refine .ite (fun h => .ok (.label h)) fun _ => ?_
  refine .ite (fun h => .ok (.notLabel h)) fun _ => ?_
  refine .ite (fun h => .ok (.milestone h)) fun _ => ?_
  refine .ite (fun h => .ok (.assignee h)) fun _ => ?_
  refine .ite (fun hno => ?_) fun _ => .ite (fun his => ?_) fun _ => .error _
  · refine .ite (fun h => .ok (.noMilestone hno h)) fun _ => ?_
    exact .ite (fun h => .ok (.noAssignee hno h)) fun _ => .error _
  · refine .ite (fun h => .ok (.issue his h)) fun hissue => ?_
    refine .ite (fun h => .ok (.pullRequest his h)) fun hpr => ?_
    refine .ite (fun h => .ok (.opened his h)) fun hopen => ?_
    refine .ite (fun h => .ok (.closed his h)) fun hclosed => ?_
    have hfree : Text.fold value ∉ reservedNames := by
      simp only [reservedNames, List.mem_cons, List.not_mem_nil, or_false, not_or]
      exact ⟨hissue, hpr, hopen, hclosed⟩
    cases hf : leaves.find? value with
    | none => exact .error _
    | some f => exact .ok (.called his hfree hf)

theorem leaf_of_named (h : Named leaves key value f) : leaf leaves key value = .ok f := by
  unfold leaf
  cases h with
  | label hk | notLabel hk | milestone hk | assignee hk =>
    rw [hk]
    rfl
  | noMilestone hk hv | noAssignee hk hv | issue hk hv | pullRequest hk hv | opened hk hv | closed hk hv =>
    rw [hk, hv]
    rfl
  | called hk hv hf =>
    simp only [reservedNames, List.mem_cons, List.not_mem_nil, or_false, not_or] at hv
    obtain ⟨hissue, hpr, hopen, hclosed⟩ := hv
    rw [hk, hf]
    dsimp only
    rw [if_neg hissue, if_neg hpr, if_neg hopen, if_neg hclosed]
    rfl

theorem single_pair_iff : Single leaves [.pair key value] f ↔ Named leaves key value f := by
  constructor
  · rintro ⟨⟩
    exact yields_named leaves key value f ‹_›
  · exact fun h => .pair (leaf_of_named h)

end Table

section Derivation

variable {leaves : Leaves}

/-! ## One operand more -/

theorem Operands.cons {w separator w' : List Symbol} {f : Formula} {fs : List Formula}
    (hsep : separator = [] ∨ separator = [.and]) (h : Single leaves w f) (hfs : Operands leaves w' fs) :
    Operands leaves (w ++ (separator ++ w')) (f :: fs) := by
  rcases hsep with rfl | rfl
  · exact .beside h hfs
  · exact .and h hfs

theorem Operands.append_single {w separator w' : List Symbol} {fs : List Formula} {f : Formula}
    (hsep : separator = [] ∨ separator = [.and]) (hfs : Operands leaves w fs) (h : Single leaves w' f) :
    Operands leaves (w ++ (separator ++ w')) (fs ++ [f]) := by
  induction fs generalizing w with
  | nil => cases hfs
  | cons g fs ih =>
    cases hfs with
    | one hs => exact .cons hsep hs (.one h)
    | and hs hmore =>
      rw [List.append_assoc, List.cons_append]
      exact .and hs (ih hmore)
    | beside hs hmore =>
      rw [List.append_assoc]
      exact .beside hs (ih hmore)

theorem Alternatives.append_operands {w w' : List Symbol} {fs gs : List Formula} (hfs : Alternatives leaves w fs)
    (h : Operands leaves w' gs) : Alternatives leaves (w ++ .or :: w') (fs ++ [joined .and gs]) := by
  induction fs generalizing w with
  | nil => cases hfs
  | cons g fs ih =>
    cases hfs with
    | one hs => exact .or hs (.one h)
    | or hs hmore =>
      rw [List.append_assoc, List.cons_append]
      exact .or hs (ih hmore)

theorem single_negated {w : List Symbol} {f : Formula} (h : Single leaves w f) (n : Nat) :
    Single leaves (List.replicate n .not ++ w) (Group.negated f n) := by
  induction n with
  | zero => exact h
  | succ n ih => exact .not ih

/-! ## What has been read inside a pair of brackets -/

/-- Alternatives before the one being read, latest first. -/
inductive AlternativesBefore (leaves : Leaves) : List Symbol → List Formula → Prop
  | none : AlternativesBefore leaves [] []
  | some {w : List Symbol} {fs : List Formula} : Alternatives leaves w fs →
      AlternativesBefore leaves (w ++ [.or]) fs.reverse

/-- Operands before the one being read, latest first. -/
inductive OperandsBefore (leaves : Leaves) : List Symbol → List Formula → Prop
  | none : OperandsBefore leaves [] []
  | and {w : List Symbol} {fs : List Formula} : Operands leaves w fs → OperandsBefore leaves (w ++ [.and]) fs.reverse
  | beside {w : List Symbol} {fs : List Formula} : Operands leaves w fs → OperandsBefore leaves w fs.reverse

/-- The symbols are those of the group, up to where an operand may start. -/
inductive OperandAwaited (leaves : Leaves) : List Symbol → Group → Prop
  | intro {v w : List Symbol} {ors ands : List Formula} (n : Nat) : AlternativesBefore leaves v ors →
      OperandsBefore leaves w ands → OperandAwaited leaves (v ++ (w ++ List.replicate n .not)) ⟨ors, ands, n⟩

/-- The symbols are those of the group, up to the end of an operand. -/
inductive OperandRead (leaves : Leaves) : List Symbol → Group → Prop
  | intro {v w : List Symbol} {ors fs : List Formula} : AlternativesBefore leaves v ors → Operands leaves w fs →
      OperandRead leaves (v ++ w) ⟨ors, fs.reverse, 0⟩

theorem AlternativesBefore.push {v w : List Symbol} {ors fs : List Formula} (h : AlternativesBefore leaves v ors)
    (hs : Operands leaves w fs) : Alternatives leaves (v ++ w) (joined .and fs :: ors).reverse := by
  cases h with
  | none => exact .one hs
  | some h =>
    rw [List.reverse_cons, List.reverse_reverse, List.append_assoc]
    exact h.append_operands hs

theorem OperandsBefore.push {w w' : List Symbol} {ands : List Formula} {f : Formula}
    (h : OperandsBefore leaves w ands) (hs : Single leaves w' f) :
    Operands leaves (w ++ w') (f :: ands).reverse := by
  cases h with
  | none => exact .one hs
  | and h =>
    rw [List.reverse_cons, List.reverse_reverse, List.append_assoc]
    exact h.append_single (.inr rfl) hs
  | beside h =>
    rw [List.reverse_cons, List.reverse_reverse]
    exact h.append_single (.inl rfl) hs

namespace OperandAwaited

variable {w : List Symbol} {g : Group}

theorem empty : OperandAwaited leaves [] .empty := .intro 0 .none .none

theorem not (h : OperandAwaited leaves w g) : OperandAwaited leaves (w ++ [.not]) { g with nots := g.nots + 1 } := by
  obtain ⟨n, hv, hw⟩ := h
  rw [List.append_assoc, List.append_assoc, ← List.replicate_succ']
  exact .intro (n + 1) hv hw

theorem push {w' : List Symbol} {f : Formula} (h : OperandAwaited leaves w g) (hs : Single leaves w' f) :
    OperandRead leaves (w ++ w') (g.push f) := by
  obtain ⟨n, hv, hw⟩ := h
  have hread := OperandRead.intro hv (hw.push (single_negated hs n))
  rw [List.reverse_reverse] at hread
  rw [List.append_assoc, List.append_assoc]
  exact hread

end OperandAwaited

namespace OperandRead

variable {w : List Symbol} {g : Group}

theorem beside (h : OperandRead leaves w g) : OperandAwaited leaves w g := by
  obtain ⟨hv, hw⟩ := h
  have := OperandAwaited.intro 0 hv (.beside hw)
  rwa [List.replicate_zero, List.append_nil] at this

theorem and (h : OperandRead leaves w g) : OperandAwaited leaves (w ++ [.and]) g := by
  obtain ⟨hv, hw⟩ := h
  have := OperandAwaited.intro 0 hv (.and hw)
  rwa [List.replicate_zero, List.append_nil, ← List.append_assoc] at this

theorem close (h : OperandRead leaves w g) :
    Alternatives leaves w (g.alternative :: g.ors).reverse := by
  obtain ⟨hv, hw⟩ := h
  rw [Group.alternative_reverse]
  exact hv.push hw

theorem or (h : OperandRead leaves w g) : OperandAwaited leaves (w ++ [.or]) g.nextAlternative := by
  have := OperandAwaited.intro 0 (.some h.close) .none
  rwa [List.replicate_zero, List.append_nil, List.append_nil, List.reverse_reverse] at this

theorem bracket (h : OperandRead leaves w g) : Single leaves (.bracketLeft :: (w ++ [.bracketRight])) g.close :=
  .bracket h.close

end OperandRead

/-! ## The whole of what has been read -/

/-- The symbols are those of the groups outside, up to the bracket that was opened last. -/
inductive Opened (leaves : Leaves) : List Symbol → List (Nat × Group) → Prop
  | none : Opened leaves [] []
  | bracket {v w : List Symbol} {g : Group} {outer : List (Nat × Group)} (p : Nat) : Opened leaves v outer →
      OperandAwaited leaves w g → Opened leaves (v ++ (w ++ [.bracketLeft])) ((p, g) :: outer)

/-- The symbols begin a derivation, and what is not complete in it is what the parser holds. -/
inductive Begun (leaves : Leaves) : List Symbol → Reading → Prop
  | intro {v w : List Symbol} {awaited : Awaited} {g : Group} {outer : List (Nat × Group)} : Opened leaves v outer →
      OperandAwaited leaves w g → (awaited = .operator → OperandRead leaves w g) →
      Begun leaves (v ++ w) ⟨awaited, g, outer⟩

namespace Begun

variable {w : List Symbol} {s s' : Reading} {t : Token}

theorem start : Begun leaves [] .start := .intro .none .empty (by rintro ⟨⟩)

theorem move (h : Begun leaves w s) (ht : Moves leaves t s s') : Begun leaves (w ++ [t.symbol]) s' := by
  obtain ⟨ho, hg, hread⟩ := h
  cases ht with
  | not =>
    rw [List.append_assoc]
    exact .intro ho hg.not (by rintro ⟨⟩)
  | @bracketLeft p =>
    rw [List.append_assoc, ← List.append_nil (_ ++ _)]
    exact .intro (.bracket p ho hg) .empty (by rintro ⟨⟩)
  | pair hf =>
    have hr := hg.push (.pair hf)
    rw [List.append_assoc]
    exact .intro ho hr.beside fun _ => hr
  | and =>
    rw [List.append_assoc]
    exact .intro ho (hread rfl).and (by rintro ⟨⟩)
  | or =>
    rw [List.append_assoc]
    exact .intro ho (hread rfl).or (by rintro ⟨⟩)
  | bracketRight =>
    cases ho with
    | bracket _ ho hu =>
      -- the group outside goes on with the whole bracket as one operand
      have hr := hu.push (hread rfl).bracket
      simpa using Begun.intro ho hr.beside fun _ => hr

theorem derives {g : Group} (h : Begun leaves w ⟨.operator, g, []⟩) : Derives leaves w g.close := by
  obtain ⟨ho, -, hread⟩ := h
  cases ho
  exact ⟨_, (hread rfl).close, rfl⟩

end Begun

/-- Each token keeps what has begun. -/
theorem begun_of_goes {used : List Token} {s : Reading} (h : Goes leaves used .start s) :
    Begun leaves (used.map Token.symbol) s := by
  have hstart : Begun leaves (List.map Token.symbol []) .start := .start
  refine h.keeps (fun read t s s' (hs : Begun leaves (read.map Token.symbol) s) ht => ?_) hstart
  rw [List.map_append]
  exact hs.move ht

/-! ## Queries -/

theorem rest_eq_nil_of_finish {p : Parser} (h : p.finish = .ok ()) : p.rest = [] := by
  unfold Parser.finish at h
  split at h
  · assumption
  · split at h <;> cases h

theorem expression_derives {ts : List Token} {stop : Nat} {f : Formula} {p : Parser}
    (h : (Parser.mk leaves ts stop).expression = (.ok f, p)) :
    ∃ used, ts = used ++ p.rest ∧ Derives leaves (used.map Token.symbol) f := by
  obtain ⟨used, g, hts, hused, rfl, -⟩ := goes_of_expression_ok h
  exact ⟨used, hts, (begun_of_goes hused).derives⟩

theorem parse_derives {query : String} {f : Formula} (h : parse leaves query = .ok f) :
    ∃ ts, tokenize query = .ok ts ∧ Derives leaves (ts.items.map Token.symbol) f := by
  obtain ⟨ts, p, ht, he, hend⟩ := parts_of_parse_ok h
  obtain ⟨used, hts, hd⟩ := expression_derives he
  rw [rest_eq_nil_of_finish hend, List.append_nil] at hts
  exact ⟨ts, ht, hts ▸ hd⟩

theorem Derives.parse {query : String} {ts : Tokens} {f : Formula} (ht : tokenize query = .ok ts)
    (h : Derives leaves (ts.items.map Token.symbol) f) : parse leaves query = .ok f := by
  obtain ⟨fs, hfs, rfl⟩ := h
  exact parse_of_alternatives ht hfs

theorem Derives.unique {w : List Symbol} {f g : Formula} (hf : Derives leaves w f) (hg : Derives leaves w g) :
    f = g := by
  obtain ⟨fs, hfs, rfl⟩ := hf
  obtain ⟨gs, hgs, rfl⟩ := hg
  obtain ⟨ts, rfl⟩ : ∃ ts : List Token, w = ts.map Token.symbol :=
    ⟨w.map fun s => ⟨s, 0⟩, by simp [Function.comp_def]⟩
  have hr := (expression_of_alternatives hfs 0).symm.trans (expression_of_alternatives hgs 0)
  injection hr with hr
  injection hr

end Derivation

/-- A query is parsed to a formula exactly if its tokens are derived for it, where pairs stand for what the table says,
    and no symbols are derived for two formulas. -/
theorem parse_eq_ok_iff_derives (leaves : Leaves) :
    (∀ query f, parse leaves query = .ok f ↔
      ∃ ts, tokenize query = .ok ts ∧ Derives leaves (ts.items.map Token.symbol) f) ∧
    (∀ key value f, Single leaves [.pair key value] f ↔ Named leaves key value f) ∧
    ∀ w f g, Derives leaves w f → Derives leaves w g → f = g := by
  refine ⟨fun query f => ⟨parse_derives, ?_⟩, fun _ _ _ => single_pair_iff, fun _ _ _ hf hg => hf.unique hg⟩
  rintro ⟨ts, ht, h⟩
  exact h.parse ht

/-- Juxtaposition, a bracket and a leaf called by another spelling of its name. -/
theorem parse_eq_ok_iff_derives_called :
    let leaves : Leaves := .ofList [("Mine", .leaf (.label "m"))]
    let f : Formula := .or [.and [.leaf (.label "m"), .not (.leaf (.isIssue false))], .not (.leaf (.label "x"))]
    parse leaves "is:mine !(IS:pr)||-label:x" = .ok f ∧
    ∀ g, Derives leaves [.pair "is" "mine", .not, .bracketLeft, .pair "IS" "pr", .bracketRight, .or,
      .pair "-label" "x"] g → g = f := by
  intro leaves f
  have ht : tokenize "is:mine !(IS:pr)||-label:x" =
      .ok ⟨[⟨.pair "is" "mine", 0⟩, ⟨.not, 8⟩, ⟨.bracketLeft, 9⟩, ⟨.pair "IS" "pr", 10⟩, ⟨.bracketRight, 15⟩, ⟨.or, 16⟩,
        ⟨.pair "-label" "x", 18⟩], 26⟩ := by decide +kernel
  obtain ⟨hparse, htable, hunique⟩ := parse_eq_ok_iff_derives leaves
  have hmine : Single leaves [.pair "is" "mine"] (.leaf (.label "m")) :=
    (htable _ _ _).mpr (.called (by decide) (by decide) rfl)
  have hpr : Single leaves [.pair "IS" "pr"] (.leaf (.isIssue false)) :=
    (htable _ _ _).mpr (.pullRequest (by decide) (by decide))
  have hx : Single leaves [.pair "-label" "x"] (.not (.leaf (.label "x"))) :=
    (htable _ _ _).mpr (.notLabel (by decide))
  have hd : Derives leaves [.pair "is" "mine", .not, .bracketLeft, .pair "IS" "pr", .bracketRight, .or,
      .pair "-label" "x"] f :=
    ⟨_, .or (.beside hmine (.one (.not (.bracket (.one (.one hpr)))))) (.one (.one hx)), rfl⟩
  exact ⟨(hparse _ _).mpr ⟨_, ht, hd⟩, fun g hg => hunique _ g f hg hd⟩

end Triage.Query
