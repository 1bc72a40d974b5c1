/-
  Triage.Proofs.Expr.Respelled — the case of names and the order of labels do not count.

  Two expressions correspond if they are the same tree with related leaves, and leaves that are related by their case
  alone are `Leaf.Respelled`. An issue is `Issue.Respelled` if its names are those of another one in any case, and its
  labels in any order. Each leaf but a pattern, which may tell the case of letters apart, has one value on both issues
  (`Leaf.eval_respelled`), so a whole expression has (`eval_eq_of_respelled`).
-/

import Triage.Proofs.Check
import Triage.Proofs.Expr.Leaves
import Triage.Proofs.Untriaged
import Triage.Regex.Engine

namespace Triage

/-! ## Names in another case -/

/-- Patterns tell more than names do. -/
def Leaf.isPattern : Leaf → Bool
  | .labelPattern _ | .milestonePattern _ => true
  | .label _ | .milestone _ | .isIssue _ | .isOpen _ | .assignee _ | .untriaged _ => false

/-- The same configuration with its names and prefixes in small letters. -/
def UntriagedConfig.folded (c : UntriagedConfig) : UntriagedConfig :=
  ⟨c.areaLabels.folded, c.issueTypeLabels.folded, c.requireMilestone⟩

/-- The leaves differ in the case of their names alone. -/
inductive Leaf.Respelled : Leaf → Leaf → Prop
  | label {a b : String} : Text.fold a = Text.fold b → Respelled (.label a) (.label b)
  | labelPattern (p : Pattern) : Respelled (.labelPattern p) (.labelPattern p)
  | milestone {a b : Option String} : a.map Text.fold = b.map Text.fold → Respelled (.milestone a) (.milestone b)
  | milestonePattern (p : Pattern) : Respelled (.milestonePattern p) (.milestonePattern p)
  | isIssue (b : Bool) : Respelled (.isIssue b) (.isIssue b)
  | isOpen (b : Bool) : Respelled (.isOpen b) (.isOpen b)
  | assignee {a b : Option String} : a.map Text.fold = b.map Text.fold → Respelled (.assignee a) (.assignee b)
  | untriaged {c c' : UntriagedConfig} : c.folded = c'.folded → Respelled (.untriaged c) (.untriaged c')

/-- The issues differ in the case of their names and the order of their labels alone. -/
structure Issue.Respelled (i j : Issue) : Prop where
  number : i.number = j.number
  repository : i.repository = j.repository
  labels : (i.labels.map Text.fold).Perm (j.labels.map Text.fold)
  milestone : i.milestone.map Text.fold = j.milestone.map Text.fold
  assignee : i.assignee.map Text.fold = j.assignee.map Text.fold
  state : i.state = j.state
  kind : i.kind = j.kind

/-! ## Leaves -/

theorem sameOptional_iff {a b : Option String} :
    sameOptional a b = true ↔ a.map Text.fold = b.map Text.fold := by
  cases a <;> cases b <;> simp [sameOptional, Text.sameName_iff]

theorem sameOptional_congr {a a' b b' : Option String} (ha : a.map Text.fold = a'.map Text.fold)
    (hb : b.map Text.fold = b'.map Text.fold) : sameOptional a b = sameOptional a' b' := by
  rw [Bool.eq_iff_iff, sameOptional_iff, sameOptional_iff, ha, hb]

namespace Issue.Respelled

variable {i j : Issue}

theorem hasLabel_eq (h : i.Respelled j) {a b : String} (hab : Text.fold a = Text.fold b) :
    i.hasLabel a = j.hasLabel b := by
  rw [Bool.eq_iff_iff, hasLabel_iff, hasLabel_iff, hab, h.labels.mem_iff]

theorem isUntriaged_eq (h : i.Respelled j) {c c' : UntriagedConfig} (hc : c.folded = c'.folded) :
    c.isUntriaged i = c'.isUntriaged j := by
  obtain ⟨harea, htype, hmilestone⟩ := UntriagedConfig.mk.inj hc
  have hnone : i.milestone.isNone = j.milestone.isNone := by
    rw [← Option.isNone_map (f := Text.fold), h.milestone, Option.isNone_map]
  rw [UntriagedConfig.isUntriaged, UntriagedConfig.isUntriaged, UntriagedConfig.flags, UntriagedConfig.flags, h.kind,
    LabelSet.count_congr harea h.labels, LabelSet.count_congr htype h.labels, hmilestone, hnone]

end Issue.Respelled

/-- On issues that differ like this, leaves that differ like this have one value. -/
theorem Leaf.eval_respelled [Engine] {l l' : Leaf} {i j : Issue} (hl : l.Respelled l') (hp : l.isPattern = false)
    (hi : i.Respelled j) : l.eval i = l'.eval j := by
  cases hl with
  | label h => exact hi.hasLabel_eq h
  | labelPattern p | milestonePattern p => cases hp
  | milestone h => exact sameOptional_congr h hi.milestone
  | isIssue b => rw [eval, eval, hi.kind]
  | isOpen b => rw [eval, eval, Issue.isOpen, Issue.isOpen, hi.state]
  | assignee h => exact sameOptional_congr h hi.assignee
  | untriaged h => exact hi.isUntriaged_eq h

/-! ## Expressions -/

namespace Expr

/-- One tree with leaves that are related, each to the one in its place. -/
inductive Corresponds (R : Leaf → Leaf → Prop) : Expr → Expr → Prop
  | const (b : Bool) : Corresponds R (.const b) (.const b)
  | leaf {l l' : Leaf} : R l l' → Corresponds R (.leaf l) (.leaf l')
  | not {e e' : Expr} : Corresponds R e e' → Corresponds R (.not e) (.not e')
  | and {es es' : List Expr} : List.Forall₂ (Corresponds R) es es' → Corresponds R (.and es) (.and es')
  | or {es es' : List Expr} : List.Forall₂ (Corresponds R) es es' → Corresponds R (.or es) (.or es')
  | perRepo {entries entries' : List (Repository × Expr)} {fallback fallback' : Expr} :
      entries.map Prod.fst = entries'.map Prod.fst →
      List.Forall₂ (Corresponds R) (entries.map Prod.snd) (entries'.map Prod.snd) →
      Corresponds R fallback fallback' → Corresponds R (.perRepo entries fallback) (.perRepo entries' fallback')

variable {R : Leaf → Leaf → Prop} {v v' : Leaf → Bool} {r : Repository}

/-- Related leaves that have one value each give corresponding expressions one value. -/
theorem evalWith_eq_of_corresponds {e e' : Expr} (hv : ∀ l l', e.Mentions l → R l l' → v l = v' l')
    (h : Corresponds R e e') : e.evalWith v r = e'.evalWith v' r := by
  induction e using Expr.induction generalizing e' with
  | const b =>
    cases h
    rfl
  | leaf l =>
    cases h with
    | leaf hl => exact hv _ _ .leaf hl
  | not e ih =>
    cases h with
    | not he => rw [evalWith_not, evalWith_not, ih (fun l l' hl => hv l l' (.not hl)) he]
  | and es ih =>
    cases h with
    | @and _ es' hes =>
      have hvalues : es'.map (evalWith v' r) = es.map (evalWith v r) :=
        map_eq_map_of_forall₂ (fun e he e' h => (ih e he (fun l l' hl => hv l l' (.and he hl)) h).symm) hes
      rw [evalWith_and, evalWith_and, ← Function.id_comp (evalWith v r), ← List.all_map, ← hvalues, List.all_map,
        Function.id_comp]
  | or es ih =>
    cases h with
    | @or _ es' hes =>
      have hvalues : es'.map (evalWith v' r) = es.map (evalWith v r) :=
        map_eq_map_of_forall₂ (fun e he e' h => (ih e he (fun l l' hl => hv l l' (.or he hl)) h).symm) hes
      rw [evalWith_or, evalWith_or, ← Function.id_comp (evalWith v r), ← List.any_map, ← hvalues, List.any_map,
        Function.id_comp]
  | perRepo entries fallback ih ihf =>
    cases h with
    | perRepo hkeys hentries hfallback =>
      rw [evalWith_perRepo, evalWith_perRepo]
      have hfound := found_rel (entries_rel hkeys hentries) hfallback r
      refine forall_found (p := fun d => ∀ d', Corresponds R d d' → d.evalWith v r = d'.evalWith v' r)
        ?_ ?_ r _ hfound
      · exact fun q hq d' hd => ih q hq (fun l l' hl => hv l l' (.entry hq hl)) hd
      · exact fun d' hd => ihf (fun l l' hl => hv l l' (.fallback hl)) hd

/-- Unless there are patterns, neither the case of any name nor the order of the labels changes whether an issue is
    found. -/
theorem eval_eq_of_respelled [Engine] {e e' : Expr} {i j : Issue} (hp : ∀ l, e.Mentions l → l.isPattern = false)
    (he : Corresponds Leaf.Respelled e e') (hi : i.Respelled j) : e.eval i = e'.eval j := by
  rw [eval, eval, ← hi.repository]
  exact evalWith_eq_of_corresponds (fun l l' hl hR => Leaf.eval_respelled hR (hp l hl) hi) he

/-- An issue with one area label and one label of a type, and the same one as somebody else writes it. -/
theorem eval_eq_of_respelled_triaged :
    let runtime : Repository := ⟨"dotnet", "runtime", by decide, by decide, by decide, by decide⟩
    let query (label milestone area kind : String) : Expr :=
      .perRepo [(runtime, .and [.not (.leaf (.untriaged ⟨⟨[], [area]⟩, ⟨[kind], []⟩, true⟩)),
        .or [.leaf (.label label), .leaf (.assignee none)], .leaf (.milestone (some milestone))])] (.const false)
    let i : Issue := { Issue.new runtime 1 with labels := ["area-IO", "Bug", "P1"], milestone := some "Next" }
    let j : Issue := { Issue.new runtime 1 with labels := ["p1", "AREA-io", "bug"], milestone := some "NEXT" }
    let e := query "p1" "next" "Area-" "BUG"
    let e' := query "P1" "Next" "area-" "bug"
    (∀ l, e.Mentions l → l.isPattern = false) ∧ Corresponds Leaf.Respelled e e' ∧ i.Respelled j ∧
      e.eval i = e'.eval j ∧ e.eval i = true := by
  intro runtime query i j e e'
  have hleaves : ∀ l ∈ e.leaves, l.isPattern = false := by decide
  have hp : ∀ l, e.Mentions l → l.isPattern = false := fun l hl => hleaves l (mem_leaves_iff.mpr hl)
  have he : Corresponds Leaf.Respelled e e' := by
    refine .perRepo rfl (.cons (.and (.cons (.not (.leaf (.untriaged (by decide)))) (.cons ?_ ?_))) .nil) (.const false)
    · exact .or (.cons (.leaf (.label (by decide))) (.cons (.leaf (.assignee rfl)) .nil))
    · exact .cons (.leaf (.milestone (by decide))) .nil
  have hi : i.Respelled j := ⟨rfl, rfl, by decide, by decide, rfl, rfl, rfl⟩
  exact ⟨hp, he, hi, eval_eq_of_respelled hp he hi, by decide⟩

end Expr

end Triage
