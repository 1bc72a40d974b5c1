/-
  Triage.Proofs.Expr.Contents — a normal form is made of what the expression is made of.

  An expression is made of leaves and of repositories that have an entry of their own (`MadeOf`). Normalizing puts
  operands together, chooses among them, negates them and moves entries to the root, and each of these steps keeps to
  the leaves and repositories that are there (`madeOf_disjunction`, `madeOf_conjunction`, `madeOf_negate`). So nothing
  in a normal form is new, and no name is warned of that was not warned of before.
-/

import Triage.Proofs.Expr.Canonical
import Triage.Proofs.Warning

namespace Triage.Expr

/-- The repository has an entry of its own somewhere in the expression. -/
def HasEntry (r : Repository) (e : Expr) : Prop :=
  ∃ entries fallback, Within (.perRepo entries fallback) e ∧ r ∈ entries.map Prod.fst

/-- All leaves in the expression satisfy `p`, and all repositories with an entry in it satisfy `q`. -/
inductive MadeOf (p : Leaf → Prop) (q : Repository → Prop) : Expr → Prop
  | const (b : Bool) : MadeOf p q (.const b)
  | leaf {l : Leaf} : p l → MadeOf p q (.leaf l)
  | not {e : Expr} : MadeOf p q e → MadeOf p q (.not e)
  | and {es : List Expr} : (∀ e ∈ es, MadeOf p q e) → MadeOf p q (.and es)
  | or {es : List Expr} : (∀ e ∈ es, MadeOf p q e) → MadeOf p q (.or es)
  | perRepo {entries : List (Repository × Expr)} {fallback : Expr} : (∀ x ∈ entries, q x.1) →
      (∀ x ∈ entries, MadeOf p q x.2) → MadeOf p q fallback → MadeOf p q (.perRepo entries fallback)

section MadeOf

variable {p : Leaf → Prop} {q : Repository → Prop} {e : Expr} {es : List Expr}

/-! ## What an expression is made of -/

theorem madeOf_of_forall (hp : ∀ l, e.Mentions l → p l) (hq : ∀ r, e.HasEntry r → q r) : MadeOf p q e := by
  have hentry : ∀ {r : Repository} {d e : Expr}, (∀ {c}, Within c d → Within c e) → d.HasEntry r → e.HasEntry r := by
    rintro r d e hde ⟨entries, fallback, hw, hr⟩
    exact ⟨entries, fallback, hde hw, hr⟩
  induction e using Expr.induction with
  | const b => exact .const b
  | leaf l => exact .leaf (hp l .leaf)
  | not e ih => exact .not (ih (fun l hl => hp l (.not hl)) fun r hr => hq r (hentry .not hr))
  | and es ih =>
    exact .and fun e he => ih e he (fun l hl => hp l (.and he hl)) fun r hr => hq r (hentry (.and he) hr)
  | or es ih =>
    exact .or fun e he => ih e he (fun l hl => hp l (.or he hl)) fun r hr => hq r (hentry (.or he) hr)
  | perRepo entries fallback ih ihf =>
    refine .perRepo (fun x hx => ?_) (fun x hx => ?_) ?_
    · exact hq x.1 ⟨entries, fallback, .self, List.mem_map_of_mem hx⟩
    · exact ih x hx (fun l hl => hp l (.entry hx hl)) fun r hr => hq r (hentry (.entry hx) hr)
    · exact ihf (fun l hl => hp l (.fallback hl)) fun r hr => hq r (hentry .fallback hr)

theorem MadeOf.within (h : MadeOf p q e) {d : Expr} (hd : Within d e) : MadeOf p q d := by
  induction hd with
  | self => exact h
  | not _ ih => cases h with | not h => exact ih h
  | and he _ ih => cases h with | and h => exact ih (h _ he)
  | or he _ ih => cases h with | or h => exact ih (h _ he)
  | entry hx _ ih => cases h with | perRepo _ he _ => exact ih (he _ hx)
  | fallback _ ih => cases h with | perRepo _ _ hf => exact ih hf

theorem within_of_mentions {l : Leaf} (h : e.Mentions l) : Within (.leaf l) e := by
  induction h with
  | leaf => exact .self
  | not _ ih => exact .not ih
  | and he _ ih => exact .and he ih
  | or he _ ih => exact .or he ih
  | entry hx _ ih => exact .entry hx ih
  | fallback _ ih => exact .fallback ih

theorem MadeOf.leaf_of_mentions (h : MadeOf p q e) {l : Leaf} (hl : e.Mentions l) : p l := by
  cases h.within (within_of_mentions hl) with
  | leaf hp => exact hp

theorem MadeOf.of_hasEntry (h : MadeOf p q e) {r : Repository} (hr : e.HasEntry r) : q r := by
  obtain ⟨entries, fallback, hw, hr⟩ := hr
  obtain ⟨x, hx, rfl⟩ := List.mem_map.mp hr
  cases h.within hw with
  | perRepo hq => exact hq x hx

/-! ## Operands -/

theorem MadeOf.operand (h : MadeOf p q e) {d : Expr} (hd : d ∈ e.operands) : MadeOf p q d := by
  cases h with
  | and h => exact h d hd
  | or h => exact h d hd
  | const | leaf | not | perRepo => cases hd

theorem MadeOf.inRepo (h : MadeOf p q e) (r : Repository) : MadeOf p q (e.inRepo r) := by
  cases h with
  | perRepo _ he hf => exact forall_found he hf r
  | const b => exact .const b
  | leaf h => exact .leaf h
  | not h => exact .not h
  | and h => exact .and h
  | or h => exact .or h

theorem MadeOf.elsewhere (h : MadeOf p q e) : MadeOf p q e.elsewhere := by
  cases h with
  | perRepo _ _ hf => exact hf
  | const b => exact .const b
  | leaf h => exact .leaf h
  | not h => exact .not h
  | and h => exact .and h
  | or h => exact .or h

theorem madeOf_of_mem_disjuncts (h : ∀ e ∈ es, MadeOf p q e) {c : Expr} (hc : c ∈ disjuncts es) : MadeOf p q c := by
  rcases mem_dissolveOr_iff.mp (mem_dissolveOr_of_mem_disjuncts hc) with ⟨ds, hds, hcd⟩ | ⟨hm, -⟩
  · exact (h _ hds).operand hcd
  · exact h c hm

theorem madeOf_of_mem_conjuncts (h : ∀ e ∈ es, MadeOf p q e) {c : Expr} (hc : c ∈ conjuncts es) : MadeOf p q c := by
  rcases mem_dissolveAnd_iff.mp (mem_dissolveAnd_of_mem_conjuncts hc) with ⟨ds, hds, hcd⟩ | ⟨hm, -⟩
  · exact (h _ hds).operand hcd
  · exact h c hm

theorem madeOf_of_mem_branch (h : ∀ e ∈ es, MadeOf p q e) {branch : List Expr} (hb : branch ∈ branches es) :
    ∀ c ∈ branch, MadeOf p q c := by
  intro c hc
  rcases mem_branch_cases hb hc with ⟨hm, -⟩ | ⟨o, hm, -, hco⟩
  · exact h c hm
  · exact (h o hm).operand hco

/-! ## Expressions per repository -/

theorem madeOf_ofEntries {entries : List (Repository × Expr)} {fallback : Expr} (hr : ∀ x ∈ entries, q x.1)
    (he : ∀ x ∈ entries, MadeOf p q x.2) (hf : MadeOf p q fallback) : MadeOf p q (ofEntries entries fallback) := by
  have hkept : ∀ x ∈ keptEntries entries fallback, q x.1 ∧ MadeOf p q x.2 := by
    intro x hx
    rcases (mem_keptEntries hx).1 with ⟨d, hd, hxd⟩ | ⟨more, d, rfl, hmore⟩
    · rw [hxd]
      exact ⟨hr (x.1, d) hd, (he (x.1, d) hd).inRepo x.1⟩
    · cases hf with
      | perRepo hq hm => exact ⟨hq x hmore, hm x hmore⟩
  rw [ofEntries_eq]
  split
  · exact hf.elsewhere
  · exact .perRepo (fun x hx => (hkept x hx).1) (fun x hx => (hkept x hx).2) hf.elsewhere

theorem madeOf_bubbled {connective : List Expr → Expr} (h : ∀ e ∈ es, MadeOf p q e)
    (hr : ∀ r, MadeOf p q (connective (allInRepo r es))) (he : MadeOf p q (connective (allElsewhere es))) :
    MadeOf p q (bubbled connective es) := by
  refine madeOf_ofEntries (fun x hx => ?_) (fun x hx => ?_) he
  · obtain ⟨r, hm, rfl⟩ := List.mem_map.mp hx
    rw [repositories, List.mem_eraseDups, List.mem_flatMap] at hm
    obtain ⟨e, hem, hre⟩ := hm
    cases h e hem with
    | perRepo hq =>
      obtain ⟨y, hy, rfl⟩ := List.mem_map.mp hre
      exact hq y hy
    | const | leaf | not | and | or => cases hre
  · obtain ⟨r, -, rfl⟩ := List.mem_map.mp hx
    exact hr r

/-! ## Normalizing -/

theorem madeOf_disjunction (h : ∀ e ∈ es, MadeOf p q e) : MadeOf p q (disjunction es) := by
  induction es using connective_induction with
  | bubbled es hr ih ihf =>
    rw [disjunction_of_perRepo hr]
    exact madeOf_bubbled h (fun r => ih r (List.forall_mem_map.mpr fun e he => (h e he).inRepo r))
      (ihf (List.forall_mem_map.mpr fun e he => (h e he).elsewhere))
  | plain es hr =>
    rw [disjunction_eq hr]
    split
    · exact .const true
    · refine collapse_cases _ (fun _ => .const false) (fun e he => ?_) fun _ => .or fun e he => ?_
      · exact madeOf_of_mem_disjuncts h (he ▸ List.mem_singleton_self e)
      · exact madeOf_of_mem_disjuncts h he

theorem madeOf_conjunction (h : ∀ e ∈ es, MadeOf p q e) : MadeOf p q (conjunction es) := by
  induction es using connective_induction with
  | bubbled es hr ih ihf =>
    rw [conjunction_of_perRepo hr]
    exact madeOf_bubbled h (fun r => ih r (List.forall_mem_map.mpr fun e he => (h e he).inRepo r))
      (ihf (List.forall_mem_map.mpr fun e he => (h e he).elsewhere))
  | plain es hr ih =>
    have hconjuncts : ∀ c ∈ conjuncts es, MadeOf p q c := fun c => madeOf_of_mem_conjuncts h
    rw [conjunction_eq hr]
    split
    · exact .const false
    · refine collapse_cases _ (fun _ => .const true) (fun e he => ?_) fun _ => ?_
      · exact hconjuncts e (he ▸ List.mem_singleton_self e)
      · rw [multiply]
        split
        · exact .and hconjuncts
        · rename_i hk
          refine madeOf_disjunction (List.forall_mem_map.mpr fun branch hb => ?_)
          exact ih (not_or.mp hk).1 branch hb (madeOf_of_mem_branch hconjuncts hb)

theorem madeOf_negate (h : MadeOf p q e) : MadeOf p q e.negate := by
  induction h with
  | const b => exact .const !b
  | leaf hl => exact .not (.leaf hl)
  | not h => exact h
  | and _ ih =>
    rw [negate, negateAll_eq_map]
    exact madeOf_disjunction (List.forall_mem_map.mpr ih)
  | or _ ih =>
    rw [negate, negateAll_eq_map]
    exact madeOf_conjunction (List.forall_mem_map.mpr ih)
  | @perRepo entries fallback hq _ _ ih ihf =>
    rw [negate, negateEntries_eq_map]
    exact madeOf_ofEntries (List.forall_mem_map.mpr hq) (List.forall_mem_map.mpr ih) ihf

theorem madeOf_normalize (h : MadeOf p q e) : MadeOf p q e.normalize := by
  induction h with
  | const b => exact .const b
  | leaf hl => exact .leaf hl
  | not _ ih => exact madeOf_negate ih
  | and _ ih =>
    rw [normalize, normalizeAll_eq_map]
    exact madeOf_conjunction (List.forall_mem_map.mpr ih)
  | or _ ih =>
    rw [normalize, normalizeAll_eq_map]
    exact madeOf_disjunction (List.forall_mem_map.mpr ih)
  | @perRepo entries fallback hq _ _ ih ihf =>
    rw [normalize, normalizeEntries_eq_map]
    exact madeOf_ofEntries (List.forall_mem_map.mpr hq) (List.forall_mem_map.mpr ih) ihf

end MadeOf

/-- Each leaf of a normal form is one of the expression, each repository with an entry in it has an entry in the
    expression, and whatever a collection does not know of it, it does not know of the expression. -/
theorem normalize_invents_nothing (e : Expr) :
    (∀ l, e.normalize.Mentions l → e.Mentions l) ∧ (∀ r, e.normalize.HasEntry r → e.HasEntry r) ∧
      ∀ known : Issue.Names, ∀ w ∈ e.normalize.warnings known, w ∈ e.warnings known := by
  have h : MadeOf e.Mentions e.HasEntry e.normalize := madeOf_normalize (madeOf_of_forall (fun _ => id) fun _ => id)
  have hleaf : ∀ l, e.normalize.Mentions l → e.Mentions l := fun l => h.leaf_of_mentions
  refine ⟨hleaf, fun r => h.of_hasEntry, fun known w hw => ?_⟩
  rw [mem_warnings_iff] at hw ⊢
  exact ⟨hleaf w.leaf hw.1, hw.2⟩

end Triage.Expr
