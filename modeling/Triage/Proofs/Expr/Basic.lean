/-
  Triage.Proofs.Expr.Basic — induction over expressions, and the functions on operand lists as maps.

  The functions on expressions go through operands and entries by a function beside them. Each of these is a map or
  a test of all elements, so that a proof about an expression has one case for each kind of expression and speaks of
  the members of its lists.
-/

import Mathlib.Data.List.Forall2
import Triage.Expr.Basic
import Triage.Expr.Formula

namespace Triage.Expr

/-- One case for each kind of expression, with the hypothesis for all operands or entries. -/
@[elab_as_elim]
theorem induction {motive : Expr → Prop} (const : ∀ b, motive (.const b)) (leaf : ∀ l, motive (.leaf l))
    (not : ∀ e, motive e → motive (.not e)) (and : ∀ es, (∀ e ∈ es, motive e) → motive (.and es))
    (or : ∀ es, (∀ e ∈ es, motive e) → motive (.or es))
    (perRepo : ∀ entries fallback, (∀ p ∈ entries, motive p.2) → motive fallback → motive (.perRepo entries fallback))
    (e : Expr) : motive e := by
  refine @Expr.rec motive (fun es => ∀ e ∈ es, motive e) (fun entries => ∀ p ∈ entries, motive p.2)
    (fun p => motive p.2)
    const leaf not and or perRepo ?_ ?_ ?_ ?_ (fun _ _ h => h) e
  · intro e he; cases he
  · intro e es h hs
    exact List.forall_mem_cons.mpr ⟨h, hs⟩
  · intro p hp; cases hp
  · intro p entries h hs
    exact List.forall_mem_cons.mpr ⟨h, hs⟩

/-- The leaf stands somewhere in the expression. -/
inductive Mentions (l : Leaf) : Expr → Prop
  | leaf : Mentions l (.leaf l)
  | not {e : Expr} : Mentions l e → Mentions l (.not e)
  | and {e : Expr} {es : List Expr} : e ∈ es → Mentions l e → Mentions l (.and es)
  | or {e : Expr} {es : List Expr} : e ∈ es → Mentions l e → Mentions l (.or es)
  | entry {p : Repository × Expr} {entries : List (Repository × Expr)} {fallback : Expr} : p ∈ entries →
      Mentions l p.2 → Mentions l (.perRepo entries fallback)
  | fallback {entries : List (Repository × Expr)} {fallback : Expr} : Mentions l fallback →
      Mentions l (.perRepo entries fallback)

/-! ## Entries -/

theorem lookup_cons_eq_ite {κ α : Type} [DecidableEq κ] (k l : κ) (a : α) (entries : List (κ × α)) :
    ((l, a) :: entries).lookup k = if k = l then some a else entries.lookup k := by
  rw [List.lookup_cons]
  by_cases h : k = l
  · rw [if_pos h, h, beq_self_eq_true]
  · rw [if_neg h, beq_eq_false_iff_ne.mpr h]

section Keys

variable {κ α β : Type}

theorem entries_rel {S : α → β → Prop} {as : List (κ × α)} {bs : List (κ × β)}
    (hkeys : as.map Prod.fst = bs.map Prod.fst) (hvalues : List.Forall₂ S (as.map Prod.snd) (bs.map Prod.snd)) :
    List.Forall₂ (fun p q => p.1 = q.1 ∧ S p.2 q.2) as bs := by
  rw [← List.forall₂_eq_eq_eq, List.forall₂_map_left_iff, List.forall₂_map_right_iff] at hkeys
  rw [List.forall₂_map_left_iff, List.forall₂_map_right_iff] at hvalues
  exact List.Forall₂.mp (fun _ _ => And.intro) hkeys hvalues

variable [BEq κ]

/-- Of entries for the same things, related one by one, those that are found are related. -/
theorem lookup_rel {S : α → β → Prop} {as : List (κ × α)} {bs : List (κ × β)}
    (h : List.Forall₂ (fun p q => p.1 = q.1 ∧ S p.2 q.2) as bs) (k : κ) :
    Option.Rel S (as.lookup k) (bs.lookup k) := by
  induction h with
  | nil => exact .none
  | @cons p q _ _ hpq _ ih =>
    obtain ⟨s, a⟩ := p
    obtain ⟨t, b⟩ := q
    obtain ⟨rfl, hab⟩ := hpq
    simp only [List.lookup_cons]
    cases k == s with
    | true => exact .some hab
    | false => exact ih

theorem found_rel {S : α → β → Prop} {as : List (κ × α)} {bs : List (κ × β)} {a : α} {b : β}
    (h : List.Forall₂ (fun p q => p.1 = q.1 ∧ S p.2 q.2) as bs) (hab : S a b) (k : κ) :
    S ((as.lookup k).getD a) ((bs.lookup k).getD b) := by
  have hfound := lookup_rel h k
  generalize as.lookup k = x, bs.lookup k = y at hfound ⊢
  cases hfound with
  | some hfound => exact hfound
  | none => exact hab

variable [LawfulBEq κ] {k : κ} {a : α} {as bs : List (κ × α)}

theorem mem_of_lookup (h : as.lookup k = some a) : (k, a) ∈ as := by
  induction as with
  | nil => cases h
  | cons p as ih =>
    obtain ⟨s, b⟩ := p
    rw [List.lookup_cons] at h
    cases hs : k == s with
    | true =>
      rw [hs] at h
      cases h
      rw [eq_of_beq hs]
      exact List.mem_cons_self
    | false =>
      rw [hs] at h
      exact List.mem_cons_of_mem _ (ih h)

theorem lookup_of_mem (hn : (as.map Prod.fst).Nodup) (h : (k, a) ∈ as) : as.lookup k = some a := by
  induction as with
  | nil => cases h
  | cons p as ih =>
    obtain ⟨s, b⟩ := p
    obtain ⟨hs, hn⟩ := List.nodup_cons.mp hn
    rcases List.mem_cons.mp h with he | he
    · cases he
      exact List.lookup_cons_self
    · have hk : k ∈ as.map Prod.fst := List.mem_map.mpr ⟨_, he, rfl⟩
      have hne : k ≠ s := fun heq => hs (heq ▸ hk)
      rw [List.lookup_cons, beq_eq_false_iff_ne.mpr hne]
      exact ih hn he

/-- Where nothing has two entries, their order does not count. -/
theorem lookup_perm (h : as.Perm bs) (hn : (as.map Prod.fst).Nodup) (k : κ) : as.lookup k = bs.lookup k := by
  have hn' : (bs.map Prod.fst).Nodup := (h.map Prod.fst).nodup_iff.mp hn
  refine Option.ext fun a => ⟨fun ha => ?_, fun ha => ?_⟩
  · exact lookup_of_mem hn' (h.mem_iff.mp (mem_of_lookup ha))
  · exact lookup_of_mem hn (h.mem_iff.mpr (mem_of_lookup ha))

end Keys

/-- What is found for a repository has whatever all entries and the fallback have. -/
theorem forall_found {α : Type} {p : α → Prop} {entries : List (Repository × α)} {fallback : α}
    (he : ∀ q ∈ entries, p q.2) (hf : p fallback) (r : Repository) : p ((entries.lookup r).getD fallback) := by
  cases h : entries.lookup r with
  | none => exact hf
  | some a => exact he _ (mem_of_lookup h)

theorem lookup_map {α β : Type} (f : Repository → α → β) (r : Repository) (entries : List (Repository × α)) :
    (entries.map fun (s, a) => (s, f s a)).lookup r = (entries.lookup r).map (f r) := by
  induction entries with
  | nil => rfl
  | cons p entries ih =>
    rw [List.map_cons, lookup_cons_eq_ite, lookup_cons_eq_ite, ih]
    split
    · rename_i h
      rw [h]
      rfl
    · rfl

theorem lookup_keys_map {α : Type} (f : Repository → α) (r : Repository) (rs : List Repository) :
    (rs.map fun s => (s, f s)).lookup r = if r ∈ rs then some (f r) else none := by
  induction rs with
  | nil => rfl
  | cons s rs ih =>
    rw [List.map_cons, lookup_cons_eq_ite, ih]
    by_cases h : r = s
    · subst h
      simp
    · simp [h]

theorem inRepo_of_not_perRepo {e : Expr} (h : e.isPerRepo = false) (r : Repository) : e.inRepo r = e := by
  cases e <;> first | rfl | cases h

theorem elsewhere_of_not_perRepo {e : Expr} (h : e.isPerRepo = false) : e.elsewhere = e := by
  cases e <;> first | rfl | cases h

/-! ## Normalizing -/

theorem negateAll_eq_map (es : List Expr) : negateAll es = es.map negate := by
  induction es with
  | nil => rfl
  | cons e es ih => rw [negateAll, ih]; rfl

theorem negateEntries_eq_map (es : List (Repository × Expr)) :
    negateEntries es = es.map fun (r, e) => (r, e.negate) := by
  induction es with
  | nil => rfl
  | cons e es ih => rw [negateEntries, ih]; rfl

/-! ## Evaluating -/

section Eval

variable (v : Leaf → Bool) (r : Repository)

@[simp] theorem evalWith_const (b : Bool) : (const b).evalWith v r = b := rfl

@[simp] theorem evalWith_leaf (l : Leaf) : (leaf l).evalWith v r = v l := rfl

@[simp] theorem evalWith_not (e : Expr) : (not e).evalWith v r = !e.evalWith v r := rfl

@[simp] theorem evalWith_and (es : List Expr) : (and es).evalWith v r = es.all (evalWith v r) := by
  rw [evalWith]
  induction es with
  | nil => rfl
  | cons e es ih => rw [evalAll, ih, List.all_cons]

@[simp] theorem evalWith_or (es : List Expr) : (or es).evalWith v r = es.any (evalWith v r) := by
  rw [evalWith]
  induction es with
  | nil => rfl
  | cons e es ih => rw [evalAny, ih, List.any_cons]

theorem evalEntry_eq_lookup (entries : List (Repository × Expr)) :
    evalEntry v r entries = (entries.lookup r).map (evalWith v r) := by
  induction entries with
  | nil => rfl
  | cons p entries ih =>
    obtain ⟨s, e⟩ := p
    rw [evalEntry, lookup_cons_eq_ite, ih]
    split <;> rfl

@[simp] theorem evalWith_perRepo (entries : List (Repository × Expr)) (fallback : Expr) :
    (perRepo entries fallback).evalWith v r = ((entries.lookup r).getD fallback).evalWith v r := by
  rw [evalWith, evalEntry_eq_lookup]
  cases entries.lookup r <;> rfl

/-- In its own repository an expression may be replaced by what it stands for there. -/
theorem evalWith_inRepo (e : Expr) : (e.inRepo r).evalWith v r = e.evalWith v r := by
  cases e with
  | perRepo entries fallback => rw [evalWith_perRepo]; rfl
  | const | leaf | not | and | or => rfl

end Eval

end Triage.Expr
