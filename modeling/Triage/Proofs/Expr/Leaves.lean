/-
  Triage.Proofs.Expr.Leaves — where leaves stand in an expression, and which of them is read first.

  A leaf stands at the end of a path of steps down from the root (`At`). Paths are ordered as an expression is read,
  from left to right: operands by their places, entries by their repositories, the fallback last (`Step.Before`).
  `leaves` lists the leaves that occur, and no others (`mem_leaves_iff`), in that order: a leaf that is listed before
  all places of another is read before it (`readsFirst_of_listedFirst`). For that the entries have to be in order
  throughout (`Arranged`), as they are in whatever is built (`arranged_toExpr`).
-/

import Triage.Proofs.Expr.PerRepo
import Triage.Warning

namespace Triage.Expr

/-! ## Entries in order throughout -/

/-- The entries of every expression per repository are in order. -/
inductive Arranged : Expr → Prop
  | const (b : Bool) : Arranged (.const b)
  | leaf (l : Leaf) : Arranged (.leaf l)
  | not {e : Expr} : Arranged e → Arranged (.not e)
  | and {es : List Expr} : (∀ e ∈ es, Arranged e) → Arranged (.and es)
  | or {es : List Expr} : (∀ e ∈ es, Arranged e) → Arranged (.or es)
  | perRepo {entries : List (Repository × Expr)} {fallback : Expr} : PerRepo.Ordered entries →
      (∀ p ∈ entries, Arranged p.2) → Arranged fallback → Arranged (.perRepo entries fallback)

/-- What is built from entries in any order has them in order. -/
theorem arranged_toExpr {otherwise : Expr} {entries : List (Option Repository × Expr)} {m : PerRepo Expr}
    (ho : Arranged otherwise) (he : ∀ p ∈ entries, Arranged p.2) (h : PerRepo.ofList otherwise entries = .ok m) :
    Arranged m.toExpr := by
  have hm := PerRepo.consists_of_ofList ho he h
  exact .perRepo hm.ordered hm.entries hm.fallback

/-! ## Places -/

/-- One step down in an expression. -/
inductive Step where
  | negated
  | operand (k : Nat)
  | entry (r : Repository)
  | fallback

/-- Steps down from one expression, from left to right. -/
inductive Step.Before : Step → Step → Prop
  | operand {j k : Nat} : j < k → Before (.operand j) (.operand k)
  | entry {r s : Repository} : r.before s = true → Before (.entry r) (.entry s)
  | fallback (r : Repository) : Before (.entry r) .fallback

/-- The expressions right below, each with the step to it. -/
def parts : Expr → List (Step × Expr)
  | .const _ | .leaf _ => []
  | .not e => [(.negated, e)]
  | .and es | .or es => es.mapIdx fun k e => (.operand k, e)
  | .perRepo entries fallback => entries.map (fun (r, e) => (.entry r, e)) ++ [(.fallback, fallback)]

/-- The leaf stands at the end of the path. -/
inductive At (l : Leaf) : List Step → Expr → Prop
  | leaf : At l [] (.leaf l)
  | step {s : Step} {p : List Step} {d e : Expr} : (s, d) ∈ e.parts → At l p d → At l (s :: p) e

/-- Read from left to right, the expression has `l` before any `l'`. -/
def ReadsFirst (e : Expr) (l l' : Leaf) : Prop := ∃ p, At l p e ∧ ∀ q, At l' q e → List.Lex Step.Before p q

/-- Where the list first has `l`, it has not had `l'` yet. -/
def ListedFirst (ls : List Leaf) (l l' : Leaf) : Prop := ∃ front back, ls = front ++ l :: back ∧ l' ∉ front ∧ l' ≠ l

/-! ## What is right below -/

theorem map_snd_operands (es : List Expr) : (es.mapIdx fun k e => (Step.operand k, e)).map Prod.snd = es := by
  refine List.ext_getElem (by simp) fun k hk hk' => ?_
  simp

theorem mem_of_mem_operands {es : List Expr} {c : Step × Expr}
    (h : c ∈ es.mapIdx fun k e => (Step.operand k, e)) : c.2 ∈ es := by
  rw [← map_snd_operands es]
  exact List.mem_map_of_mem h

/-- What holds of an expression if it holds of those right below holds of all. -/
@[elab_as_elim]
theorem induction_parts {motive : Expr → Prop} (step : ∀ e, (∀ c ∈ e.parts, motive c.2) → motive e) (e : Expr) :
    motive e := by
  induction e using Expr.induction with
  | const b => exact step _ nofun
  | leaf l => exact step _ nofun
  | not e ih => exact step _ fun c hc => List.mem_singleton.mp hc ▸ ih
  | and es ih => exact step _ fun c hc => ih _ (mem_of_mem_operands hc)
  | or es ih => exact step _ fun c hc => ih _ (mem_of_mem_operands hc)
  | perRepo entries fallback ih ihf =>
    refine step _ fun c hc => ?_
    rcases List.mem_append.mp hc with hc | hc
    · obtain ⟨p, hp, rfl⟩ := List.mem_map.mp hc
      exact ih p hp
    · rw [List.mem_singleton.mp hc]
      exact ihf

theorem leavesAll_eq_flatMap (es : List Expr) : leavesAll es = es.flatMap leaves := by
  induction es with
  | nil => rfl
  | cons e es ih => rw [leavesAll, ih, List.flatMap_cons]

theorem leavesEntries_eq_flatMap (entries : List (Repository × Expr)) :
    leavesEntries entries = entries.flatMap fun p => p.2.leaves := by
  induction entries with
  | nil => rfl
  | cons p entries ih => rw [leavesEntries, ih, List.flatMap_cons]

theorem leaves_and (es : List Expr) : (and es).leaves = es.flatMap leaves := leavesAll_eq_flatMap es

theorem leaves_or (es : List Expr) : (or es).leaves = es.flatMap leaves := leavesAll_eq_flatMap es

theorem leaves_perRepo (entries : List (Repository × Expr)) (fallback : Expr) :
    (perRepo entries fallback).leaves = (entries.flatMap fun p => p.2.leaves) ++ fallback.leaves := by
  rw [leaves, leavesEntries_eq_flatMap]

/-- The leaves of an expression are those of the expressions right below, one after the other. -/
theorem leaves_eq_flatMap_parts {e : Expr} (h : e.isLeaf = false) : e.leaves = e.parts.flatMap fun c => c.2.leaves := by
  have hoperands : ∀ es : List Expr,
      es.flatMap leaves = (es.mapIdx fun k e => (Step.operand k, e)).flatMap fun c => c.2.leaves := by
    intro es
    rw [← List.flatMap_map Prod.snd leaves, map_snd_operands]
  cases e with
  | leaf l => cases h
  | const b => rfl
  | not e => rw [leaves, parts, List.flatMap_singleton]
  | and es => rw [leaves_and, parts, hoperands]
  | or es => rw [leaves_or, parts, hoperands]
  | perRepo entries fallback =>
    rw [leaves_perRepo, parts, List.flatMap_append, List.flatMap_map, List.flatMap_singleton]

theorem Arranged.pairwise_parts {e : Expr} (h : Arranged e) : e.parts.Pairwise fun c d => c.1.Before d.1 := by
  have hoperands : ∀ es : List Expr,
      (es.mapIdx fun k e => (Step.operand k, e)).Pairwise fun c d => c.1.Before d.1 := by
    intro es
    rw [List.pairwise_iff_getElem]
    intro j k hj hk hjk
    rw [List.getElem_mapIdx, List.getElem_mapIdx]
    exact .operand hjk
  cases h with
  | const | leaf => exact .nil
  | not => exact List.pairwise_singleton _ _
  | and => exact hoperands _
  | or => exact hoperands _
  | perRepo ho =>
    rw [parts, List.pairwise_append, List.pairwise_map]
    refine ⟨ho.imp fun hb => .entry hb, List.pairwise_singleton _ _, fun c hc d hd => ?_⟩
    obtain ⟨p, -, rfl⟩ := List.mem_map.mp hc
    rw [List.mem_singleton.mp hd]
    exact .fallback p.1

theorem Arranged.part {e : Expr} (h : Arranged e) : ∀ c ∈ e.parts, Arranged c.2 := by
  intro c hc
  cases h with
  | const | leaf => cases hc
  | not h => rw [List.mem_singleton.mp hc]; exact h
  | and h => exact h _ (mem_of_mem_operands hc)
  | or h => exact h _ (mem_of_mem_operands hc)
  | perRepo _ he hf =>
    rcases List.mem_append.mp hc with hc | hc
    · obtain ⟨p, hp, rfl⟩ := List.mem_map.mp hc
      exact he p hp
    · rw [List.mem_singleton.mp hc]
      exact hf

/-! ## The leaves that occur -/

theorem mem_leaves_iff {l : Leaf} {e : Expr} : l ∈ e.leaves ↔ e.Mentions l := by
  constructor
  · intro h
    induction e using Expr.induction with
    | const b => cases h
    | leaf k =>
      obtain rfl := List.mem_singleton.mp h
      exact .leaf
    | not e ih => exact .not (ih h)
    | and es ih =>
      rw [leaves_and, List.mem_flatMap] at h
      obtain ⟨e, he, hl⟩ := h
      exact .and he (ih e he hl)
    | or es ih =>
      rw [leaves_or, List.mem_flatMap] at h
      obtain ⟨e, he, hl⟩ := h
      exact .or he (ih e he hl)
    | perRepo entries fallback ih ihf =>
      rw [leaves_perRepo, List.mem_append, List.mem_flatMap] at h
      rcases h with ⟨p, hp, hl⟩ | hl
      · exact .entry hp (ih p hp hl)
      · exact .fallback (ihf hl)
  · intro h
    induction h with
    | leaf => exact List.mem_cons_self
    | not _ ih => exact ih
    | and he _ ih =>
      rw [leaves_and, List.mem_flatMap]
      exact ⟨_, he, ih⟩
    | or he _ ih =>
      rw [leaves_or, List.mem_flatMap]
      exact ⟨_, he, ih⟩
    | entry hp _ ih =>
      rw [leaves_perRepo, List.mem_append, List.mem_flatMap]
      exact Or.inl ⟨_, hp, ih⟩
    | fallback _ ih => exact List.mem_append_right _ ih

theorem At.mem_leaves {l : Leaf} {p : List Step} {e : Expr} (h : At l p e) : l ∈ e.leaves := by
  induction h with
  | leaf => exact List.mem_cons_self
  | @step s p d e hd _ ih =>
    have he : e.isLeaf = false := by cases e <;> first | rfl | cases hd
    rw [leaves_eq_flatMap_parts he]
    exact List.mem_flatMap.mpr ⟨(s, d), hd, ih⟩

/-! ## The order in which they are read -/

theorem exists_piece_of_append {α : Type} {as bs front back : List α} {a : α} (h : as ++ bs = front ++ a :: back) :
    (∃ back', as = front ++ a :: back') ∨ ∃ front', front = as ++ front' ∧ bs = front' ++ a :: back := by
  rcases List.append_eq_append_iff.mp h with ⟨front', hfront, hbs⟩ | ⟨rest, has, hrest⟩
  · exact Or.inr ⟨front', hfront, hbs⟩
  · cases rest with
    | nil => exact Or.inr ⟨[], by rw [has, List.append_nil, List.append_nil], hrest.symm⟩
    | cons c rest =>
      cases hrest
      exact Or.inl ⟨rest, has⟩

/-- An element of a list that is put together from parts stands in one of them. -/
theorem exists_piece_of_flatMap {α β : Type} {f : α → List β} {as : List α} {front back : List β} {b : β}
    (h : as.flatMap f = front ++ b :: back) :
    ∃ before a after front' back', as = before ++ a :: after ∧ front = before.flatMap f ++ front' ∧
      f a = front' ++ b :: back' := by
  induction as generalizing front with
  | nil => simp at h
  | cons a as ih =>
    rw [List.flatMap_cons] at h
    rcases exists_piece_of_append h with ⟨back', ha⟩ | ⟨front', rfl, hrest⟩
    · exact ⟨[], a, as, front, back', rfl, rfl, ha⟩
    · obtain ⟨before, c, after, front'', back', rfl, rfl, hc⟩ := ih hrest
      exact ⟨a :: before, c, after, front'', back', rfl, by rw [List.flatMap_cons, List.append_assoc], hc⟩

/-- The leaf stands at the path, and other leaves that are not in `passed` stand only after it. -/
structure FirstAt (l : Leaf) (passed : List Leaf) (p : List Step) (e : Expr) : Prop where
  found : At l p e
  before : ∀ l' q, At l' q e → l' ∉ passed → l' ≠ l → List.Lex Step.Before p q

theorem firstAt_leaf (l : Leaf) (passed : List Leaf) : FirstAt l passed [] (.leaf l) := by
  refine ⟨.leaf, fun l' q hq _ hne => ?_⟩
  cases hq with
  | leaf => exact absurd rfl hne
  | step hd => cases hd

/-- Up from a part: what the parts before it list has been passed, and the parts after it come later. -/
theorem FirstAt.up {e d : Expr} {s : Step} {before after : List (Step × Expr)} {l : Leaf} {passed : List Leaf}
    {p : List Step} (ha : Arranged e) (hparts : e.parts = before ++ (s, d) :: after) (h : FirstAt l passed p d) :
    FirstAt l ((before.flatMap fun c => c.2.leaves) ++ passed) (s :: p) e := by
  have hordered := ha.pairwise_parts
  rw [hparts, List.pairwise_append] at hordered
  refine ⟨.step (hparts ▸ List.mem_append_right before List.mem_cons_self) h.found, fun l' q hq hl' hne => ?_⟩
  rw [List.mem_append, not_or] at hl'
  cases hq with
  | leaf => simp [parts] at hparts
  | @step t q c _ hc hq =>
    rw [hparts] at hc
    rcases List.mem_append.mp hc with hc | hc
    · exact absurd (List.mem_flatMap.mpr ⟨(t, c), hc, hq.mem_leaves⟩) hl'.1
    · rcases List.mem_cons.mp hc with hc | hc
      · cases hc
        exact .cons (h.before l' q hq hl'.2 hne)
      · exact .rel ((List.pairwise_cons.mp hordered.2.1).1 (t, c) hc)

/-- Each listed leaf stands at a path after which all leaves stand that are not listed before it. -/
theorem exists_firstAt {e : Expr} (ha : Arranged e) {l : Leaf} {front back : List Leaf}
    (h : e.leaves = front ++ l :: back) : ∃ p, FirstAt l front p e := by
  induction e using induction_parts generalizing front back with
  | step e ih =>
    cases hleaf : e.isLeaf with
    | true =>
      obtain ⟨k, rfl⟩ : ∃ k, e = .leaf k := by
        cases e <;> first | exact ⟨_, rfl⟩ | cases hleaf
      have hk : l ∈ (Expr.leaf k).leaves := by
        rw [h]
        exact List.mem_append_right front List.mem_cons_self
      obtain rfl := List.mem_singleton.mp hk
      exact ⟨[], firstAt_leaf l front⟩
    | false =>
      rw [leaves_eq_flatMap_parts hleaf] at h
      obtain ⟨before, ⟨s, d⟩, after, front', back', hparts, rfl, hd⟩ := exists_piece_of_flatMap h
      have hmem : (s, d) ∈ e.parts := by
        rw [hparts]
        exact List.mem_append_right before List.mem_cons_self
      obtain ⟨p, hp⟩ := ih (s, d) hmem (ha.part _ hmem) hd
      exact ⟨s :: p, hp.up ha hparts⟩

theorem readsFirst_of_listedFirst {e : Expr} (ha : Arranged e) {l l' : Leaf} (h : ListedFirst e.leaves l l') :
    e.ReadsFirst l l' := by
  obtain ⟨front, back, hleaves, hl', hne⟩ := h
  obtain ⟨p, hp⟩ := exists_firstAt ha hleaves
  exact ⟨p, hp.found, fun q hq => hp.before l' q hq hl' hne⟩

theorem ListedFirst.append {ls : List Leaf} {l l' : Leaf} (h : ListedFirst ls l l') (more : List Leaf) :
    ListedFirst (ls ++ more) l l' := by
  obtain ⟨front, back, rfl, hl'⟩ := h
  exact ⟨front, back ++ more, by rw [List.append_assoc, List.cons_append], hl'⟩

theorem listedFirst_of_mem {ls : List Leaf} {l l' : Leaf} (hl : l ∈ ls) (hl' : l' ∉ ls) : ListedFirst ls l l' := by
  obtain ⟨front, back, rfl⟩ := List.append_of_mem hl
  simp only [List.mem_append, List.mem_cons, not_or] at hl'
  exact ⟨front, back, rfl, hl'.1, hl'.2.1⟩

end Triage.Expr
