/-
  Triage.Proofs.Expr.Same — the comparison of expressions is an equivalence, and operands are compared as multisets.

  Two expressions are the same exactly if they are the same as the same expressions (`same_iff`): the function
  `same e` stands for all expressions that are the same as `e`. Operand lists are then alike if one list of these
  functions is a permutation of the other (`Alike`), and that is what `sameOperands` decides (`sameOperands_iff`): the
  greedy choice of the first equal operand never takes one that another operand needs. Put in the right order, alike
  lists are the same operand by operand (`Alike.iff_exists_perm`).

  A list operation that treats same expressions alike keeps lists alike: `Alike.map`, `Alike.flatMap`, `Alike.filter`.
-/

import Triage.Expr.Same
import Triage.Proofs.Expr.Basic
import Mathlib.Data.List.Perm.Basic

namespace Triage.Expr

/-! ## Taking the first -/

theorem takeFirst_eq_none {α : Type} {p : α → Bool} {as : List α} : takeFirst p as = none ↔ ∀ a ∈ as, p a = false := by
  induction as with
  | nil => simp [takeFirst]
  | cons a as ih =>
    rw [takeFirst]
    cases h : p a <;> simp [h, ih]

theorem takeFirst_perm {α : Type} {p : α → Bool} {as rest : List α} (h : takeFirst p as = some rest) :
    ∃ a, p a = true ∧ as.Perm (a :: rest) := by
  induction as generalizing rest with
  | nil => cases h
  | cons a as ih =>
    rw [takeFirst] at h
    split at h
    · rename_i ha
      cases h
      exact ⟨a, ha, .refl _⟩
    · obtain ⟨more, hm, rfl⟩ := Option.map_eq_some_iff.mp h
      obtain ⟨b, hb, hp⟩ := ih hm
      exact ⟨b, hb, (hp.cons a).trans (.swap b a more)⟩

/-! ## Lists alike -/

/-- The lists hold the same expressions, each equally often. -/
def Alike (es fs : List Expr) : Prop := (es.map same).Perm (fs.map same)

namespace Alike

theorem refl (es : List Expr) : Alike es es := List.Perm.refl _

theorem symm {es fs : List Expr} (h : Alike es fs) : Alike fs es := List.Perm.symm h

theorem length_eq {es fs : List Expr} (h : Alike es fs) : es.length = fs.length := by
  simpa using List.Perm.length_eq h

theorem exists_mem {es fs : List Expr} (h : Alike es fs) {e : Expr} (he : e ∈ es) : ∃ f ∈ fs, same f = same e := by
  have hm : same e ∈ fs.map same := List.Perm.subset h (List.mem_map_of_mem he)
  exact List.mem_map.mp hm

end Alike

/-- Lists with the same keys, in whatever order, give the same things if elements of one key do. -/
theorem flatMap_perm_of_map_perm {α β γ κ : Type} {key : α → κ} {key' : β → κ} {f : α → List γ} {g : β → List γ}
    {as : List α} {bs : List β} (h : (as.map key).Perm (bs.map key'))
    (hfg : ∀ a ∈ as, ∀ b ∈ bs, key a = key' b → (f a).Perm (g b)) : (as.flatMap f).Perm (bs.flatMap g) := by
  induction as generalizing bs with
  | nil =>
    rw [List.map_nil, List.nil_perm, List.map_eq_nil_iff] at h
    rw [h]
    exact .refl _
  | cons a as ih =>
    have hm : key a ∈ bs.map key' := h.subset List.mem_cons_self
    obtain ⟨b, hb, hk⟩ := List.mem_map.mp hm
    obtain ⟨front, back, rfl⟩ := List.append_of_mem hb
    have hp : (front ++ b :: back).Perm (b :: (front ++ back)) := List.perm_middle
    have hrest : (as.map key).Perm ((front ++ back).map key') := by
      have := h.trans (hp.map key')
      rw [List.map_cons, List.map_cons, hk] at this
      exact (List.perm_cons _).mp this
    have ih := ih hrest fun c hc d hd =>
      hfg c (List.mem_cons_of_mem _ hc) d (hp.symm.subset (List.mem_cons_of_mem _ hd))
    rw [List.flatMap_cons]
    exact ((hfg a List.mem_cons_self b hb hk.symm).append ih).trans (hp.flatMap_right g).symm

theorem map_perm_of_map_perm {α β γ κ : Type} {key : α → κ} {key' : β → κ} {f : α → γ} {g : β → γ} {as : List α}
    {bs : List β} (h : (as.map key).Perm (bs.map key')) (hfg : ∀ a ∈ as, ∀ b ∈ bs, key a = key' b → f a = g b) :
    (as.map f).Perm (bs.map g) := by
  rw [List.map_eq_flatMap, List.map_eq_flatMap]
  exact flatMap_perm_of_map_perm h fun a ha b hb hk => .of_eq (congrArg (fun c => [c]) (hfg a ha b hb hk))

/-! ## An equivalence -/

/-- What is the same as `e` is the same as whatever `e` is the same as. -/
def Settles (e : Expr) : Prop := ∀ f, same e f = true → same e = same f

theorem Settles.of_eq {e f : Expr} (h : Settles e) (he : same f = same e) : Settles f := by
  intro g hg
  rw [he] at hg ⊢
  exact h g hg

theorem sameOperands_iff_of_settles {es fs : List Expr} (h : ∀ e ∈ es, Settles e) :
    sameOperands es fs = true ↔ Alike es fs := by
  induction es generalizing fs with
  | nil => rw [sameOperands, List.isEmpty_iff, Alike, List.map_nil, List.nil_perm, List.map_eq_nil_iff]
  | cons e es ih =>
    rw [sameOperands]
    cases ht : takeFirst (fun f => same e f) fs with
    | none =>
      have hne := takeFirst_eq_none.mp ht
      refine ⟨fun hs => (by cases hs), fun ha => ?_⟩
      obtain ⟨f, hf, hfe⟩ := ha.exists_mem List.mem_cons_self
      have : same e f = true := by rw [← hfe]; exact same_self f
      rw [hne f hf] at this
      cases this
    | some rest =>
      obtain ⟨f, hf, hp⟩ := takeFirst_perm ht
      have hef : same e = same f := h e List.mem_cons_self f hf
      have hp' : (fs.map same).Perm (same e :: rest.map same) := by
        rw [hef]
        exact hp.map same
      show sameOperands es rest = true ↔ (same e :: es.map same).Perm (fs.map same)
      rw [ih fun e he => h e (List.mem_cons_of_mem _ he), hp'.congr_right, List.perm_cons]
      rfl

/-- Operands that settle what they are the same as let a connective of them do so. -/
theorem sameOperands_congr_of_settles {es fs : List Expr} (h : ∀ e ∈ es, Settles e) (hs : sameOperands es fs = true) :
    sameOperands es = sameOperands fs := by
  have ha := (sameOperands_iff_of_settles h).mp hs
  have hf : ∀ f ∈ fs, Settles f := by
    intro f hf
    obtain ⟨e, he, hef⟩ := ha.symm.exists_mem hf
    exact (h e he).of_eq hef.symm
  funext gs
  rw [Bool.eq_iff_iff, sameOperands_iff_of_settles h, sameOperands_iff_of_settles hf]
  exact List.Perm.congr_left ha _

theorem sameEntries_congr_of_settles {es fs : List (Repository × Expr)} (h : ∀ p ∈ es, Settles p.2)
    (hs : sameEntries es fs = true) : sameEntries es = sameEntries fs := by
  induction es generalizing fs with
  | nil =>
    rw [sameEntries, List.isEmpty_iff] at hs
    rw [hs]
  | cons p es ih =>
    obtain ⟨r, e⟩ := p
    cases fs with
    | nil => cases hs
    | cons q fs =>
      obtain ⟨s, f⟩ := q
      simp only [sameEntries, Bool.and_eq_true, beq_iff_eq] at hs
      obtain ⟨⟨rfl, hef⟩, hrest⟩ := hs
      have he : same e = same f := h (r, e) List.mem_cons_self f hef
      have hes := ih (fun p hp => h p (List.mem_cons_of_mem _ hp)) hrest
      funext gs
      cases gs with
      | nil => rfl
      | cons g gs => simp only [sameEntries, he, hes]

theorem settles (e : Expr) : Settles e := by
  induction e using Expr.induction with
  | const a =>
    intro f h
    cases f <;> simp only [same, Bool.false_eq_true, beq_iff_eq] at h
    rw [h]
  | leaf l =>
    intro f h
    cases f <;> simp only [same, Bool.false_eq_true, beq_iff_eq] at h
    rw [h]
  | not e ih =>
    intro f h
    cases f <;> simp only [same, Bool.false_eq_true] at h
    funext g
    cases g <;> simp only [same, ih _ h]
  | and es ih =>
    intro f h
    cases f <;> simp only [same, Bool.false_eq_true] at h
    funext g
    cases g <;> simp only [same, sameOperands_congr_of_settles ih h]
  | or es ih =>
    intro f h
    cases f <;> simp only [same, Bool.false_eq_true] at h
    funext g
    cases g <;> simp only [same, sameOperands_congr_of_settles ih h]
  | perRepo entries fallback ih ihf =>
    intro f h
    cases f <;> simp only [same, Bool.false_eq_true, Bool.and_eq_true] at h
    funext g
    cases g <;> simp only [same, sameEntries_congr_of_settles ih h.1, ihf _ h.2]

/-- Expressions are the same if they cannot be told apart by comparing. -/
theorem same_iff {e f : Expr} : same e f = true ↔ same e = same f := by
  refine ⟨settles e f, fun h => ?_⟩
  rw [h]
  exact same_self f

theorem same_comm (e f : Expr) : same e f = same f e := by
  rw [Bool.eq_iff_iff, same_iff, same_iff, eq_comm]

theorem same_trans {e f g : Expr} (h : same e f = true) (h' : same f g = true) : same e g = true := by
  rw [same_iff.mp h]
  exact h'

theorem sameOperands_iff {es fs : List Expr} : sameOperands es fs = true ↔ Alike es fs :=
  sameOperands_iff_of_settles fun e _ => settles e

theorem same_and_iff {es fs : List Expr} : same (.and es) (.and fs) = true ↔ Alike es fs := by
  rw [same, sameOperands_iff]

theorem same_or_iff {es fs : List Expr} : same (.or es) (.or fs) = true ↔ Alike es fs := by
  rw [same, sameOperands_iff]

/-! ## Permutations -/

/-- Lists are alike if one of them has an order in which it goes through the same expressions as the other. -/
theorem Alike.iff_exists_perm {es fs : List Expr} :
    Alike es fs ↔ ∃ gs : List Expr, gs.Perm es ∧ List.Forall₂ (fun g f => isSame g f = true) gs fs := by
  have hmap : ∀ gs : List Expr, List.Forall₂ (fun g f => isSame g f = true) gs fs ↔ gs.map same = fs.map same := by
    intro gs
    rw [← List.forall₂_eq_eq_eq, List.forall₂_map_left_iff, List.forall₂_map_right_iff]
    simp only [isSame_eq, same_iff]
  simp only [hmap]
  constructor
  · intro h
    have hes : List.Forall₂ (fun s e => s = same e) (es.map same) es := by
      rw [List.forall₂_map_left_iff, List.forall₂_same]
      exact fun _ _ => rfl
    obtain ⟨gs, hgs, hp⟩ := List.perm_comp_forall₂ h.symm hes
    refine ⟨gs, hp, ?_⟩
    rw [← List.forall₂_eq_eq_eq, List.forall₂_map_left_iff]
    exact hgs.flip.imp fun _ _ => Eq.symm
  · rintro ⟨gs, hp, hgs⟩
    unfold Alike
    rw [← hgs]
    exact (hp.map same).symm

/-- Being the same is an equivalence of expressions, and the greedy comparison finds operands the same exactly if some
    permutation of the one list is the same as the other, operand by operand. -/
theorem isSame_equivalence_up_to_order :
    Equivalence (fun d e : Expr => isSame d e = true) ∧
      ∀ es fs : List Expr, sameOperands es fs = true ↔
        ∃ gs : List Expr, gs.Perm es ∧ List.Forall₂ (fun g f => isSame g f = true) gs fs := by
  have hequiv : Equivalence fun d e : Expr => isSame d e = true := by
    simp only [isSame_eq]
    exact ⟨same_self, fun h => same_comm _ _ ▸ h, same_trans⟩
  exact ⟨hequiv, fun _ _ => sameOperands_iff.trans Alike.iff_exists_perm⟩

/-! ## Among others -/

theorem among_iff {e : Expr} {es : List Expr} : among e es = true ↔ same e ∈ es.map same := by
  simp only [among, isSame_eq, List.any_eq_true, List.mem_map, same_iff]

/-! ## Entries -/

theorem sameEntries_iff {es fs : List (Repository × Expr)} :
    sameEntries es fs = true ↔ List.Forall₂ (fun p q => p.1 = q.1 ∧ isSame p.2 q.2 = true) es fs := by
  induction es generalizing fs with
  | nil => cases fs <;> simp [sameEntries]
  | cons p es ih =>
    obtain ⟨r, d⟩ := p
    cases fs with
    | nil => simp [sameEntries]
    | cons q fs =>
      rw [List.forall₂_cons, ← ih, isSame_eq, sameEntries, Bool.and_eq_true, Bool.and_eq_true, beq_iff_eq]

theorem same_found {entries entries' : List (Repository × Expr)} {fallback fallback' : Expr}
    (he : sameEntries entries entries' = true) (hf : same fallback fallback' = true) (r : Repository) :
    same ((entries.lookup r).getD fallback) ((entries'.lookup r).getD fallback') = true := by
  have hentries := sameEntries_iff.mp he
  simp only [isSame_eq] at hentries
  exact found_rel (S := fun d e => same d e = true) hentries hf r

/-! ## Operations on lists that are alike -/

namespace Alike

theorem singleton {e f : Expr} : Alike [e] [f] ↔ same e f = true := by
  rw [Alike, List.map_singleton, List.map_singleton, List.singleton_perm_singleton, same_iff]

/-- Lists of expressions that are the same one by one. -/
theorem of_map {α : Type} {f g : α → Expr} {as : List α} (h : ∀ a ∈ as, same (f a) (g a) = true) :
    Alike (as.map f) (as.map g) := by
  unfold Alike
  rw [List.map_map, List.map_map]
  exact .of_eq (List.map_congr_left fun a ha => same_iff.mp (h a ha))

theorem map_perm {β : Type} {f : Expr → β} (hf : ∀ d e, same d e = true → f d = f e) {es fs : List Expr}
    (h : Alike es fs) : (es.map f).Perm (fs.map f) :=
  map_perm_of_map_perm h fun d _ e _ hde => hf d e (same_iff.mpr hde)

theorem map {f : Expr → Expr} {es fs : List Expr} (h : Alike es fs)
    (hf : ∀ d ∈ es, ∀ e ∈ fs, same d e = true → same (f d) (f e) = true) : Alike (es.map f) (fs.map f) := by
  unfold Alike
  rw [List.map_map, List.map_map]
  exact map_perm_of_map_perm h fun d hd e he hde => same_iff.mp (hf d hd e he (same_iff.mpr hde))

theorem flatMap {f : Expr → List Expr} (hf : ∀ d e, same d e = true → Alike (f d) (f e)) {es fs : List Expr}
    (h : Alike es fs) : Alike (es.flatMap f) (fs.flatMap f) := by
  unfold Alike
  rw [List.map_flatMap, List.map_flatMap]
  exact flatMap_perm_of_map_perm h fun d _ e _ hde => hf d e (same_iff.mpr hde)

theorem filter {p : Expr → Bool} (hp : ∀ d e, same d e = true → p d = p e) {es fs : List Expr} (h : Alike es fs) :
    Alike (es.filter p) (fs.filter p) := by
  have hf : ∀ es : List Expr, es.filter p = es.flatMap fun e => if p e then [e] else [] := by
    intro es
    induction es with
    | nil => rfl
    | cons e es ih => rw [List.flatMap_cons, List.filter_cons, ih]; cases p e <;> rfl
  rw [hf, hf]
  refine flatMap (fun d e hde => ?_) h
  rw [hp d e hde]
  cases p e
  · exact Alike.refl _
  · exact singleton.mpr hde

theorem any_of_any {p : Expr → Bool} (hp : ∀ d e, same d e = true → p d = p e) {es fs : List Expr} (h : Alike es fs)
    (he : es.any p = true) : fs.any p = true := by
  obtain ⟨e, he, hpe⟩ := List.any_eq_true.mp he
  obtain ⟨f, hf, hfe⟩ := h.exists_mem he
  rw [← hp f e (same_iff.mpr hfe)] at hpe
  exact List.any_eq_true.mpr ⟨f, hf, hpe⟩

theorem any_eq {p : Expr → Bool} (hp : ∀ d e, same d e = true → p d = p e) {es fs : List Expr} (h : Alike es fs) :
    es.any p = fs.any p := by
  rw [Bool.eq_iff_iff]
  exact ⟨h.any_of_any hp, h.symm.any_of_any hp⟩

end Alike

end Triage.Expr
