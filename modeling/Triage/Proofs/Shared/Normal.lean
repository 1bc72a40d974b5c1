/-
  Triage.Proofs.Shared.Normal — nodes are rewritten as their trees are.

  A node stands for an expression in all later stores once it does so in one (`Stands.of_le`). The connectives and
  `negate` make, of nodes that exist, a node that stands for what the connective or the negation of their trees is
  (`conjunction_gives`, `negate_gives`). They recurse as those on trees do, since the trees of what is read of nodes are
  what is read of the trees, and whatever is read exists.
-/

import Triage.Proofs.Expr.Connective
import Triage.Proofs.Shared.Gives

namespace Triage.Shared

open Triage.Expr (choices combinationLimit)

instance : Preorder Store where
  le_refl s := List.suffix_refl s.shapes
  le_trans _ _ _ := List.IsSuffix.trans

namespace Store

/-- The nodes exist. -/
def Has (s : Store) (es : List Ref) : Prop := ∀ e ∈ es, e < s.size

/-- The node exists, and its tree is the expression. -/
def Stands (s : Store) (r : Ref) (e : Expr) : Prop := r < s.size ∧ s.tree r = e

theorem Has.of_le {s t : Store} {es : List Ref} (h : s.Has es) (hst : s ≤ t) : t.Has es :=
  fun e he => Nat.lt_of_lt_of_le (h e he) (size_le_of_le hst)

theorem Stands.of_le {s t : Store} {r : Ref} {e : Expr} (h : s.Stands r e) (hst : s ≤ t) : t.Stands r e :=
  ⟨Nat.lt_of_lt_of_le h.1 (size_le_of_le hst), (tree_of_le hst h.1).trans h.2⟩

/-- The entry is for the same repository, and its node stands for the expression. -/
def StandsAt (s : Store) (p : Repository × Ref) (q : Repository × Expr) : Prop := p.1 = q.1 ∧ s.Stands p.2 q.2

theorem StandsAt.of_le {s t : Store} {p : Repository × Ref} {q : Repository × Expr} (h : s.StandsAt p q)
    (hst : s ≤ t) : t.StandsAt p q := ⟨h.1, h.2.of_le hst⟩

theorem stands_constant (s : Store) (b : Bool) : s.Stands (constant b) (.const b) :=
  ⟨s.constant_lt_size b, s.tree_constant b⟩

/-! ## Nodes that are read exist -/

variable {s : Store}

theorem has_refs {r : Ref} (h : r < s.size) : s.Has (s.shape r).refs :=
  fun _ he => Nat.lt_trans (lt_of_mem_refs he) h

theorem has_operands {r : Ref} (h : r < s.size) : s.Has (s.operands r) := by
  intro e he
  refine has_refs h e ?_
  rw [operands] at he
  cases hk : s.shape r <;> rw [hk] at he <;> first | exact he | cases he

theorem inRepo_lt {r : Ref} (h : r < s.size) (q : Repository) : s.inRepo q r < s.size := by
  rw [inRepo]
  cases hk : s.shape r with
  | perRepo entries fallback =>
    have hrefs : s.Has (Shape.perRepo entries fallback).refs := hk ▸ has_refs h
    exact Expr.forall_found (p := (· < s.size)) (fun p hp => hrefs p.2 (Shape.mem_refs_of_mem_entries hp))
      (hrefs fallback List.mem_cons_self) q
  | const | leaf | not | and | or => exact h

theorem elsewhere_lt {r : Ref} (h : r < s.size) : s.elsewhere r < s.size := by
  rw [elsewhere]
  cases hk : s.shape r with
  | perRepo entries fallback =>
    have hrefs : s.Has (Shape.perRepo entries fallback).refs := hk ▸ has_refs h
    exact hrefs fallback List.mem_cons_self
  | const | leaf | not | and | or => exact h

theorem Has.sublist {es ds : List Ref} (h : s.Has es) (hd : ds.Sublist es) : s.Has ds := fun e he => h e (hd.subset he)

theorem Has.map {es : List Ref} (h : s.Has es) {f : Ref → Ref} (hf : ∀ {e : Ref}, e < s.size → f e < s.size) :
    s.Has (es.map f) := by
  intro e he
  obtain ⟨d, hd, rfl⟩ := List.mem_map.mp he
  exact hf (h d hd)

theorem Has.allInRepo {es : List Ref} (h : s.Has es) (q : Repository) : s.Has (s.allInRepo q es) :=
  h.map fun he => inRepo_lt he q

theorem Has.allElsewhere {es : List Ref} (h : s.Has es) : s.Has (s.allElsewhere es) := h.map elsewhere_lt

theorem Has.flatMap {es : List Ref} (h : s.Has es) {f : Ref → List Ref}
    (hf : ∀ e, f e = [e] ∨ f e = (s.shape e).refs) : s.Has (es.flatMap f) := by
  intro e he
  obtain ⟨d, hd, hed⟩ := List.mem_flatMap.mp he
  rcases hf d with hself | hrefs
  · rw [hself] at hed
    exact List.mem_singleton.mp hed ▸ h d hd
  · rw [hrefs] at hed
    exact has_refs (h d hd) e hed

theorem Has.dissolveAnd {es : List Ref} (h : s.Has es) : s.Has (s.dissolveAnd es) := by
  refine h.flatMap fun e => ?_
  cases s.shape e with
  | and ds => exact .inr rfl
  | const | leaf | not | or | perRepo => exact .inl rfl

theorem Has.dissolveOr {es : List Ref} (h : s.Has es) : s.Has (s.dissolveOr es) := by
  refine h.flatMap fun e => ?_
  cases s.shape e with
  | or ds => exact .inr rfl
  | const | leaf | not | and | perRepo => exact .inl rfl

theorem distinctFrom_sublist (seen es : List Ref) : (s.distinctFrom seen es).Sublist es := by
  induction es generalizing seen with
  | nil => exact .refl _
  | cons e es ih =>
    rw [distinctFrom]
    split
    · exact (ih seen).cons e
    · exact (ih _).cons_cons e

theorem Has.conjuncts {es : List Ref} (h : s.Has es) : s.Has (s.conjuncts es) :=
  h.dissolveAnd.sublist ((distinctFrom_sublist [] _).trans List.filter_sublist)

theorem Has.disjuncts {es : List Ref} (h : s.Has es) : s.Has (s.disjuncts es) :=
  h.dissolveOr.sublist ((distinctFrom_sublist [] _).trans List.filter_sublist)

theorem Has.choice {ors choice : List Ref} (h : s.Has ors) (hc : choice ∈ choices (ors.map s.operands)) :
    s.Has choice := by
  intro e he
  obtain ⟨l, hl, hel⟩ := Expr.mem_of_mem_choice hc he
  obtain ⟨o, ho, rfl⟩ := List.mem_map.mp hl
  exact has_operands (h o ho) e hel

/-! ## Entries -/

theorem map_insert {α β : Type} (f : α → β) (q : Repository) (a : α) (entries : List (Repository × α)) :
    (PerRepo.insert q a entries).map (fun (q, a) => (q, f a)) =
      PerRepo.insert q (f a) (entries.map fun (q, a) => (q, f a)) := by
  induction entries with
  | nil => rfl
  | cons p entries ih =>
    obtain ⟨t, b⟩ := p
    rw [List.map_cons, PerRepo.insert, PerRepo.insert]
    by_cases hqt : q = t
    · rw [if_pos hqt, if_pos hqt, List.map_cons]
    · rw [if_neg hqt, if_neg hqt]
      by_cases hb : q.before t = true
      · rw [if_pos hb, if_pos hb, List.map_cons, List.map_cons]
      · rw [if_neg hb, if_neg hb, List.map_cons, ih]

theorem entryTrees_sort (entries : List (Repository × Ref)) :
    s.entryTrees (PerRepo.sort entries) = PerRepo.sort (s.entryTrees entries) := by
  induction entries with
  | nil => rfl
  | cons p entries ih =>
    show s.entryTrees (PerRepo.insert p.1 p.2 (PerRepo.sort entries)) =
      PerRepo.insert p.1 (s.tree p.2) (PerRepo.sort (s.entryTrees entries))
    rw [← ih]
    exact map_insert s.tree p.1 p.2 _

theorem entryTrees_inherit (entries : List (Repository × Ref)) (fallback : Ref) :
    s.entryTrees (s.inherit entries fallback) = Expr.inherit (s.entryTrees entries) (s.tree fallback) := by
  rw [inherit, tree_eq s fallback]
  cases hk : s.shape fallback with
  | perRepo more e =>
    show s.entryTrees (more.foldl _ entries) = (s.entryTrees more).foldl _ (s.entryTrees entries)
    clear hk
    induction more generalizing entries with
    | nil => rfl
    | cons p more ih =>
      have hsome : ((s.entryTrees entries).lookup p.1).isSome = (entries.lookup p.1).isSome := by
        rw [lookup_entryTrees, Option.isSome_map]
      show s.entryTrees (more.foldl _ (if (entries.lookup p.1).isSome = true then entries
          else PerRepo.insert p.1 p.2 entries)) =
        (s.entryTrees more).foldl _ (if ((s.entryTrees entries).lookup p.1).isSome = true then s.entryTrees entries
          else PerRepo.insert p.1 (s.tree p.2) (s.entryTrees entries))
      rw [ih, hsome]
      split
      · rfl
      · have hinsert : s.entryTrees (PerRepo.insert p.1 p.2 entries) =
            PerRepo.insert p.1 (s.tree p.2) (s.entryTrees entries) := map_insert s.tree p.1 p.2 entries
        rw [hinsert]
  | const | leaf | not | and | or => rfl

theorem entryTrees_map_inRepo (entries : List (Repository × Ref)) :
    s.entryTrees (entries.map fun (q, e) => (q, s.inRepo q e)) =
      (s.entryTrees entries).map fun (q, e) => (q, e.inRepo q) := by
  rw [entryTrees, entryTrees, List.map_map, List.map_map]
  exact List.map_congr_left fun p _ => Prod.ext rfl (s.inRepo_tree p.1 p.2).symm

theorem entryTrees_filter_same (entries : List (Repository × Ref)) (fallback : Ref) :
    s.entryTrees (entries.filter fun (_, e) => !s.same e (s.elsewhere fallback)) =
      (s.entryTrees entries).filter fun (_, e) => !Expr.isSame e (s.tree fallback).elsewhere := by
  rw [entryTrees, entryTrees, List.filter_map]
  refine congrArg (fun f => (entries.filter f).map fun (q, e) => (q, s.tree e)) (funext fun p => ?_)
  simp

theorem entryTrees_keptEntries (entries : List (Repository × Ref)) (fallback : Ref) :
    s.entryTrees (s.keptEntries entries fallback) =
      Expr.keptEntries (s.entryTrees entries) (s.tree fallback) := by
  rw [keptEntries, Expr.keptEntries, entryTrees_filter_same, entryTrees_inherit, entryTrees_sort,
    entryTrees_map_inRepo]

theorem mem_inherit {entries : List (Repository × Ref)} {fallback : Ref} {p : Repository × Ref}
    (h : p ∈ s.inherit entries fallback) : p ∈ entries ∨ p.2 ∈ (s.shape fallback).refs := by
  rw [inherit] at h
  cases hk : s.shape fallback with
  | perRepo more e =>
    rw [hk] at h
    have hmore : ∀ q ∈ more, q.2 ∈ (Shape.perRepo more e).refs := fun q hq => Shape.mem_refs_of_mem_entries (q := q.1) hq
    generalize (Shape.perRepo more e).refs = refs at hmore ⊢
    clear hk
    induction more generalizing entries with
    | nil => exact .inl h
    | cons q more ih =>
      obtain ⟨hq, hmore⟩ := List.forall_mem_cons.mp hmore
      rcases ih h hmore with h | h
      · dsimp only at h
        split at h
        · exact .inl h
        · rcases PerRepo.mem_insert h with rfl | h
          · exact .inr hq
          · exact .inl h
      · exact .inr h
  | const | leaf | not | and | or =>
    rw [hk] at h
    exact .inl h

theorem keptEntries_lt {entries : List (Repository × Ref)} {fallback : Ref} (he : ∀ p ∈ entries, p.2 < s.size)
    (hf : fallback < s.size) {p : Repository × Ref} (hp : p ∈ s.keptEntries entries fallback) : p.2 < s.size := by
  rcases mem_inherit (List.mem_filter.mp hp).1 with h | h
  · obtain ⟨⟨q, e⟩, hm, rfl⟩ := List.mem_map.mp (PerRepo.mem_sort h)
    exact inRepo_lt (he _ hm) q
  · exact has_refs hf p.2 h

end Store

/-! ## Nodes that are made -/

theorem make_gives {s t : Store} (hst : s ≤ t) {k : Shape} (hk : s.Has k.refs) :
    Gives (make k) t fun r u => u.Stands r (k.toExpr s.tree) := by
  have hk' : ∀ r ∈ k.refs, r < t.size := hk.of_le hst
  refine ⟨t.size, t.push k hk', dif_pos hk', Store.le_push hk', Nat.lt_succ_self t.size, ?_⟩
  rw [Store.tree_push hk']
  exact Shape.toExpr_congr k fun r hr => Store.tree_of_le hst (hk r hr)

theorem constant_gives (t : Store) (b : Bool) :
    Gives (pure (constant b) : Build Ref) t fun r u => u.Stands r (.const b) :=
  Gives.pure (t.stands_constant b)

theorem construct_gives (s : Store) {k : Shape} (hk : s.Has k.refs) :
    Gives (construct k) s fun r t => t.Stands r (k.made s.tree) := by
  match k with
  | .const b => exact constant_gives s b
  | .and [] => exact constant_gives s true
  | .or [] => exact constant_gives s false
  | .leaf l => exact make_gives (k := .leaf l) (le_refl s) hk
  | .not e => exact make_gives (k := .not e) (le_refl s) hk
  | .and (e :: es) => exact make_gives (k := .and (e :: es)) (le_refl s) hk
  | .or (e :: es) => exact make_gives (k := .or (e :: es)) (le_refl s) hk
  | .perRepo entries fallback => exact make_gives (k := .perRepo entries fallback) (le_refl s) hk

theorem left_alone_gives {s t : Store} (hst : s ≤ t) {r : Ref} (hr : r < s.size) :
    Gives (pure r : Build Ref) t fun n u => u.Stands n (s.tree r) := by
  have hr' : s.Stands r (s.tree r) := ⟨hr, rfl⟩
  exact Gives.pure (hr'.of_le hst)

theorem ofEntries_gives {s t : Store} (hst : s ≤ t) {entries : List (Repository × Ref)} {fallback : Ref}
    (he : ∀ p ∈ entries, p.2 < s.size) (hf : fallback < s.size) :
    Gives (ofEntries s entries fallback) t fun r u =>
      u.Stands r (Expr.ofEntries (s.entryTrees entries) (s.tree fallback)) := by
  have hkept := s.entryTrees_keptEntries entries fallback
  rw [ofEntries, Expr.ofEntries_eq, ← hkept, Store.elsewhere_tree]
  cases hk : s.keptEntries entries fallback with
  | nil =>
    rw [if_pos (show s.entryTrees [] = [] from rfl)]
    show Gives (pure (s.elsewhere fallback) : Build Ref) t _
    exact left_alone_gives hst (Store.elsewhere_lt hf)
  | cons p kept =>
    rw [if_neg (show s.entryTrees (p :: kept) ≠ [] from List.cons_ne_nil _ _)]
    refine make_gives (k := .perRepo (p :: kept) (s.elsewhere fallback)) hst ?_
    rw [← hk]
    refine List.forall_mem_cons.mpr ⟨Store.elsewhere_lt hf, fun e hm => ?_⟩
    obtain ⟨q, hq, rfl⟩ := List.mem_map.mp hm
    exact Store.keptEntries_lt he hf hq

/-! ## Connectives -/

theorem stands_all {α : Type} {s : Store} {f : α → Expr} {as : List α} {rs : List Ref}
    (h : List.Forall₂ (fun a r => s.Stands r (f a)) as rs) : s.Has rs ∧ rs.map s.tree = as.map f := by
  induction h with
  | nil => exact ⟨fun _ he => absurd he List.not_mem_nil, rfl⟩
  | cons ha _ ih => exact ⟨List.forall_mem_cons.mpr ⟨ha.1, ih.1⟩, by rw [List.map_cons, List.map_cons, ha.2, ih.2]⟩

/-- Nodes made one after another still stand for what they stood for when they were made. -/
theorem nodes_give {α : Type} {f : α → Expr} {as : List α} {m : { a // a ∈ as } → Build Ref} {s : Store}
    (h : ∀ a (ha : a ∈ as), ∀ t, s ≤ t → Gives (m ⟨a, ha⟩) t fun r u => u.Stands r (f a)) :
    Gives (as.attach.mapM m) s fun rs t => t.Has rs ∧ rs.map t.tree = as.map f := by
  have hall : Gives (as.attach.mapM m) s fun rs t =>
      True ∧ List.Forall₂ (fun a r => t.Stands r (f a)) as rs :=
    Gives.attach_mapM (K := fun a r (t : Store) => t.Stands r (f a)) (fun hst hr => hr.of_le hst) trivial
      fun a ha t hst _ => (h a ha t hst).mono fun r u _ hr => ⟨trivial, hr⟩
  exact hall.mono fun rs t _ ⟨_, hrs⟩ => stands_all hrs

/-- A connective of nodes that were made one after another. -/
theorem combined_gives {α : Type} {connective : Store → List Ref → Build Ref} {onTrees : List Expr → Expr}
    (hc : ∀ {s : Store} {es : List Ref}, s.Has es →
      Gives (connective s es) s fun n t => t.Stands n (onTrees (es.map s.tree)))
    {f : α → Expr} {as : List α} {m : { a // a ∈ as } → Build Ref} {s : Store}
    (h : ∀ a (ha : a ∈ as), ∀ t, s ≤ t → Gives (m ⟨a, ha⟩) t fun r u => u.Stands r (f a)) :
    Gives (do
      let rs ← as.attach.mapM m
      connective (← get) rs) s fun r t => t.Stands r (onTrees (as.map f)) := by
  refine (nodes_give h).bind fun rs t _ ⟨hhas, htrees⟩ => Gives.get ?_
  rw [← htrees]
  exact hc hhas

theorem stands_entries {α : Type} {s : Store} {f : α → Repository × Expr} {as : List α}
    {entries : List (Repository × Ref)} (h : List.Forall₂ (fun a p => s.StandsAt p (f a)) as entries) :
    (∀ p ∈ entries, p.2 < s.size) ∧ s.entryTrees entries = as.map f := by
  induction h with
  | nil => exact ⟨fun _ he => absurd he List.not_mem_nil, rfl⟩
  | cons ha _ ih =>
    refine ⟨List.forall_mem_cons.mpr ⟨ha.2.1, ih.1⟩, ?_⟩
    rw [List.map_cons, ← ih.2]
    exact congrArg (· :: _) (Prod.ext ha.1 ha.2.2)

/-- Entries that were made before the fallback are put together with it. -/
theorem otherwise_gives {t : Store} {entries : List (Repository × Ref)} (hlt : ∀ p ∈ entries, p.2 < t.size)
    {m : Build Ref} {e : Expr} (hm : Gives m t fun r u => u.Stands r e) :
    Gives (do
      let fallback ← m
      ofEntries (← get) entries fallback) t fun r u => u.Stands r (Expr.ofEntries (t.entryTrees entries) e) := by
  refine hm.bind fun fallback u htu hf => Gives.get ?_
  have hlt' : ∀ p ∈ entries, p.2 < u.size := fun p hp => Nat.lt_of_lt_of_le (hlt p hp) (Store.size_le_of_le htu)
  have htrees : u.entryTrees entries = t.entryTrees entries :=
    List.map_congr_left fun p hp => Prod.ext rfl (Store.tree_of_le htu (hlt p hp))
  have hgives := ofEntries_gives (le_refl u) hlt' hf.1
  rwa [htrees, hf.2] at hgives

theorem bubbled_gives {connective : Store → List Ref → Build Ref} {onTrees : List Expr → Expr} {s t : Store}
    {es : List Ref} (hst : s ≤ t)
    (hin : ∀ q u, s ≤ u → Gives (connective s (s.allInRepo q es)) u fun r v =>
      v.Stands r (onTrees (Expr.allInRepo q (es.map s.tree))))
    (helse : ∀ u, s ≤ u → Gives (connective s (s.allElsewhere es)) u fun r v =>
      v.Stands r (onTrees (Expr.allElsewhere (es.map s.tree)))) :
    Gives (do
      let entries ← (s.repositories es).mapM fun q => do return (q, ← connective s (s.allInRepo q es))
      let fallback ← connective s (s.allElsewhere es)
      ofEntries (← get) entries fallback) t fun r u => u.Stands r (Expr.bubbled onTrees (es.map s.tree)) := by
  let entry : Repository → Repository × Expr := fun q => (q, onTrees (Expr.allInRepo q (es.map s.tree)))
  have hentries : Gives ((s.repositories es).mapM fun q => do return (q, ← connective s (s.allInRepo q es))) t
      fun entries u => True ∧ List.Forall₂ (fun q p => u.StandsAt p (entry q)) (s.repositories es) entries :=
    Gives.mapM (K := fun q p (u : Store) => u.StandsAt p (entry q)) (fun huv h => h.of_le huv) trivial
      fun q _ u htu _ => (hin q u (hst.trans htu)).bind fun r v _ hr => Gives.pure ⟨trivial, rfl, hr⟩
  refine hentries.bind fun entries u htu ⟨_, hall⟩ => ?_
  obtain ⟨hlt, htrees⟩ := stands_entries hall
  have hgives := otherwise_gives hlt (helse u (hst.trans htu))
  rwa [htrees, ← s.repositories_tree] at hgives

theorem disjunction_gives {s t : Store} {es : List Ref} (hes : s.Has es) (hst : s ≤ t) :
    Gives (disjunction s es) t fun r u => u.Stands r (Expr.disjunction (es.map s.tree)) := by
  generalize hds : es.map s.tree = ds
  induction ds using Expr.connective_induction generalizing es t with
  | bubbled ds h hin helse =>
    subst hds
    rw [Expr.disjunction_of_perRepo h, disjunction, dif_pos (by rwa [s.any_isPerRepo_tree] at h)]
    exact bubbled_gives hst (fun q u hsu => hin q (hes.allInRepo q) hsu (s.map_tree_allInRepo q es))
      fun u hsu => helse hes.allElsewhere hsu (s.map_tree_allElsewhere es)
  | plain ds h _ =>
    subst hds
    rw [Expr.disjunction_eq h, disjunction, dif_neg (by rw [← s.any_isPerRepo_tree, h]; exact Bool.false_ne_true),
      ← s.map_tree_dissolveOr, ← s.map_tree_disjuncts, s.any_isConst_tree, s.hasComplement_tree]
    split
    · exact constant_gives t true
    · have hhas := hes.disjuncts
      match hd : s.disjuncts es with
      | [] => exact constant_gives t false
      | [e] => exact left_alone_gives hst (hhas e (hd ▸ List.mem_singleton_self e))
      | d :: e :: ds => exact make_gives (k := .or (d :: e :: ds)) hst (hd ▸ hhas)

theorem map_tree_branches {s : Store} (cs : List Ref) :
    (choices ((cs.filter s.isOr).map s.operands)).map (fun choice =>
      (cs.filter (fun e => !s.isOr e) ++ choice).map s.tree) = Expr.branches (cs.map s.tree) := by
  rw [Expr.branches, ← s.map_tree_filter (P := Expr.isOr) s.isOr_tree, s.choices_operands_tree, List.map_map,
    ← s.map_tree_filter (P := fun e => !e.isOr) (fun e => by rw [s.isOr_tree])]
  exact List.map_congr_left fun choice _ => List.map_append

theorem multiplied_gives {s t : Store} {cs : List Ref} (hst : s ≤ t)
    (hbranch : ∀ choice ∈ choices ((cs.filter s.isOr).map s.operands), ∀ u, s ≤ u →
      Gives (conjunction s (cs.filter (fun e => !s.isOr e) ++ choice)) u fun r v =>
        v.Stands r (Expr.conjunction ((cs.filter (fun e => !s.isOr e) ++ choice).map s.tree))) :
    Gives (do
      let branches ← (choices ((cs.filter s.isOr).map s.operands)).attach.mapM fun ⟨choice, _⟩ =>
        conjunction s (cs.filter (fun e => !s.isOr e) ++ choice)
      disjunction (← get) branches) t fun r u =>
        u.Stands r (Expr.disjunction ((Expr.branches (cs.map s.tree)).map Expr.conjunction)) := by
  have hmap : (choices ((cs.filter s.isOr).map s.operands)).map (fun choice =>
      Expr.conjunction ((cs.filter (fun e => !s.isOr e) ++ choice).map s.tree)) =
        (Expr.branches (cs.map s.tree)).map Expr.conjunction := by
    rw [← map_tree_branches, List.map_map]
    rfl
  rw [← hmap]
  exact combined_gives (fun hes => disjunction_gives hes (le_refl _)) fun choice hc u htu =>
    hbranch choice hc u (hst.trans htu)

theorem conjunction_gives {s t : Store} {es : List Ref} (hes : s.Has es) (hst : s ≤ t) :
    Gives (conjunction s es) t fun r u => u.Stands r (Expr.conjunction (es.map s.tree)) := by
  generalize hds : es.map s.tree = ds
  induction ds using Expr.connective_induction generalizing es t with
  | bubbled ds h hin helse =>
    subst hds
    rw [Expr.conjunction_of_perRepo h, conjunction, dif_pos (by rwa [s.any_isPerRepo_tree] at h)]
    exact bubbled_gives hst (fun q u hsu => hin q (hes.allInRepo q) hsu (s.map_tree_allInRepo q es))
      fun u hsu => helse hes.allElsewhere hsu (s.map_tree_allElsewhere es)
  | plain ds h hbranch =>
    subst hds
    rw [Expr.conjunction_eq h, conjunction, dif_neg (by rw [← s.any_isPerRepo_tree, h]; exact Bool.false_ne_true),
      ← s.map_tree_dissolveAnd, ← s.map_tree_conjuncts, s.any_isConst_tree, s.hasComplement_tree]
    have hhas := hes.conjuncts
    rw [← s.map_tree_conjuncts, ← s.map_tree_filter (P := Expr.isOr) s.isOr_tree, ← map_tree_branches] at hbranch
    split
    · exact constant_gives t false
    · generalize s.conjuncts es = cs at hhas hbranch ⊢
      match cs with
      | [] => exact constant_gives t true
      | [e] => exact left_alone_gives hst (hhas e (List.mem_singleton_self e))
      | c :: d :: cs =>
        show Gives _ t fun r u => u.Stands r (Expr.multiply ((c :: d :: cs).map s.tree))
        dsimp only
        generalize c :: d :: cs = cs at hhas hbranch ⊢
        have hnil : (cs.map s.tree).filter Expr.isOr = [] ↔ cs.filter s.isOr = [] := by
          rw [← s.map_tree_filter (P := Expr.isOr) s.isOr_tree, List.map_eq_nil_iff]
        rw [Expr.multiply, ← s.map_tree_filter (P := Expr.isOr) s.isOr_tree, s.combinations_tree]
        by_cases hors : cs.filter s.isOr = []
        · rw [dif_pos hors, if_pos (Or.inl (List.map_eq_nil_iff.mpr hors))]
          exact make_gives (k := .and cs) hst hhas
        · have hors' : (cs.filter s.isOr).map s.tree ≠ [] := fun hnil => hors (List.map_eq_nil_iff.mp hnil)
          rw [dif_neg hors]
          by_cases hl : combinationLimit ≤ s.combinations (cs.filter s.isOr)
          · rw [if_pos hl, if_pos (Or.inr hl)]
            exact make_gives (k := .and cs) hst hhas
          · rw [if_neg hl, if_neg (not_or.mpr ⟨hors', hl⟩)]
            refine multiplied_gives hst fun choice hc u hsu => ?_
            have hothers : s.Has (cs.filter fun e => !s.isOr e) := hhas.sublist List.filter_sublist
            have hchoice : s.Has choice := Store.Has.choice (hhas.sublist List.filter_sublist) hc
            exact hbranch hors' _ (List.mem_map_of_mem hc) (List.forall_mem_append.mpr ⟨hothers, hchoice⟩) hsu rfl

/-- The entries come to stand for the negations of theirs, one after the other. -/
theorem negateEntries_give {s t : Store} {entries : List (Repository × Ref)}
    (h : ∀ p ∈ entries, ∀ u, t ≤ u → Gives (negate s p.2) u fun n v => v.Stands n (s.tree p.2).negate) :
    Gives (entries.attach.mapM fun ⟨(q, e), _⟩ => do return (q, ← negate s e)) t fun negated u =>
      True ∧ List.Forall₂ (fun p p' => u.StandsAt p' (p.1, (s.tree p.2).negate)) entries negated := by
  refine Gives.attach_mapM (K := fun (p : Repository × Ref) p' (u : Store) => u.StandsAt p' (p.1, (s.tree p.2).negate))
    (fun huv h => h.of_le huv) trivial fun p hp u htu _ => ?_
  exact (h p hp u htu).bind fun n v _ hn => Gives.pure ⟨trivial, rfl, hn⟩

theorem negate_gives {s t : Store} {r : Ref} (hr : r < s.size) (hst : s ≤ t) :
    Gives (negate s r) t fun n u => u.Stands n (s.tree r).negate := by
  induction r using Nat.strongRecOn generalizing t with
  | ind r ih =>
    have hrefs := s.has_refs hr
    have hpart : ∀ e ∈ (s.shape r).refs, ∀ u, t ≤ u → Gives (negate s e) u fun n v => v.Stands n (s.tree e).negate :=
      fun e he u htu => ih e (s.lt_of_mem_refs he) (hrefs e he) (hst.trans htu)
    have htree := s.tree_eq r
    rw [negate]
    split <;> rename_i hk <;> rw [hk] at htree hrefs hpart
    · rename_i b
      rw [htree]
      exact constant_gives t !b
    · rename_i l
      have hmade := make_gives (k := .not r) hst fun e he => List.mem_singleton.mp he ▸ hr
      rw [Shape.toExpr, htree] at hmade
      rw [htree]
      exact hmade
    · rename_i e
      rw [htree]
      exact left_alone_gives hst (hrefs e (List.mem_singleton_self e))
    · rw [htree, Shape.toExpr, Expr.negate, Expr.negateAll_eq_map, List.map_map]
      exact combined_gives (fun hes => disjunction_gives hes (le_refl _)) hpart
    · rw [htree, Shape.toExpr, Expr.negate, Expr.negateAll_eq_map, List.map_map]
      exact combined_gives (fun hes => conjunction_gives hes (le_refl _)) hpart
    · rename_i entries fallback
      have hall := negateEntries_give fun p hp => hpart p.2 (Shape.mem_refs_of_mem_entries (q := p.1) hp)
      refine hall.bind fun negated u htu hnegated => ?_
      obtain ⟨hlt, htrees⟩ := stands_entries hnegated.2
      have hgives := otherwise_gives hlt (hpart fallback List.mem_cons_self u htu)
      rw [htrees] at hgives
      rw [htree, Shape.toExpr, Expr.negate, Expr.negateEntries_eq_map, List.map_map]
      exact hgives

end Triage.Shared
