/-
  Triage.Proofs.Shared.Memo — memos do not show.

  A heap is `Sound` if what is remembered is right: a node that is its own normal form is one, any other normal form
  stands for that of the node's tree, and a memo that is being found belongs to a node on the stack. Normalizing keeps
  this and ends without a fault (`normalize_gives`), as long as the tree of the node lies inside the trees of the
  nodes on the stack. Parts lie inside, so a part is not on the stack. Nor is the result: whatever lies inside a normal
  form is its own normal form, so the result would be the node itself.

  Hence all that has been asked since the start was answered as if nothing were remembered, and whatever is asked next
  has an answer (`history_transparent`).
-/

import Triage.Proofs.Expr.Idempotent
import Triage.Proofs.Shared.Normal

namespace Triage.Shared

theorem inside_of_mem_refs {s : Store} {r e : Ref} (he : e ∈ (s.shape r).refs) :
    Expr.Inside (s.tree e) (s.tree r) := by
  rw [s.tree_eq r]
  cases hk : s.shape r with
  | const b => rw [hk] at he; cases he
  | leaf l => rw [hk] at he; cases he
  | not d =>
    rw [hk] at he
    rw [List.mem_singleton.mp he]
    exact ⟨.not .self, by simp [Shape.toExpr]⟩
  | and es =>
    rw [hk] at he
    have hm : s.tree e ∈ es.map s.tree := List.mem_map_of_mem he
    exact ⟨.and hm .self, Expr.sizeOf_of_mem_operands (o := .and (es.map s.tree)) hm⟩
  | or es =>
    rw [hk] at he
    have hm : s.tree e ∈ es.map s.tree := List.mem_map_of_mem he
    exact ⟨.or hm .self, Expr.sizeOf_of_mem_operands (o := .or (es.map s.tree)) hm⟩
  | perRepo entries fallback =>
    rw [hk] at he
    rcases List.mem_cons.mp he with rfl | he
    · exact ⟨.fallback .self, by simp only [Shape.toExpr, Expr.perRepo.sizeOf_spec]; omega⟩
    · obtain ⟨⟨q, d⟩, hp, rfl⟩ := List.mem_map.mp he
      rw [Shape.toExpr]
      generalize htrees : entries.map _ = trees
      have hm : (q, s.tree d) ∈ trees := htrees ▸ List.mem_map_of_mem hp
      refine ⟨.entry hm .self, ?_⟩
      have hlt := List.sizeOf_lt_of_mem hm
      simp only [Expr.perRepo.sizeOf_spec, Prod.mk.sizeOf_spec] at hlt ⊢
      omega

/-! ## Sound heaps -/

instance : Preorder Heap := Preorder.lift Heap.store

namespace Heap

/-- What is remembered of the node is right, while normal forms are being found for the nodes on the stack. -/
def Right (h : Heap) (stack : List Ref) (r : Ref) : Memo → Prop
  | .unset => True
  | .busy => r ∈ stack
  | .itself => (h.tree r).normalize = h.tree r
  | .other n => h.store.Stands n (h.tree r).normalize

structure Sound (h : Heap) (stack : List Ref) : Prop where
  right : ∀ r, h.Right stack r (h.memo r)
  /-- Nothing is remembered of a node that does not exist. -/
  unborn : ∀ r, h.size ≤ r → h.memo r = .unset

/-- A node may be looked at if its tree lies inside those of the nodes on the stack. -/
def Below (h : Heap) (r : Ref) (stack : List Ref) : Prop :=
  ∀ a ∈ stack, a < h.size ∧ Expr.Inside (h.tree r) (h.tree a)

variable {h h' : Heap} {stack : List Ref} {r : Ref}

theorem tree_of_le (hle : h ≤ h') (hr : r < h.size) : h'.tree r = h.tree r := Store.tree_of_le hle hr

theorem size_le_of_le (hle : h ≤ h') : h.size ≤ h'.size := Store.size_le_of_le hle

theorem sound_start : start.Sound [] := ⟨fun _ => trivial, fun _ _ => rfl⟩

theorem Right.of_le {m : Memo} (hm : h.Right stack r m) (hr : r < h.size) (hle : h ≤ h') : h'.Right stack r m := by
  cases m with
  | unset => trivial
  | busy => exact hm
  | itself =>
    show (h'.tree r).normalize = h'.tree r
    rw [tree_of_le hle hr]
    exact hm
  | other n =>
    show h'.store.Stands n (h'.tree r).normalize
    rw [tree_of_le hle hr]
    exact Store.Stands.of_le hm hle

theorem Sound.of_le (hs : h.Sound stack) (hle : h ≤ h') (hmemo : h'.memo = h.memo) : h'.Sound stack := by
  refine ⟨fun r => ?_, fun r hr => ?_⟩
  · rw [hmemo]
    by_cases hr : r < h.size
    · exact (hs.right r).of_le hr hle
    · rw [hs.unborn r (Nat.le_of_not_lt hr)]
      trivial
  · rw [hmemo]
    exact hs.unborn r (Nat.le_trans (size_le_of_le hle) hr)

theorem Sound.remember {stack' : List Ref} (hs : h.Sound stack) (hr : r < h.size) {m : Memo}
    (hm : h.Right stack' r m) (hstack : ∀ a ∈ stack, a ≠ r → a ∈ stack') : (h.remember r m).Sound stack' := by
  refine ⟨fun i => ?_, fun i hi => ?_⟩
  · by_cases hir : i = r
    · rw [hir, memo_remember_self]
      exact hm
    · rw [memo_remember_of_ne h hir]
      have hright := hs.right i
      cases hi : h.memo i with
      | unset => trivial
      | busy =>
        rw [hi] at hright
        exact hstack i hright hir
      | itself | other n =>
        rw [hi] at hright
        exact hright
  · have hir : i ≠ r := Nat.ne_of_gt (Nat.lt_of_lt_of_le hr hi)
    rw [memo_remember_of_ne h hir]
    exact hs.unborn i hi

theorem Below.of_le (hb : h.Below r stack) (hr : r < h.size) (hle : h ≤ h') : h'.Below r stack := by
  intro a ha
  obtain ⟨hlt, hin⟩ := hb a ha
  refine ⟨Nat.lt_of_lt_of_le hlt (size_le_of_le hle), ?_⟩
  rw [tree_of_le hle hr, tree_of_le hle hlt]
  exact hin

theorem Below.part (hb : h.Below r stack) (hr : r < h.size) {e : Ref} (he : e ∈ (h.store.shape r).refs) :
    h.Below e (r :: stack) := by
  have hin : Expr.Inside (h.tree e) (h.tree r) := inside_of_mem_refs he
  refine List.forall_mem_cons.mpr ⟨⟨hr, hin⟩, fun a ha => ?_⟩
  exact ⟨(hb a ha).1, hin.trans (hb a ha).2⟩

theorem Below.notMem (hb : h.Below r stack) : r ∉ stack :=
  fun hr => Nat.lt_irrefl _ (hb r hr).2.smaller

theorem Below.result_notMem (hb : h.Below r stack) {n : Ref} (hn : h.tree n = (h.tree r).normalize) : n ∉ stack :=
  fun hm => (hb n hm).2.ne_normalize hn

end Heap

/-! ## Normalizing -/

theorem build_gives {α : Type} {m : Store → Build α} {h : Heap} {stack : List Ref} (hs : h.Sound stack)
    {post : α → Store → Prop} (hm : Gives (m h.store) h.store post) :
    Gives (build m) h fun a u => u.Sound stack ∧ post a u.store := by
  obtain ⟨a, t, hrun, hle, ha⟩ := hm
  refine ⟨a, { h with store := t }, ?_, hle, hs.of_le hle rfl, ha⟩
  rw [build, hrun]

theorem remember_gives {h : Heap} {r : Ref} {m : Memo} {post : Unit → Heap → Prop} (hp : post () (h.remember r m)) :
    Gives (remember r m) h post :=
  ⟨(), h.remember r m, rfl, le_refl h.store, hp⟩

theorem rememberItself_gives {h : Heap} {stack : List Ref} {n : Ref} (hs : h.Sound stack) (hn : n < h.size)
    (hself : (h.tree n).normalize = h.tree n) (hstack : n ∉ stack) :
    Gives (rememberItself n) h fun _ u => u.Sound stack := by
  have hright := hs.right n
  rw [rememberItself]
  refine Gives.get ?_
  cases hm : h.memo n with
  | busy =>
    rw [hm] at hright
    exact absurd hright hstack
  | unset => exact remember_gives (hs.remember hn hself fun a ha _ => ha)
  | itself => exact Gives.pure hs
  | other i => exact Gives.pure hs

theorem settle_gives {h t : Heap} {stack : List Ref} {r n : Ref} (hht : h ≤ t) (hr : r < h.size) (hb : h.Below r stack)
    (ht : t.Sound (r :: stack)) (hn : t.store.Stands n (h.tree r).normalize) :
    Gives (settle r n) t fun n u => u.Sound stack ∧ u.store.Stands n (h.tree r).normalize := by
  have htree : t.tree r = h.tree r := Heap.tree_of_le hht hr
  have hr' : r < t.size := Nat.lt_of_lt_of_le hr (Heap.size_le_of_le hht)
  have hdrop : ∀ a ∈ r :: stack, a ≠ r → a ∈ stack := fun a ha har => (List.mem_cons.mp ha).resolve_left har
  rw [settle]
  by_cases hnr : n = r
  · rw [if_pos hnr]
    have hself : t.Right stack r .itself := by
      show (t.tree r).normalize = t.tree r
      rw [htree, ← hn.2, hnr]
      exact htree
    exact (remember_gives (ht.remember hr' hself hdrop)).bind fun _ u htu hu => Gives.pure ⟨hu, hn.of_le htu⟩
  · rw [if_neg hnr]
    have hself : (t.tree n).normalize = t.tree n := by
      show (t.store.tree n).normalize = t.store.tree n
      rw [hn.2]
      exact Expr.normalize_eq_self_of_within .self
    have hn' : n ∉ r :: stack := by
      -- the trees on the stack are around that of `r`, so none of them is its normal form
      have hstack : n ∉ stack := (hb.of_le hr hht).result_notMem (hn.2.trans (by rw [htree]))
      exact fun hm => hstack (hdrop n hm hnr)
    refine (rememberItself_gives ht hn.1 hself hn').bind fun _ u htu hu => ?_
    have hother : u.Right stack r (.other n) := by
      show u.store.Stands n (u.tree r).normalize
      rw [Heap.tree_of_le (le_trans hht htu) hr]
      exact hn.of_le htu
    have hr'' : r < u.size := Nat.lt_of_lt_of_le hr' (Heap.size_le_of_le htu)
    exact (remember_gives (hu.remember hr'' hother hdrop)).bind fun _ v huv hv =>
      Gives.pure ⟨hv, hn.of_le (le_trans htu huv)⟩

theorem parts_give {h : Heap} {stack rs : List Ref} {m : { e // e ∈ rs } → Run Ref} {f : Ref → Expr}
    (hs : h.Sound stack)
    (hm : ∀ e (he : e ∈ rs), ∀ u, h ≤ u → u.Sound stack → Gives (m ⟨e, he⟩) u fun n v =>
      v.Sound stack ∧ v.store.Stands n (f e)) :
    Gives (rs.attach.mapM m) h fun ns u => u.Sound stack ∧ u.store.Has ns ∧ ns.map u.store.tree = rs.map f := by
  have hall : Gives (rs.attach.mapM m) h fun ns u =>
      u.Sound stack ∧ List.Forall₂ (fun e n => u.store.Stands n (f e)) rs ns :=
    Gives.attach_mapM (I := fun u => u.Sound stack) (K := fun e n (u : Heap) => u.store.Stands n (f e))
      (fun hle hn => hn.of_le hle) hs hm
  exact hall.mono fun ns u _ ⟨hu, hns⟩ => ⟨hu, stands_all hns⟩

/-- A connective of the normal forms of parts. -/
theorem connected_gives {connective : Store → List Ref → Build Ref} {onTrees : List Expr → Expr}
    (hc : ∀ {s : Store} {es : List Ref}, s.Has es →
      Gives (connective s es) s fun n t => t.Stands n (onTrees (es.map s.tree)))
    {h : Heap} {stack rs : List Ref} {m : { e // e ∈ rs } → Run Ref} {f : Ref → Expr} (hs : h.Sound stack)
    (hm : ∀ e (he : e ∈ rs), ∀ u, h ≤ u → u.Sound stack → Gives (m ⟨e, he⟩) u fun n v =>
      v.Sound stack ∧ v.store.Stands n (f e)) :
    Gives (do
      let ns ← rs.attach.mapM m
      build fun s => connective s ns) h fun n u => u.Sound stack ∧ u.store.Stands n (onTrees (rs.map f)) := by
  refine (parts_give hs hm).bind fun ns u _ ⟨hu, hhas, hns⟩ => ?_
  rw [← hns]
  exact build_gives (m := fun s => connective s ns) hu (hc hhas)

/-- Expressions per repository of the normal forms of entries and fallback. -/
theorem divided_gives {h : Heap} {stack : List Ref} {entries : List (Repository × Ref)}
    {m : { p // p ∈ entries } → Run (Repository × Ref)} {f : Repository × Ref → Repository × Expr} {otherwise : Run Ref}
    {e : Expr} (hs : h.Sound stack)
    (hm : ∀ p (hp : p ∈ entries), ∀ u, h ≤ u → u.Sound stack → Gives (m ⟨p, hp⟩) u fun p' v =>
      v.Sound stack ∧ v.store.StandsAt p' (f p))
    (ho : ∀ u, h ≤ u → u.Sound stack → Gives otherwise u fun n v => v.Sound stack ∧ v.store.Stands n e) :
    Gives (do
      let ns ← entries.attach.mapM m
      let n ← otherwise
      build fun s => ofEntries s ns n) h fun n u =>
        u.Sound stack ∧ u.store.Stands n (Expr.ofEntries (entries.map f) e) := by
  have hall : Gives (entries.attach.mapM m) h fun ns u =>
      u.Sound stack ∧ List.Forall₂ (fun p p' => u.store.StandsAt p' (f p)) entries ns :=
    Gives.attach_mapM (I := fun u => u.Sound stack) (K := fun p p' (u : Heap) => u.store.StandsAt p' (f p))
      (fun hle hp => hp.of_le hle) hs hm
  refine hall.bind fun ns u hle ⟨hu, hns⟩ => (ho u hle hu).bind fun n v huv ⟨hv, hn⟩ => ?_
  obtain ⟨hlt, htrees⟩ := stands_entries (hns.imp fun _ _ hp => hp.of_le huv)
  rw [← htrees, ← hn.2]
  exact build_gives (m := fun s => ofEntries s ns n) hv (ofEntries_gives (le_refl v.store) hlt hn.1)

theorem normalize_gives {h : Heap} {stack : List Ref} {r : Ref} (hs : h.Sound stack) (hr : r < h.size)
    (hb : h.Below r stack) :
    Gives (normalize r) h fun n u => u.Sound stack ∧ u.store.Stands n (h.tree r).normalize := by
  induction r using Nat.strongRecOn generalizing h stack with
  | ind r ih =>
    have hright := hs.right r
    rw [normalize]
    refine Gives.get ?_
    split <;> rename_i hm <;> rw [hm] at hright
    · exact absurd hright hb.notMem
    · exact Gives.pure ⟨hs, hr, hright.symm⟩
    · exact Gives.pure ⟨hs, hright⟩
    have hbusy : Gives (remember r .busy) h fun _ t => t = h.remember r .busy := remember_gives rfl
    refine hbusy.bind fun _ t _ ht => ?_
    have hs' : t.Sound (r :: stack) := by
      rw [ht]
      exact hs.remember hr List.mem_cons_self fun a ha _ => List.mem_cons_of_mem r ha
    have hht : h ≤ t := ht ▸ le_refl h.store
    clear ht
    have hpart : ∀ e ∈ (h.store.shape r).refs, ∀ u, t ≤ u → u.Sound (r :: stack) →
        Gives (normalize e) u fun n v => v.Sound (r :: stack) ∧ v.store.Stands n (h.tree e).normalize := by
      intro e he u htu hu
      have hle : h ≤ u := hht.trans htu
      have he' : e < h.size := Store.has_refs hr e he
      have hrun := ih e (Store.lt_of_mem_refs he) hu (Nat.lt_of_lt_of_le he' (Heap.size_le_of_le hle))
        ((hb.part hr he).of_le he' hle)
      rwa [Heap.tree_of_le hle he'] at hrun
    have hsettle : ∀ n u, t ≤ u → u.Sound (r :: stack) ∧ u.store.Stands n (h.tree r).normalize →
        Gives (settle r n) u fun n v => v.Sound stack ∧ v.store.Stands n (h.tree r).normalize :=
      fun n u htu hun => settle_gives (hht.trans htu) hr hb hun.1 hun.2
    refine Gives.bind ?_ hsettle
    -- what is left is made of the parts as the normal form of the tree is of theirs
    have htree : h.tree r = (h.store.shape r).toExpr h.tree := h.store.tree_eq r
    split <;> rename_i hk <;> rw [hk] at htree hpart <;> rw [htree, Shape.toExpr, Expr.normalize]
    · exact Gives.pure ⟨hs', Store.Stands.of_le ⟨hr, htree⟩ hht⟩
    · exact Gives.pure ⟨hs', Store.Stands.of_le ⟨hr, htree⟩ hht⟩
    · rename_i e
      refine (hpart e (List.mem_singleton_self e) t (le_refl t) hs').bind fun n u _ hun => ?_
      rw [← hun.2.2]
      exact build_gives (m := fun s => negate s n) hun.1 (negate_gives hun.2.1 (le_refl u.store))
    · rw [Expr.normalizeAll_eq_map, List.map_map]
      exact connected_gives (fun hes => conjunction_gives hes (le_refl _)) hs' hpart
    · rw [Expr.normalizeAll_eq_map, List.map_map]
      exact connected_gives (fun hes => disjunction_gives hes (le_refl _)) hs' hpart
    · rename_i entries fallback
      rw [Expr.normalizeEntries_eq_map, List.map_map]
      refine divided_gives hs' (fun p hp u htu hu => ?_) (hpart fallback List.mem_cons_self)
      have hnode := hpart p.2 (Shape.mem_refs_of_mem_entries (q := p.1) hp) u htu hu
      exact hnode.bind fun n v _ hvn => Gives.pure ⟨hvn.1, rfl, hvn.2⟩

/-! ## Histories -/

namespace Command

/-- What the node that is the answer has to stand for, were nothing remembered. -/
def answer (part : Ref → Expr) : Command → Expr
  | .node k => k.toExpr part
  | .make k => k.made part
  | .normalize r => (part r).normalize

theorem answer_congr {f g : Ref → Expr} (c : Command) (h : ∀ r ∈ c.refs, f r = g r) : c.answer f = c.answer g := by
  cases c with
  | node k => exact Shape.toExpr_congr k h
  | make k => exact Shape.made_congr k h
  | normalize r => exact congrArg Expr.normalize (h r (List.mem_singleton_self r))

theorem run_gives {h : Heap} (hs : h.Sound []) {c : Command} (hc : ∀ r ∈ c.refs, r < h.size) :
    Gives c.run h fun n u => u.Sound [] ∧ u.store.Stands n (c.answer h.tree) := by
  cases c with
  | node k => exact build_gives (m := fun _ => Shared.make k) hs (make_gives (le_refl h.store) hc)
  | make k => exact build_gives (m := fun _ => construct k) hs (construct_gives h.store hc)
  | normalize r =>
    have hb : h.Below r [] := fun a ha => absurd ha List.not_mem_nil
    exact normalize_gives hs (hc r (List.mem_singleton_self r)) hb

end Command

theorem sound_of_history {past : List (Command × Ref)} {h : Heap} (hh : History past h) : h.Sound [] := by
  induction hh with
  | start => exact Heap.sound_start
  | next _ hc hrun ih => exact ((Command.run_gives ih hc).of_run hrun).2.1

theorem answers_of_history {past : List (Command × Ref)} {h : Heap} (hh : History past h) :
    ∀ c n, (c, n) ∈ past → (∀ r ∈ c.refs, r < h.size) ∧ h.store.Stands n (c.answer h.tree) := by
  induction hh with
  | start => exact fun c n hm => absurd hm List.not_mem_nil
  | @next past h h' c n hh hc hrun ih =>
    obtain ⟨hle, -, hn⟩ := (Command.run_gives (sound_of_history hh) hc).of_run hrun
    have hkeep : ∀ d : Command, (∀ r ∈ d.refs, r < h.size) → d.answer h.tree = d.answer h'.tree := fun d hd =>
      d.answer_congr fun r hr => (Heap.tree_of_le hle (hd r hr)).symm
    have hgrow : ∀ r : Ref, r < h.size → r < h'.size := fun r hr => Nat.lt_of_lt_of_le hr (Heap.size_le_of_le hle)
    intro d m hm
    rcases List.mem_cons.mp hm with hm | hm
    · cases hm
      rw [← hkeep c hc]
      exact ⟨fun r hr => hgrow r (hc r hr), hn⟩
    · obtain ⟨hd, hst⟩ := ih d m hm
      rw [← hkeep d hd]
      exact ⟨fun r hr => hgrow r (hd r hr), hst.of_le hle⟩

/-- Whatever has been made and normalized before, each answer stands for what it would stand for without memos, and
    whatever is asked of existing nodes has such an answer: no memo is needed while it is being found. Trees stay as
    they are. -/
theorem history_transparent {past : List (Command × Ref)} {h : Heap} (hh : History past h) :
    (∀ c n, (c, n) ∈ past → h.store.Stands n (c.answer h.tree)) ∧
      ∀ c : Command, (∀ r ∈ c.refs, r < h.size) → ∃ n h', c.run h = .ok (n, h') ∧
        h'.store.Stands n (c.answer h.tree) ∧ ∀ r < h.size, h'.tree r = h.tree r := by
  refine ⟨fun c n hm => (answers_of_history hh c n hm).2, fun c hc => ?_⟩
  obtain ⟨n, h', hrun, hle, _, hn⟩ := Command.run_gives (sound_of_history hh) hc
  exact ⟨n, h', hrun, hn, fun r hr => Heap.tree_of_le hle hr⟩

/-- A contradiction is made of a leaf that it has twice, beside a conjunction of nothing and one more constant, and
    normalized. -/
theorem history_transparent_contradiction :
    let made : List (Command × Ref) :=
      [(.make (.and [3, 2, 4, 5]), 6), (.make (.not 2), 5), (.node (.const true), 4), (.node (.and []), 3),
        (.make (.leaf (.label "bug")), 2)]
    ∃ h n h', History made h ∧ History ((.normalize 6, n) :: made) h' ∧ h'.store.isConst false n = true := by
  intro made
  let bug : Store := Store.start.push (.leaf (.label "bug")) (by decide)
  let raw : Store := (bug.push (.and []) (by decide)).push (.const true) (by decide)
  let s : Store := (raw.push (.not 2) (by decide)).push (.and [3, 2, 4, 5]) (by decide)
  have hraw : History [(.node (.const true), 4), (.node (.and []), 3), (.make (.leaf (.label "bug")), 2)]
      ⟨raw, fun _ => .unset⟩ :=
    .next (.next (.next .start (by decide) rfl) (by decide) rfl) (by decide) rfl
  have hmade : History made ⟨s, fun _ => .unset⟩ := .next (.next hraw (by decide) rfl) (by decide) rfl
  have hfalse : ((s.tree 6).normalize.isConst false) = true := by decide +kernel
  have hrefs : ∀ r ∈ (Command.normalize 6).refs, r < s.size := by decide
  obtain ⟨n, h', hrun, -, hkeep⟩ := (history_transparent hmade).2 (.normalize 6) hrefs
  have hnext : History ((.normalize 6, n) :: made) h' := .next hmade hrefs hrun
  have hn : h'.store.Stands n (h'.tree 6).normalize := (history_transparent hnext).1 (.normalize 6) n List.mem_cons_self
  refine ⟨_, n, h', hmade, hnext, ?_⟩
  rw [← Store.isConst_tree, hn.2, show h'.tree 6 = s.tree 6 from hkeep 6 (by decide)]
  exact hfalse

end Triage.Shared
