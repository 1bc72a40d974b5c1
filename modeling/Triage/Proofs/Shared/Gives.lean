/-
  Triage.Proofs.Shared.Gives — computations that end, in a state that has only grown.

  `Gives m s post` says of a computation that may end in a fault that it does not from the state `s`, and what holds
  afterwards. There is one rule for each way in which computations are put together. The rule for lists takes an
  invariant of the states between the steps and what is known of each result from then on.
-/

import Triage.Shared.Memo
import Mathlib.Data.List.Forall2
import Mathlib.Order.Basic

namespace Triage.Shared

variable {σ : Type} [Preorder σ] {α β : Type}

/-- Started in `s`, the computation ends without a fault, in a later state that has the property. -/
def Gives (m : StateT σ (Except Fault) α) (s : σ) (post : α → σ → Prop) : Prop :=
  ∃ a t, m s = .ok (a, t) ∧ s ≤ t ∧ post a t

namespace Gives

theorem pure {a : α} {s : σ} {post : α → σ → Prop} (h : post a s) : Gives (Pure.pure a) s post :=
  ⟨a, s, rfl, le_refl s, h⟩

theorem bind {m : StateT σ (Except Fault) α} {f : α → StateT σ (Except Fault) β} {s : σ} {mid : α → σ → Prop}
    {post : β → σ → Prop} (hm : Gives m s mid) (hf : ∀ a t, s ≤ t → mid a t → Gives (f a) t post) :
    Gives (m >>= f) s post := by
  obtain ⟨a, t, hrun, hst, ha⟩ := hm
  obtain ⟨b, u, hrun', htu, hb⟩ := hf a t hst ha
  refine ⟨b, u, ?_, hst.trans htu, hb⟩
  show (m s >>= fun p => f p.1 p.2) = .ok (b, u)
  rw [hrun]
  exact hrun'

theorem get {f : σ → StateT σ (Except Fault) β} {s : σ} {post : β → σ → Prop} (h : Gives (f s) s post) :
    Gives (MonadState.get >>= f) s post := h

theorem mono {m : StateT σ (Except Fault) α} {s : σ} {post post' : α → σ → Prop} (h : Gives m s post)
    (hpost : ∀ a t, s ≤ t → post a t → post' a t) : Gives m s post' := by
  obtain ⟨a, t, hrun, hst, ha⟩ := h
  exact ⟨a, t, hrun, hst, hpost a t hst ha⟩

/-- A computation that ended did so as it had to. -/
theorem of_run {m : StateT σ (Except Fault) α} {s t : σ} {a : α} {post : α → σ → Prop} (h : Gives m s post)
    (hrun : m s = .ok (a, t)) : s ≤ t ∧ post a t := by
  obtain ⟨b, u, hrun', hsu, hb⟩ := h
  rw [hrun] at hrun'
  cases hrun'
  exact ⟨hsu, hb⟩

/-- Step by step through a list: the invariant holds in between, and what is known of a result stays known. -/
theorem mapM {f : α → StateT σ (Except Fault) β} {I : σ → Prop} {K : α → β → σ → Prop}
    (hK : ∀ {a b} {s t : σ}, s ≤ t → K a b s → K a b t) {as : List α} {s : σ} (hs : I s)
    (h : ∀ a ∈ as, ∀ t, s ≤ t → I t → Gives (f a) t fun b u => I u ∧ K a b u) :
    Gives (as.mapM f) s fun bs u => I u ∧ List.Forall₂ (fun a b => K a b u) as bs := by
  induction as generalizing s with
  | nil => exact Gives.pure ⟨hs, .nil⟩
  | cons a as ih =>
    rw [List.mapM_cons]
    refine (h a List.mem_cons_self s (le_refl s) hs).bind fun b t hst ⟨ht, hb⟩ => ?_
    have hrest : ∀ c ∈ as, ∀ u, t ≤ u → I u → Gives (f c) u fun d v => I v ∧ K c d v :=
      fun c hc u htu hu => h c (List.mem_cons_of_mem a hc) u (hst.trans htu) hu
    exact (ih ht hrest).bind fun bs u htu ⟨hu, hbs⟩ => Gives.pure ⟨hu, .cons (hK htu hb) hbs⟩

theorem attach_mapM {as : List α} {f : { a // a ∈ as } → StateT σ (Except Fault) β} {I : σ → Prop}
    {K : α → β → σ → Prop} (hK : ∀ {a b} {s t : σ}, s ≤ t → K a b s → K a b t) {s : σ} (hs : I s)
    (h : ∀ a (ha : a ∈ as), ∀ t, s ≤ t → I t → Gives (f ⟨a, ha⟩) t fun b u => I u ∧ K a b u) :
    Gives (as.attach.mapM f) s fun bs u => I u ∧ List.Forall₂ (fun a b => K a b u) as bs := by
  have hall : Gives (as.attach.mapM f) s fun bs u =>
      I u ∧ List.Forall₂ (fun (a : { a // a ∈ as }) b => K a.val b u) as.attach bs :=
    Gives.mapM (K := fun (a : { a // a ∈ as }) => K a.val) hK hs fun a _ => h a.val a.property
  refine hall.mono fun bs u _ ⟨hu, hbs⟩ => ⟨hu, ?_⟩
  have hvals := List.forall₂_map_left_iff (f := Subtype.val) (R := fun a b => K a b u) |>.mpr hbs
  rwa [List.attach_map_subtype_val] at hvals

end Gives

end Triage.Shared
