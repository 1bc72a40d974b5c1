/-
  Triage.Shared.Memo — nodes that remember their normal form.

  Beside each node there is a memo: nothing yet, that the node is its own normal form, or the node of its normal form.
  While a memo is being found it is `busy`, and to need it then, to read or to write, is a fault that nothing gets out
  of. A normal form is remembered as its own normal form, unless something is remembered of its node already.

  A heap changes when a node is made of nodes that exist and when one of them is normalized (`Command`). What is made is
  the node that is asked for (`make`), be it one more constant or a connective without operands, or a node that is there
  already where the shape is one of these (`construct`).

  Beside a node there is one more memo, for whether it is normal (`Expr.isNormalized`). Nothing here asks that, so this
  memo is left out.
-/

import Triage.Shared.Normal

namespace Triage.Shared

inductive Memo where
  | unset
  | busy
  /-- The node is its own normal form. -/
  | itself
  | other (r : Ref)
  deriving DecidableEq, Repr

structure Heap where
  store : Store
  memo : Ref → Memo

namespace Heap

def start : Heap := ⟨.start, fun _ => .unset⟩

def size (h : Heap) : Nat := h.store.size

def tree (h : Heap) (r : Ref) : Expr := h.store.tree r

def remember (h : Heap) (r : Ref) (m : Memo) : Heap := { h with memo := fun i => if i = r then m else h.memo i }

@[simp] theorem memo_remember_self (h : Heap) (r : Ref) (m : Memo) : (h.remember r m).memo r = m := if_pos rfl

theorem memo_remember_of_ne (h : Heap) {i r : Ref} (hir : i ≠ r) (m : Memo) : (h.remember r m).memo i = h.memo i :=
  if_neg hir

end Heap

/-- What makes nodes and remembers normal forms, or ends in a fault. -/
abbrev Run := StateT Heap (Except Fault)

/-- Nodes are made without a look at what is remembered. -/
def build {α : Type} (m : Store → Build α) : Run α := fun h =>
  match m h.store h.store with
  | .ok (a, s) => .ok (a, { h with store := s })
  | .error f => .error f

def remember (r : Ref) (m : Memo) : Run Unit := modify fun h => h.remember r m

/-- A normal form is its own normal form. What is remembered of its node already is left as it is. -/
def rememberItself (r : Ref) : Run Unit := do
  match (← get).memo r with
  | .busy => throw .reentered
  | .unset => remember r .itself
  | .itself | .other _ => return ()

/-- The normal form of `r` is remembered of both nodes. -/
def settle (r n : Ref) : Run Ref := do
  if n = r then
    remember r .itself
  else
    rememberItself n
    remember r (.other n)
  return n

/-- The normal form of a node, as remembered or else from those of its parts. -/
def normalize (r : Ref) : Run Ref := do
  let h ← get
  match h.memo r with
  | .busy => throw .reentered
  | .itself => return r
  | .other n => return n
  | .unset =>
    remember r .busy
    let n ← (match _hk : h.store.shape r with
      | .const _ | .leaf _ => return r
      | .not e => do
        let n ← normalize e
        build fun s => negate s n
      | .and es => do
        let ns ← es.attach.mapM fun ⟨e, _he⟩ => normalize e
        build fun s => conjunction s ns
      | .or es => do
        let ns ← es.attach.mapM fun ⟨e, _he⟩ => normalize e
        build fun s => disjunction s ns
      | .perRepo entries fallback => do
        let ns ← entries.attach.mapM fun ⟨(q, e), _he⟩ => do return (q, ← normalize e)
        let n ← normalize fallback
        build fun s => ofEntries s ns n)
    settle r n
  termination_by r
  decreasing_by
    · exact h.store.lt_of_mem_refs (by rw [_hk]; exact List.mem_singleton_self e)
    · exact h.store.lt_of_mem_refs (by rw [_hk]; exact _he)
    · exact h.store.lt_of_mem_refs (by rw [_hk]; exact _he)
    · exact h.store.lt_of_mem_refs (by rw [_hk]; exact Shape.mem_refs_of_mem_entries _he)
    · exact h.store.lt_of_mem_refs (by rw [_hk]; exact List.mem_cons_self)

/-! ## Histories -/

inductive Command where
  /-- The node of this shape, whatever the shape is. -/
  | node (k : Shape)
  /-- What stands for the shape: a constant that is there already, or a node. -/
  | make (k : Shape)
  | normalize (r : Ref)

namespace Command

def refs : Command → List Ref
  | .node k | .make k => k.refs
  | .normalize r => [r]

def run : Command → Run Ref
  | .node k => build fun _ => Shared.make k
  | .make k => build fun _ => construct k
  | .normalize r => Shared.normalize r

end Command

/-- What has been asked of the heap since the start and the nodes that were the answers, the latest first. Only nodes
    that exist can be asked about. -/
inductive History : List (Command × Ref) → Heap → Prop
  | start : History [] .start
  | next {past : List (Command × Ref)} {h h' : Heap} {c : Command} {n : Ref} : History past h →
      (∀ r ∈ c.refs, r < h.size) → c.run h = .ok (n, h') → History ((c, n) :: past) h'

end Triage.Shared
