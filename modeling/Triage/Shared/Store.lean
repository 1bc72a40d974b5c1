/-
  Triage.Shared.Store — expressions as nodes that can be shared.

  A node says of what kind an expression is and refers to the nodes of its parts. It is made of nodes that exist, so it
  is older than whatever refers to it, no node is a part of itself, and one node may be a part of many. What a node
  stands for is a tree (`Store.tree`), and since nodes never change, a tree stays the same when nodes are added
  (`Store.tree_of_le`). The two constants are there from the start; nothing keeps others from being made.
-/

import Triage.Expr.Basic

namespace Triage.Shared

/-- A node, known by the number of nodes that are older. -/
abbrev Ref := Nat

inductive Shape where
  | const (b : Bool)
  | leaf (l : Leaf)
  | not (e : Ref)
  | and (es : List Ref)
  | or (es : List Ref)
  | perRepo (entries : List (Repository × Ref)) (fallback : Ref)

namespace Shape

def refs : Shape → List Ref
  | .const _ | .leaf _ => []
  | .not e => [e]
  | .and es | .or es => es
  | .perRepo entries fallback => fallback :: entries.map Prod.snd

theorem mem_refs_of_mem_entries {entries : List (Repository × Ref)} {fallback e : Ref} {q : Repository}
    (h : (q, e) ∈ entries) : e ∈ (perRepo entries fallback).refs :=
  List.mem_cons_of_mem fallback (List.mem_map_of_mem (f := Prod.snd) h)

/-- The expression of this shape whose parts are the given ones. -/
def toExpr (part : Ref → Expr) : Shape → Expr
  | .const b => .const b
  | .leaf l => .leaf l
  | .not e => .not (part e)
  | .and es => .and (es.map part)
  | .or es => .or (es.map part)
  | .perRepo entries fallback => .perRepo (entries.map fun (q, e) => (q, part e)) (part fallback)

/-- The expression that is made of the given parts. A connective without any is a constant. -/
def made (part : Ref → Expr) (k : Shape) : Expr :=
  match k.toExpr part with
  | .and es => .all es
  | .or es => .any es
  | e => e

theorem toExpr_congr {f g : Ref → Expr} (k : Shape) (h : ∀ r ∈ k.refs, f r = g r) : k.toExpr f = k.toExpr g := by
  cases k with
  | const b => rfl
  | leaf l => rfl
  | not e => exact congrArg Expr.not (h e (List.mem_singleton_self e))
  | and es => exact congrArg Expr.and (List.map_congr_left h)
  | or es => exact congrArg Expr.or (List.map_congr_left h)
  | perRepo entries fallback =>
    have hf : f fallback = g fallback := h fallback List.mem_cons_self
    have he : (entries.map fun (q, e) => (q, f e)) = entries.map fun (q, e) => (q, g e) := by
      refine List.map_congr_left fun p hp => ?_
      exact Prod.ext rfl (h p.2 (mem_refs_of_mem_entries hp))
    rw [toExpr, toExpr, hf, he]

theorem made_congr {f g : Ref → Expr} (k : Shape) (h : ∀ r ∈ k.refs, f r = g r) : k.made f = k.made g := by
  rw [made, made, toExpr_congr k h]

end Shape

/-! ## Lists of nodes, the newest first -/

/-- Each node refers to older ones. -/
def Older : List Shape → Prop
  | [] => True
  | k :: ks => (∀ r ∈ k.refs, r < ks.length) ∧ Older ks

def shapeIn : List Shape → Ref → Shape
  | [], _ => .const false
  | k :: ks, r => if r = ks.length then k else shapeIn ks r

def treeIn : List Shape → Ref → Expr
  | [], _ => .const false
  | k :: ks, r => if r = ks.length then k.toExpr (treeIn ks) else treeIn ks r

theorem lt_of_mem_shapeIn {ks : List Shape} (h : Older ks) {r e : Ref} (he : e ∈ (shapeIn ks r).refs) : e < r := by
  induction ks with
  | nil => cases he
  | cons k ks ih =>
    rw [shapeIn] at he
    split at he
    · rename_i hr
      rw [hr]
      exact h.1 e he
    · exact ih h.2 he

theorem shapeIn_of_length_le {ks : List Shape} {r : Ref} (h : ks.length ≤ r) : shapeIn ks r = .const false := by
  induction ks with
  | nil => rfl
  | cons k ks ih =>
    have hlt : ks.length < r := h
    rw [shapeIn, if_neg (Nat.ne_of_gt hlt), ih (Nat.le_of_lt hlt)]

theorem treeIn_of_suffix {ks more : List Shape} (h : ks <:+ more) {r : Ref} (hr : r < ks.length) :
    treeIn more r = treeIn ks r := by
  obtain ⟨newer, rfl⟩ := h
  induction newer with
  | nil => rfl
  | cons k newer ih =>
    have hlt : r < (newer ++ ks).length := by
      rw [List.length_append]
      exact Nat.lt_of_lt_of_le hr (Nat.le_add_left _ _)
    rw [List.cons_append, treeIn, if_neg (Nat.ne_of_lt hlt), ih]

/-- The tree of a node is made of the trees of the nodes that it refers to. -/
theorem treeIn_eq {ks : List Shape} (h : Older ks) (r : Ref) : treeIn ks r = (shapeIn ks r).toExpr (treeIn ks) := by
  induction ks with
  | nil => rfl
  | cons k ks ih =>
    have hold : ∀ e < ks.length, treeIn ks e = treeIn (k :: ks) e := fun e he =>
      (treeIn_of_suffix (List.suffix_cons k ks) he).symm
    rw [treeIn, shapeIn]
    by_cases hr : r = ks.length
    · rw [if_pos hr, if_pos hr]
      exact Shape.toExpr_congr k fun e he => hold e (h.1 e he)
    · rw [if_neg hr, if_neg hr, ih h.2]
      refine Shape.toExpr_congr _ fun e he => hold e ?_
      by_cases hlt : r < ks.length
      · exact Nat.lt_trans (lt_of_mem_shapeIn h.2 he) hlt
      · rw [shapeIn_of_length_le (Nat.le_of_not_lt hlt)] at he
        cases he

/-! ## Stores -/

/-- The oldest nodes. -/
def constants : List Shape := [.const true, .const false]

/-- The node of a constant. -/
def constant (b : Bool) : Ref := if b then 1 else 0

structure Store where
  /-- The newest first. -/
  shapes : List Shape
  older : Older shapes
  constants_suffix : constants <:+ shapes

namespace Store

def start : Store := ⟨constants, by simp [constants, Older, Shape.refs], List.suffix_refl _⟩

def size (s : Store) : Nat := s.shapes.length

def shape (s : Store) (r : Ref) : Shape := shapeIn s.shapes r

def tree (s : Store) (r : Ref) : Expr := treeIn s.shapes r

def push (s : Store) (k : Shape) (h : ∀ r ∈ k.refs, r < s.size) : Store where
  shapes := k :: s.shapes
  older := ⟨h, s.older⟩
  constants_suffix := s.constants_suffix.trans (List.suffix_cons k s.shapes)

theorem tree_eq (s : Store) (r : Ref) : s.tree r = (s.shape r).toExpr s.tree := treeIn_eq s.older r

theorem lt_of_mem_refs {s : Store} {r e : Ref} (h : e ∈ (s.shape r).refs) : e < r := lt_of_mem_shapeIn s.older h

/-- One store comes after another if it has all its nodes. -/
instance : LE Store := ⟨fun s t => s.shapes <:+ t.shapes⟩

theorem size_le_of_le {s t : Store} (h : s ≤ t) : s.size ≤ t.size := List.IsSuffix.length_le h

theorem tree_of_le {s t : Store} (h : s ≤ t) {r : Ref} (hr : r < s.size) : t.tree r = s.tree r :=
  treeIn_of_suffix h hr

theorem le_push {s : Store} {k : Shape} (h : ∀ r ∈ k.refs, r < s.size) : s ≤ s.push k h := List.suffix_cons k s.shapes

theorem tree_push {s : Store} {k : Shape} (h : ∀ r ∈ k.refs, r < s.size) :
    (s.push k h).tree s.size = k.toExpr s.tree := by
  show treeIn (k :: s.shapes) s.shapes.length = k.toExpr (treeIn s.shapes)
  rw [treeIn, if_pos rfl]

theorem constant_lt_size (s : Store) (b : Bool) : constant b < s.size := by
  have hlen : 2 ≤ s.size := s.constants_suffix.length_le
  cases b with
  | true => exact hlen
  | false => exact Nat.lt_of_lt_of_le Nat.zero_lt_two hlen

theorem tree_constant (s : Store) (b : Bool) : s.tree (constant b) = .const b := by
  have hb : constant b < constants.length := by cases b <;> decide
  rw [tree, treeIn_of_suffix s.constants_suffix hb]
  cases b <;> rfl

end Store

end Triage.Shared
