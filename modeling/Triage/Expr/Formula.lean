/-
  Triage.Expr.Formula — an expression with its normal form, which is found when it is first asked for and then kept.

  A formula is made from formulas, and its normal form from theirs: a part that occurs in many places, as a leaf that
  other leaves call, is normalized once. Nothing but the time it takes depends on what has been asked before, since a
  formula is known by its expression (`Formula.ext`).
-/

import Triage.Expr.Normal

namespace Triage

namespace Expr

theorem normalizeAll_eq_map (es : List Expr) : normalizeAll es = es.map normalize := by
  induction es with
  | nil => rfl
  | cons e es ih => rw [normalizeAll, ih]; rfl

theorem normalizeEntries_eq_map (es : List (Repository × Expr)) :
    normalizeEntries es = es.map fun (r, e) => (r, e.normalize) := by
  induction es with
  | nil => rfl
  | cons e es ih => rw [normalizeEntries, ih]; rfl

end Expr

structure Formula where
  expr : Expr
  normalForm : Thunk Expr
  normalForm_get : normalForm.get = expr.normalize

namespace Formula

@[ext] theorem ext {f g : Formula} (h : f.expr = g.expr) : f = g := by
  obtain ⟨e, ⟨n⟩, hn⟩ := f
  obtain ⟨e', ⟨n'⟩, hn'⟩ := g
  obtain rfl : e = e' := h
  obtain rfl : n = n' := funext fun _ => hn.trans hn'.symm
  rfl

/-- The normal form of the expression. -/
def normal (f : Formula) : Expr := f.normalForm.get

@[simp] theorem normal_eq (f : Formula) : f.normal = f.expr.normalize := f.normalForm_get

theorem map_normal (fs : List Formula) : fs.map normal = (fs.map expr).map Expr.normalize := by simp

def ofExpr (e : Expr) : Formula := ⟨e, ⟨fun _ => e.normalize⟩, rfl⟩

def const (b : Bool) : Formula := ofExpr (.const b)

def leaf (l : Leaf) : Formula := ofExpr (.leaf l)

def not (f : Formula) : Formula := ⟨.not f.expr, ⟨fun _ => f.normal.negate⟩, congrArg Expr.negate f.normal_eq⟩

def and (fs : List Formula) : Formula where
  expr := .and (fs.map expr)
  normalForm := ⟨fun _ => Expr.conjunction (fs.map normal)⟩
  normalForm_get := by
    rw [Expr.normalize, Expr.normalizeAll_eq_map, ← map_normal]
    rfl

def or (fs : List Formula) : Formula where
  expr := .or (fs.map expr)
  normalForm := ⟨fun _ => Expr.disjunction (fs.map normal)⟩
  normalForm_get := by
    rw [Expr.normalize, Expr.normalizeAll_eq_map, ← map_normal]
    rfl

def perRepo (m : PerRepo Formula) : Formula where
  expr := (m.map expr).toExpr
  normalForm := ⟨fun _ => Expr.ofEntries (m.map normal).entries (m.map normal).fallback⟩
  normalForm_get := by
    show Expr.ofEntries _ _ = Expr.normalize (.perRepo _ _)
    rw [Expr.normalize, Expr.normalizeEntries_eq_map]
    simp [PerRepo.map, Function.comp_def]

/-- The conjunction of the operands, true if there are none. -/
def all : List Formula → Formula
  | [] => const true
  | fs => and fs

/-- The disjunction of the operands, false if there are none. -/
def any : List Formula → Formula
  | [] => const false
  | fs => or fs

@[simp] theorem expr_ofExpr (e : Expr) : (ofExpr e).expr = e := rfl

@[simp] theorem ofExpr_expr (f : Formula) : ofExpr f.expr = f := ext rfl

@[simp] theorem expr_const (b : Bool) : (const b).expr = .const b := rfl

@[simp] theorem expr_leaf (l : Leaf) : (leaf l).expr = .leaf l := rfl

@[simp] theorem expr_not (f : Formula) : f.not.expr = .not f.expr := rfl

@[simp] theorem expr_and (fs : List Formula) : (and fs).expr = .and (fs.map expr) := rfl

@[simp] theorem expr_or (fs : List Formula) : (or fs).expr = .or (fs.map expr) := rfl

@[simp] theorem expr_perRepo (m : PerRepo Formula) : (perRepo m).expr = (m.map expr).toExpr := rfl

@[simp] theorem expr_all (fs : List Formula) : (all fs).expr = .all (fs.map expr) := by cases fs <;> rfl

@[simp] theorem expr_any (fs : List Formula) : (any fs).expr = .any (fs.map expr) := by cases fs <;> rfl

end Formula

end Triage
