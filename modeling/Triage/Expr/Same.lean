/-
  Triage.Expr.Same — when two expressions are the same up to the order of operands.

  The operands of a connective are compared as multisets: each operand on the left takes the first equal one on the
  right that is still free, and nothing may be left over. Entries per repository are compared as maps, leaves by
  value, patterns therefore by text.

  `same` says what is compared. `isSame` is the comparison that runs: an object in memory is the same as itself, which
  spares the comparison of large expressions that share their parts.
-/

import Triage.Expr.Basic

namespace Triage.Expr

/-- The list without the first element that satisfies `p`, if there is one. -/
def takeFirst {α : Type} (p : α → Bool) : List α → Option (List α)
  | [] => none
  | a :: as => if p a then some as else (takeFirst p as).map (a :: ·)

mutual

def same : Expr → Expr → Bool
  | .const a, .const b => a == b
  | .leaf a, .leaf b => a == b
  | .not a, .not b => same a b
  | .and as, .and bs => sameOperands as bs
  | .or as, .or bs => sameOperands as bs
  | .perRepo es a, .perRepo fs b => sameEntries es fs && same a b
  | _, _ => false

def sameOperands : List Expr → List Expr → Bool
  | [], bs => bs.isEmpty
  | a :: as, bs => match takeFirst (fun b => same a b) bs with
    | some rest => sameOperands as rest
    | none => false

def sameEntries : List (Repository × Expr) → List (Repository × Expr) → Bool
  | [], fs => fs.isEmpty
  | _ :: _, [] => false
  | (r, a) :: es, (s, b) :: fs => r == s && same a b && sameEntries es fs

end

/-! ## Laws -/

mutual

theorem same_self : (e : Expr) → same e e = true
  | .const _ | .leaf _ => by simp [same]
  | .not e => by rw [same]; exact same_self e
  | .and es | .or es => by rw [same]; exact sameOperands_self es
  | .perRepo es e => by rw [same, sameEntries_self es, same_self e]; rfl

theorem sameOperands_self : (es : List Expr) → sameOperands es es = true
  | [] => rfl
  | e :: es => by
    have h : takeFirst (fun f => same e f) (e :: es) = some es := by simp [takeFirst, same_self e]
    rw [sameOperands, h]
    exact sameOperands_self es

theorem sameEntries_self : (es : List (Repository × Expr)) → sameEntries es es = true
  | [] => rfl
  | (r, e) :: es => by simp [sameEntries, same_self e, sameEntries_self es]

end

theorem length_takeFirst {α : Type} {p : α → Bool} {as rest : List α} (h : takeFirst p as = some rest) :
    as.length = rest.length + 1 := by
  induction as generalizing rest with
  | nil => cases h
  | cons a as ih =>
    unfold takeFirst at h
    split at h
    · cases h; rfl
    · obtain ⟨more, hm, rfl⟩ := Option.map_eq_some_iff.mp h
      simp [ih hm]

theorem length_eq_of_sameOperands {as bs : List Expr} (h : sameOperands as bs = true) : as.length = bs.length := by
  induction as generalizing bs with
  | nil => rw [sameOperands, List.isEmpty_iff] at h; rw [h]
  | cons a as ih =>
    rw [sameOperands] at h
    split at h
    · rename_i rest hr
      rw [length_takeFirst hr, List.length_cons, ih h]
    · cases h

theorem length_and_sameOperands (as bs : List Expr) :
    (as.length == bs.length && sameOperands as bs) = sameOperands as bs := by
  cases h : sameOperands as bs with
  | false => simp
  | true => simp [length_eq_of_sameOperands h]

/-! ## Comparing -/

mutual

def check (a b : Expr) : { r : Bool // r = same a b } :=
  let parts : Unit → { r : Bool // r = same a b } := fun _ =>
    match a, b with
    | .and as, .and bs => ⟨as.length == bs.length && (checkOperands as bs).1, by
        rw [(checkOperands as bs).2, length_and_sameOperands]; rfl⟩
    | .or as, .or bs => ⟨as.length == bs.length && (checkOperands as bs).1, by
        rw [(checkOperands as bs).2, length_and_sameOperands]; rfl⟩
    | .not a, .not b => ⟨(check a b).1, (check a b).2⟩
    | .perRepo es a, .perRepo fs b => ⟨(checkEntries es fs).1 && (check a b).1, by
        rw [(checkEntries es fs).2, (check a b).2]; rfl⟩
    | a, b => ⟨same a b, rfl⟩
  ⟨withPtrEq a b (fun u => (parts u).1) (fun h => by rw [(parts ()).2, h]; exact same_self b), (parts ()).2⟩

def checkOperands : (as bs : List Expr) → { r : Bool // r = sameOperands as bs }
  | [], bs => ⟨bs.isEmpty, rfl⟩
  | a :: as, bs =>
    ⟨match takeFirst (fun b => (check a b).1) bs with
      | some rest => (checkOperands as rest).1
      | none => false, by
      have h : (fun b => (check a b).1) = fun b => same a b := funext fun b => (check a b).2
      rw [h, sameOperands]
      split
      · rename_i rest hr
        exact (checkOperands as rest).2
      · rfl⟩

def checkEntries : (es fs : List (Repository × Expr)) → { r : Bool // r = sameEntries es fs }
  | [], fs => ⟨fs.isEmpty, rfl⟩
  | _ :: _, [] => ⟨false, rfl⟩
  | (r, a) :: es, (s, b) :: fs => ⟨r == s && (check a b).1 && (checkEntries es fs).1, by
      rw [(check a b).2, (checkEntries es fs).2]; rfl⟩

end

def isSame (a b : Expr) : Bool := (check a b).1

@[simp] theorem isSame_eq (a b : Expr) : isSame a b = same a b := (check a b).2

/-- Whether `e` is among the expressions. -/
def among (e : Expr) (es : List Expr) : Bool := es.any fun f => isSame f e

end Triage.Expr
