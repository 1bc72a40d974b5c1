/-
  Triage.Repository — the identity of a repository, "owner/name", and the repositories that are known.

  Both parts are kept in lowercase ASCII, are not empty and hold neither a slash nor a blank, so that a repository
  has one spelling, its `key`, and the key reads back. `parse` accepts any case and blanks around the whole.

  A registry holds repositories in the order in which they were defined, none of them twice. An index holds each
  repository's place in that order; `find?` goes from a name through the index to the list.
-/

import Triage.Json.Value
import Triage.Text

namespace Triage

namespace Repository

/-- What the owner and the name may be, before their case is folded. -/
def isPart (s : String) : Bool := !s.toList.isEmpty && s.toList.all fun c => c != '/' && !Text.isBlank c

end Repository

structure Repository where
  owner : String
  name : String
  owner_isPart : Repository.isPart owner = true
  name_isPart : Repository.isPart name = true
  owner_folded : Text.fold owner = owner
  name_folded : Text.fold name = name
  deriving DecidableEq

namespace Repository

theorem isPart_char_toLower {c : Char} (h : (c != '/' && !Text.isBlank c) = true) :
    (c.toLower != '/' && !Text.isBlank c.toLower) = true := by
  unfold Char.toLower
  split
  · rename_i hc
    have hA : ('A'.val : UInt32).toNat = 65 := rfl
    have hZ : ('Z'.val : UInt32).toNat = 90 := rfl
    have hs : ('a'.val - 'A'.val : UInt32).toNat = 32 := rfl
    simp only [ge_iff_le, UInt32.le_iff_toNat_le, hA, hZ] at hc
    have hn : ∀ w, (Char.mk (c.val + ('a'.val - 'A'.val)) w).toNat = c.val.toNat + 32 := by
      intro w
      show (c.val + ('a'.val - 'A'.val)).toNat = _
      rw [UInt32.toNat_add, hs]; omega
    have hne : ∀ w, Char.mk (c.val + ('a'.val - 'A'.val)) w ≠ '/' := by
      intro w he
      have := hn w
      rw [he] at this
      have h47 : ('/').toNat = 47 := rfl
      omega
    simp only [Text.isBlank, hn]
    simp only [bne_iff_ne, ne_eq, hne, not_false_eq_true, Bool.and_eq_true, true_and, Bool.not_eq_true',
      Bool.or_eq_false_iff, Bool.and_eq_false_iff, decide_eq_false_iff_not, beq_eq_false_iff_ne]
    omega
  · exact h

theorem isPart_fold {s : String} (h : isPart s = true) : isPart (Text.fold s) = true := by
  simp only [isPart, Text.toList_fold, List.isEmpty_map, List.all_map, Bool.and_eq_true, List.all_eq_true,
    Function.comp_apply] at h ⊢
  exact ⟨h.1, fun c hc => by simpa using isPart_char_toLower (by simpa using h.2 c hc)⟩

/-- The text that names no repository. -/
structure Malformed where
  text : String
  deriving DecidableEq

def Malformed.message (m : Malformed) : String := "invalid repository '" ++ m.text ++ "', expected 'owner/name'"

def make (owner name : String) : Except Malformed Repository :=
  if h : isPart owner = true ∧ isPart name = true then
    .ok ⟨Text.fold owner, Text.fold name, isPart_fold h.1, isPart_fold h.2, Text.fold_fold _, Text.fold_fold _⟩
  else .error ⟨owner ++ "/" ++ name⟩

/-- The text before the first slash and the text after it. -/
def splitSlash (s : String) : Option (String × String) :=
  match s.toList.span (· != '/') with
  | (owner, _ :: name) => some (String.ofList owner, String.ofList name)
  | (_, []) => none

def parse (s : String) : Except Malformed Repository :=
  match splitSlash (Text.trim s) with
  | some (owner, name) => make owner name
  | none => .error ⟨s⟩

def key (r : Repository) : String := r.owner ++ "/" ++ r.name

def url (r : Repository) : String := "https://github.com/" ++ r.owner ++ "/" ++ r.name

/-- By owner, then by name, each in the order of code points. -/
def before (r s : Repository) : Bool := r.owner < s.owner || (r.owner == s.owner && r.name < s.name)

/-! ## JSON -/

/-- A repository is written as its key. -/
def toJson (r : Repository) : Json.Value := .ofText r.key

/-- A repository is read from any text that names it. -/
def ofJson? (v : Json.Value) : Option Repository := do (parse (← v.text?)).toOption

end Repository

/-! ## Registries -/

structure Registry where
  repositories : List Repository
  index : List (Repository × Nat)

namespace Registry

def empty : Registry := ⟨[], []⟩

def size (g : Registry) : Nat := g.repositories.length

def isEmpty (g : Registry) : Bool := g.repositories.isEmpty

def place? (g : Registry) (r : Repository) : Option Nat := g.index.lookup r

def contains (g : Registry) (r : Repository) : Bool := (g.place? r).isSome

def add (g : Registry) (r : Repository) : Registry := ⟨g.repositories ++ [r], (r, g.size) :: g.index⟩

/-- Defines the repositories one by one; the error is the first that is there already. -/
def addAll (g : Registry) : List Repository → Except Repository Registry
  | [] => .ok g
  | r :: rs => if g.contains r then .error r else (g.add r).addAll rs

def ofList (rs : List Repository) : Except Repository Registry := empty.addAll rs

/-- The repository of that name, if it is a name and its repository is known. -/
def find? (g : Registry) (name : String) : Option Repository :=
  match Repository.parse name with
  | .ok r => (g.place? r).bind (g.repositories[·]?)
  | .error _ => none

end Registry

end Triage
