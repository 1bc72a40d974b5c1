/-
  Triage.Regex.Basic — regular expressions over characters.

  Sequences and alternatives lean to the right: `elements` and `branches` are their parts. `ofSet`, `ofSeq`, `ofAlt`
  and `repeated` build an expression in its simplest form, which matches the same and has a size of its own: texts
  side by side become one text, alternatives that are characters or sets become one set, and what all alternatives
  begin with is moved in front of them.
-/

import Triage.Regex.Properties

namespace Triage

/-- What a place between two characters can be asked to be. -/
inductive Regex.Edge where
  | textStart
  | textEnd
  | lineStart
  | lineEnd
  | wordEdge
  | noWordEdge
  | wordStart
  | wordEnd
  /-- No word character before. -/
  | halfStart
  /-- No word character after. -/
  | halfEnd
  deriving DecidableEq

inductive Regex where
  /-- The characters one after another, or nothing at all. -/
  | text (cs : List Char)
  | one (s : Unicode.Ranges)
  | edge (e : Regex.Edge)
  /-- A group that captures. No two groups of a pattern have one number, so no two are equal. -/
  | group (number : Nat) (r : Regex)
  /-- From `least` to `most` times, or without end. An eager loop prefers to go on, a lazy one to stop. -/
  | loop (r : Regex) (least : Nat) (most : Option Nat) (eager : Bool)
  | seq (r s : Regex)
  | alt (r s : Regex)
  deriving DecidableEq

namespace Regex

open Unicode (Ranges)

def empty : Regex := .text []

/-- Whether the place after `prev` and before `next` is such an edge; `none` is an end of the text. -/
def Edge.holds (e : Edge) (prev next : Option Char) : Bool :=
  let before := prev.any Unicode.isWord
  let after := next.any Unicode.isWord
  match e with
  | .textStart => prev.isNone
  | .textEnd => next.isNone
  | .lineStart => prev.all (· == '\n')
  | .lineEnd => next.all (· == '\n')
  | .wordEdge => before != after
  | .noWordEdge => before == after
  | .wordStart => !before && after
  | .wordEnd => before && !after
  | .halfStart => !before
  | .halfEnd => !after

/-! ## What is known of every match -/

/-- Whether no match can have a character in it. -/
def isHollow : Regex → Bool
  | .text cs => cs.isEmpty
  | .one _ => false
  | .edge _ => true
  | .group _ r => r.isHollow
  | .loop r _ most _ => most.isSome && r.isHollow
  | .seq r s | .alt r s => r.isHollow && s.isHollow

/-- The least number of characters of a match; none where a part is an empty set. -/
def minWidth : Regex → Option Nat
  | .text cs => some cs.length
  | .one s => if s.isEmpty then none else some 1
  | .edge _ => some 0
  | .group _ r => r.minWidth
  | .loop r least _ _ => r.minWidth.map (least * ·)
  | .seq r s => do return (← r.minWidth) + (← s.minWidth)
  | .alt r s => do return min (← r.minWidth) (← s.minWidth)

/-- Whether every match starts at the start of the text. -/
def isHeadBound : Regex → Bool
  | .text _ | .one _ => false
  | .edge e => e == .textStart
  | .group _ r => r.isHeadBound
  | .loop r least _ _ => least != 0 && r.isHeadBound
  | .seq r s => r.isHeadBound || (r.isHollow && s.isHeadBound)
  | .alt r s => r.isHeadBound && s.isHeadBound

/-- Whether every match ends at the end of the text. -/
def isTailBound : Regex → Bool
  | .text _ | .one _ => false
  | .edge e => e == .textEnd
  | .group _ r => r.isTailBound
  | .loop r least _ _ => least != 0 && r.isTailBound
  | .seq r s => s.isTailBound || (s.isHollow && r.isTailBound)
  | .alt r s => r.isTailBound && s.isTailBound

/-! ## Building -/

def elements : Regex → List Regex
  | .seq r s => r :: s.elements
  | r => [r]

def branches : Regex → List Regex
  | .alt r s => r :: s.branches
  | r => [r]

/-- One character of the set; a set of one character is a text. -/
def ofSet (s : Ranges) : Regex :=
  match s.chars with
  | [(lo, hi)] => if lo = hi then .text [Char.ofNat lo] else .one [(lo, hi)]
  | s => .one s

/-- Texts side by side as one, without empty ones. -/
def joinTexts : List Regex → List Regex
  | [] => []
  | .text cs :: rs =>
    match joinTexts rs with
    | .text ds :: rest => .text (cs ++ ds) :: rest
    | rest => if cs.isEmpty then rest else .text cs :: rest
  | r :: rs => r :: joinTexts rs

def chain (join : Regex → Regex → Regex) (r : Regex) : List Regex → Regex
  | [] => r
  | s :: rs => join r (chain join s rs)

/-- The expressions one after another. -/
def ofSeq (rs : List Regex) : Regex :=
  match joinTexts (rs.flatMap elements) with
  | [] => .empty
  | r :: rest => chain .seq r rest

/-- The set of an expression for one character. -/
def set? : Regex → Option Ranges
  | .text [c] => some (.single c.toNat)
  | .one s => some s
  | _ => none

def isText : Regex → Bool
  | .text _ => true
  | _ => false

/-- One of `r` and `rs`, none of which has branches; one set where all are characters or all are sets. -/
def united (r : Regex) (rs : List Regex) : Regex :=
  let alike := (r :: rs).all isText || !(r :: rs).any isText
  match (r :: rs).mapM set? with
  | some sets => if alike then ofSet (.ofRanges sets.flatten) else chain .alt r rs
  | none => chain .alt r rs

def shared : List Regex → List Regex → List Regex
  | r :: rs, s :: ss => if r = s then r :: shared rs ss else []
  | _, _ => []

/-- What all of several sequences begin with. -/
def commonStart : List (List Regex) → List Regex
  | [] | [_] => []
  | rs :: rest => if (rs :: rest).any (·.length < 2) then [] else rest.foldl shared rs

/-- One of the alternatives `r` and `rs`. -/
def ofAlt (r : Regex) (rs : List Regex) : Regex :=
  let all := r.branches ++ rs.flatMap branches
  let start := commonStart (all.map elements)
  let rests := if start.isEmpty then all else all.flatMap fun b => (ofSeq (b.elements.drop start.length)).branches
  match rests with
  | [] => ofSet []
  | [b] => b
  | b :: bs => ofSeq (start ++ [united b bs])

/-- The expression from `least` to `most` times. One that matches nothing but places need not be repeated. -/
def repeated (r : Regex) (least : Nat) (most : Option Nat) (eager : Bool) : Regex :=
  let least := if r.isHollow then min least 1 else least
  let most := if r.isHollow then some (min (most.getD 1) 1) else most
  if most = some 0 then .empty else if least = 1 ∧ most = some 1 then r else .loop r least most eager

end Regex

end Triage
