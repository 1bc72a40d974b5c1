/-
  Triage.Regex.Engine — whether a regular expression matches somewhere in a text, and the engine that goes with it.

  A place is the number of characters before it, and a set of places is a number that has the bits of its places. A
  plan is what an expression does with places of one text: from places where a match may start to places where it can
  end. The places of a set are led on all at once, and every part of a plan keeps what it has been given: a loop is
  entered at a place only once, so nested loops take no more rounds than there are places for each.

  What is said of expressions and catalogs holds with any engine. This one is for programs, which need one, and for
  what is said of single issues. Classes by Unicode property, as in `\p{L}`, and the flags `x`, `u` and `R` are not
  known to it; it takes a text with one of these for no regular expression.
-/

import Std.Data.HashMap
import Triage.Expr.Basic
import Triage.Regex.Basic
import Triage.Regex.Parser

namespace Triage.Regex

open Unicode (Ranges)

abbrev Places := Nat

inductive Plan where
  /-- From the places of `start`, `width` characters on. -/
  | move (start : Places) (width : Nat)
  | seq (p q : Plan)
  | alt (p q : Plan)
  | times (p : Plan) (least most : Nat)
  /-- Once or more, in a text of fewer than `bound` places. -/
  | more (p : Plan) (bound : Nat)

/-- What a plan has been given before. -/
inductive Progress where
  | untouched
  | both (a b : Progress)
  | rounds (ps : List Progress)
  | reached (ps : Places) (body : Progress)

namespace Progress

def parts : Progress → Progress × Progress
  | .both a b => (a, b)
  | _ => (.untouched, .untouched)

def started : Progress → List Progress
  | .rounds ps => ps
  | _ => []

def seen : Progress → Places × Progress
  | .reached ps body => (ps, body)
  | _ => (0, .untouched)

end Progress

namespace Plan

/-- Leads places through at most `left` rounds and collects in `out` those that `least` rounds or more have led to.
    Every round has a progress of its own. -/
def eachRound (f : Progress → Places → Places × Progress) :
    Nat → Nat → List Progress → List Progress → Places → Places → Places × List Progress
  | 0, _, started, done, ps, out => (out ||| ps, done.reverse ++ started)
  | left + 1, least, started, done, ps, out =>
    if ps = 0 then (out, done.reverse ++ started)
    else
      let (next, progress) := f (started.headD .untouched) ps
      eachRound f left (least - 1) started.tail (progress :: done) next (if least = 0 then out ||| ps else out)

/-- Leads the places that have not been seen round and round until none is new, and collects in `out` where every
    round has led. -/
def closure (f : Progress → Places → Places × Progress) :
    Nat → Places → Progress → Places → Places → Places × Progress
  | 0, seen, body, _, out => (out, .reached seen body)
  | n + 1, seen, body, ps, out =>
    let new := (ps ||| seen) ^^^ seen
    if new = 0 then (out, .reached seen body)
    else
      let (next, body) := f body new
      closure f n (seen ||| new) body next (out ||| next)

/-- Leads places on. What earlier places have led to may be left out. -/
def lead (p : Plan) (before : Progress) (ps : Places) : Places × Progress :=
  if ps = 0 then (0, before)
  else match p with
    | .move start width => ((ps &&& start) <<< width, before)
    | .seq p q =>
      let (next, a) := p.lead before.parts.1 ps
      let (out, b) := q.lead before.parts.2 next
      (out, .both a b)
    | .alt p q =>
      let (left, a) := p.lead before.parts.1 ps
      let (right, b) := q.lead before.parts.2 ps
      (left ||| right, .both a b)
    | .times p least most =>
      let (out, rounds) := eachRound p.lead most least before.started [] ps 0
      (out, .rounds rounds)
    | .more p bound => closure p.lead bound before.seen.1 before.seen.2 ps 0

/-- The places from `first` on, fewer than `2 ^ levels` of them, that pass. -/
def placesFrom (ok : Nat → Bool) : Nat → Nat → Places
  | 0, first => if ok first then 1 else 0
  | levels + 1, first =>
    placesFrom ok levels first ||| placesFrom ok levels (first + 1 <<< levels) <<< (1 <<< levels)

/-- The places of a text that pass. -/
def places (text : Array Char) (ok : Nat → Bool) : Places :=
  placesFrom (fun p => p ≤ text.size && ok p) (text.size + 1).log2.succ 0

/-- Whether the characters stand in the text from place `p` on. -/
def standsAt (text : Array Char) : List Char → Nat → Bool
  | [], _ => true
  | c :: cs, p => text[p]? == some c && standsAt text cs (p + 1)

def placesOf (text : Array Char) (s : Ranges) : Places := places text fun p => text[p]?.any s.has

/-- The sets an expression is made of. -/
def sets : Regex → List Ranges
  | .one s => [s]
  | .text _ | .edge _ => []
  | .group _ r | .loop r _ _ _ => sets r
  | .seq r s | .alt r s => sets r ++ sets s

/-- The places of every set of an expression, each found once. -/
def table (text : Array Char) (r : Regex) : Std.HashMap Ranges Places :=
  (sets r).foldl (fun t s => if t.contains s then t else t.insert s (placesOf text s)) ∅

def ofRegex (text : Array Char) (found : Std.HashMap Ranges Places) : Regex → Plan
  | .text cs => .move (places text (standsAt text cs)) cs.length
  | .one s =>
    match found[s]? with
    | some ps => .move ps 1
    | none => .move (placesOf text s) 1
  | .edge e => .move (places text fun p => e.holds (if p = 0 then none else text[p - 1]?) text[p]?) 0
  | .group _ r => ofRegex text found r
  | .loop r least (some most) _ => .times (ofRegex text found r) least most
  | .loop r least none _ =>
    let p := ofRegex text found r
    let more := .more p (text.size + 2)
    match least with
    | 0 => .times more 0 1
    | 1 => more
    | n + 2 => .seq (.times p (n + 1) (n + 1)) more
  | .seq r s => .seq (ofRegex text found r) (ofRegex text found s)
  | .alt r s => .alt (ofRegex text found r) (ofRegex text found s)

end Plan

/-- Whether the text has a part that `r` matches. -/
def isMatch (r : Regex) (s : String) : Bool :=
  let text := s.toList.toArray
  ((Plan.ofRegex text (Plan.table text r) r).lead .untouched (1 <<< (text.size + 1) - 1)).1 != 0

/-! ## The engine -/

instance : Engine where
  isPattern text := (parse? text).isSome
  isMatch text value := (parse? text).any (·.isMatch value)

end Triage.Regex
