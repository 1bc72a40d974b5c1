/-
  Triage.Regex.Parser — from the tokens of a pattern to its regular expression.

  The parser holds the groups that are open, innermost first. Flags hold from where they are set to the end of the
  group they are set in. A loop repeats the atom before it, so it cannot come first, nor right after flags. Groups,
  loops, brackets, alternatives and sequences add one each to the height of what they hold, and the height of a
  pattern is limited.
-/

import Triage.Regex.Size
import Triage.Regex.Token

namespace Triage.Regex

structure Flags where
  ignoreCase : Bool
  multiLine : Bool
  dotAll : Bool
  lazy : Bool

namespace Flags

/-- A pattern ignores case unless it says otherwise. -/
def initial : Flags := ⟨true, false, false, false⟩

def set (fs : Flags) : Flag × Bool → Flags
  | (.ignoreCase, b) => { fs with ignoreCase := b }
  | (.multiLine, b) => { fs with multiLine := b }
  | (.dotAll, b) => { fs with dotAll := b }
  | (.lazy, b) => { fs with lazy := b }

def setAll (fs : Flags) (changes : List (Flag × Bool)) : Flags := changes.foldl set fs

end Flags

/-- A part of a pattern: its expression and its height. -/
structure Part where
  regex : Regex
  height : Nat
  /-- Whether a loop may follow. -/
  isAtom : Bool

namespace Part

def maxHeight : Nat := 250

/-- The parts one after another, given in reverse. -/
def sequence (parts : List Part) : Part :=
  let deepest := (parts.map height).foldl max 0
  ⟨ofSeq (parts.reverse.map regex), if parts.length < 2 then deepest else deepest + 1, true⟩

/-- One of the parts, given in reverse. -/
def alternatives (p : Part) (parts : List Part) : Part :=
  match parts.reverse with
  | [] => p
  | first :: rest =>
    ⟨ofAlt first.regex ((rest ++ [p]).map regex), (parts.map height).foldl max p.height + 1, true⟩

/-- The part as a group of that number, or as one that does not capture. -/
def grouped (p : Part) (number : Option Nat) : Part :=
  match number with
  | some n => ⟨.group n p.regex, p.height + 1, true⟩
  | none => ⟨p.regex, p.height + 1, true⟩

def looped (p : Part) (least : Nat) (most : Option Nat) (eager : Bool) : Part :=
  ⟨repeated p.regex least most eager, p.height + 1, true⟩

end Part

/-- A group being read. -/
structure Group where
  /-- The number of a group that captures. -/
  number : Option Nat
  flags : Flags
  /-- The alternatives before the last bar, latest first. -/
  alternatives : List Part
  /-- The parts since, latest first. -/
  parts : List Part

namespace Group

def start (number : Option Nat) (flags : Flags) : Group := ⟨number, flags, [], []⟩

def push (g : Group) (p : Part) : Option Group :=
  if p.height ≤ Part.maxHeight then some { g with parts := p :: g.parts } else none

def bar (g : Group) : Group := { g with alternatives := .sequence g.parts :: g.alternatives, parts := [] }

def value (g : Group) : Part := .alternatives (.sequence g.parts) g.alternatives

def loop (g : Group) (least : Nat) (most : Option Nat) (marked : Bool) : Option Group :=
  match g.parts with
  | p :: ps => if p.isAtom then push { g with parts := ps } (p.looped least most (marked == g.flags.lazy)) else none
  | [] => none

end Group

structure Parser where
  group : Group
  outer : List Group
  names : List String
  /-- How many groups that capture have been opened. -/
  captures : Nat

namespace Parser

def start : Parser := ⟨.start none .initial, [], [], 0⟩

def push (p : Parser) (r : Regex) (height : Nat) : Option Parser := do
  return { p with group := ← p.group.push ⟨r, height, true⟩ }

def enter (p : Parser) (g : Group) : Parser := { p with group := g, outer := p.group :: p.outer }

def capture (p : Parser) : Parser :=
  { p.enter (.start (some (p.captures + 1)) p.group.flags) with captures := p.captures + 1 }

def step (p : Parser) : Token → Option Parser
  | .char c => p.push (ofSet (CharSet.ranges p.group.flags.ignoreCase (.spelled (.single c)))) 0
  | .set s => p.push (ofSet (s.set.ranges p.group.flags.ignoreCase)) s.height
  | .edge e => p.push (.edge e) 0
  | .dot => p.push (ofSet (if p.group.flags.dotAll then .compl [] else .compl (.single '\n'.toNat))) 0
  | .caret => p.push (.edge (if p.group.flags.multiLine then .lineStart else .textStart)) 0
  | .dollar => p.push (.edge (if p.group.flags.multiLine then .lineEnd else .textEnd)) 0
  | .bar => some { p with group := p.group.bar }
  | .capture none => some p.capture
  | .capture (some name) => if name ∈ p.names then none else some { p.capture with names := name :: p.names }
  | .group fs => some (p.enter (.start none (p.group.flags.setAll fs)))
  | .flags fs =>
    let g := p.group
    some { p with group := { g with flags := g.flags.setAll fs, parts := ⟨.empty, 0, false⟩ :: g.parts } }
  | .close =>
    match p.outer with
    | g :: gs => do return { p with group := ← g.push (p.group.value.grouped p.group.number), outer := gs }
    | [] => none
  | .loop least most marked => do return { p with group := ← p.group.loop least most marked }

end Parser

/-- The expression of a pattern of any size, or `none` where the pattern is not well-formed. -/
def read? (pattern : String) : Option Regex := do
  let p ← (← tokens? pattern).foldlM Parser.step .start
  let whole := p.group.value
  if p.outer.isEmpty && whole.height ≤ Part.maxHeight then some whole.regex else none

/-- The expression of a pattern, or `none` where the pattern is not well-formed or is too large. -/
def parse? (pattern : String) : Option Regex := (read? pattern).filter fits

end Triage.Regex
