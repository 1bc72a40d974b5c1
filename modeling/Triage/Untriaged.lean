/-
  Triage.Untriaged — why an issue still has to be triaged.

  An issue is triaged once it has exactly one area label, exactly one issue type label and, where one is required, a
  milestone. A pull request is never untriaged.

  Which labels are of a kind is told by a set of labels, given by names and by prefixes of names, in any ASCII case. A
  prefix is compared with as many bytes of the label as it has itself; a label that cannot be cut there has not that
  prefix. Read as JSON, every field has a default, the empty one, and members of other names are skipped.
-/

import Triage.Issue

namespace Triage

/-! ## Sets of labels -/

structure LabelSet where
  names : List String
  prefixes : List String
  deriving DecidableEq

namespace LabelSet

def empty : LabelSet := ⟨[], []⟩

def startsWith (label start : String) : Bool :=
  match Text.takeBytes start.utf8ByteSize label.toList with
  | some cs => Text.sameName (String.ofList cs) start
  | none => false

def contains (s : LabelSet) (label : String) : Bool :=
  s.names.any (Text.sameName · label) || s.prefixes.any (startsWith label)

/-- How many of the labels belong to the set. -/
def count (s : LabelSet) (labels : List String) : Nat := (labels.filter s.contains).length

end LabelSet

/-! ## Flags -/

namespace Untriaged

inductive Flag where
  | missingArea
  | multipleAreas
  | missingIssueType
  | multipleIssueTypes
  | missingMilestone
  deriving DecidableEq, Repr

/-- In the order in which they are told. -/
def Flag.all : List Flag := [.missingArea, .multipleAreas, .missingIssueType, .multipleIssueTypes, .missingMilestone]

def Flag.description : Flag → String
  | .missingArea => "missing area label"
  | .multipleAreas => "multiple area labels"
  | .missingIssueType => "missing issue type label"
  | .multipleIssueTypes => "multiple issue type labels"
  | .missingMilestone => "missing milestone"

/-- The place of the flag's bit. -/
def Flag.bit : Flag → UInt8
  | .missingArea => 0
  | .multipleAreas => 1
  | .missingIssueType => 2
  | .multipleIssueTypes => 3
  | .missingMilestone => 4

def Flag.mask (f : Flag) : UInt8 := 1 <<< f.bit

theorem Flag.mask_lt (f : Flag) : f.mask < 32 := by cases f <;> decide

/-- A set of flags, which is the sum of their masks. -/
structure Flags where
  bits : UInt8
  bits_lt : bits < 32
  deriving DecidableEq

namespace Flags

theorem or_lt {a b : UInt8} (ha : a < 32) (hb : b < 32) : a ||| b < 32 := by
  rw [UInt8.lt_iff_toNat_lt] at ha hb ⊢
  rw [UInt8.toNat_or]
  exact Nat.or_lt_two_pow (n := 5) ha hb

def none : Flags := ⟨0, by decide⟩

def only (f : Flag) : Flags := ⟨f.mask, f.mask_lt⟩

def union (a b : Flags) : Flags := ⟨a.bits ||| b.bits, or_lt a.bits_lt b.bits_lt⟩

def ofList (fs : List Flag) : Flags := (fs.map only).foldl union none

def isEmpty (a : Flags) : Bool := a.bits == 0

def contains (a b : Flags) : Bool := a.bits &&& b.bits == b.bits

def same (a b : Flags) : Bool := a.bits == b.bits

def has (a : Flags) (f : Flag) : Bool := a.contains (only f)

def toList (a : Flags) : List Flag := Flag.all.filter a.has

def text (a : Flags) : String :=
  match a.toList with
  | [] => "triaged"
  | fs => ", ".intercalate (fs.map Flag.description)

end Flags

end Untriaged

structure UntriagedConfig where
  areaLabels : LabelSet
  issueTypeLabels : LabelSet
  requireMilestone : Bool
  deriving DecidableEq

namespace UntriagedConfig

open Untriaged (Flags)

def empty : UntriagedConfig := ⟨.empty, .empty, false⟩

/-- No flag for one label of a kind; otherwise whether labels are missing or too many. -/
def countFlags (missing multiple : Untriaged.Flag) : Nat → Flags
  | 0 => .only missing
  | 1 => .none
  | _ => .only multiple

def flags (c : UntriagedConfig) (i : Issue) : Flags :=
  match i.kind with
  | .pullRequest => .none
  | .issue | .comment =>
    (countFlags .missingArea .multipleAreas (c.areaLabels.count i.labels)).union <|
      (countFlags .missingIssueType .multipleIssueTypes (c.issueTypeLabels.count i.labels)).union <|
        if c.requireMilestone && i.milestone.isNone then .only .missingMilestone else .none

def isUntriaged (c : UntriagedConfig) (i : Issue) : Bool := !(c.flags i).isEmpty

end UntriagedConfig

/-! ## JSON -/

open Json (Value)

def LabelSet.toJson (s : LabelSet) : Value := .record [("names", .ofTexts s.names), ("prefixes", .ofTexts s.prefixes)]

def LabelSet.ofJson? (v : Value) : Option LabelSet := do
  match ← v.fields? ["names", "prefixes"] true with
  | [names, prefixes] =>
    return {
      names := ← Value.orElse? [] (Value.list? Value.text?) names
      prefixes := ← Value.orElse? [] (Value.list? Value.text?) prefixes }
  | _ => none

namespace UntriagedConfig

def toJson (c : UntriagedConfig) : Value :=
  .record [("area_labels", c.areaLabels.toJson), ("issue_type_labels", c.issueTypeLabels.toJson),
    ("require_milestone", .bool c.requireMilestone)]

def ofJson? (v : Value) : Option UntriagedConfig := do
  match ← v.fields? ["area_labels", "issue_type_labels", "require_milestone"] true with
  | [area, issueType, milestone] =>
    return {
      areaLabels := ← Value.orElse? .empty LabelSet.ofJson? area
      issueTypeLabels := ← Value.orElse? .empty LabelSet.ofJson? issueType
      requireMilestone := ← Value.orElse? false Value.bool? milestone }
  | _ => none

end UntriagedConfig

end Triage
