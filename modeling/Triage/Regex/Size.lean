/-
  Triage.Regex.Size — how much memory the automata of an expression take.

  An expression is run by two automata over the bytes of UTF-8 text, one that reads forward and one that reads
  backward, and neither may take more than `Size.limit` bytes. Every state takes 32 bytes, every byte range of a state
  with several 8, every branch of a state that reads nothing 4. A recipe says what an automaton is built of, in the
  order in which its states are numbered; the states of a set depend on their numbers, all others only count.
-/

import Std.Data.HashMap
import Triage.Regex.Basic

namespace Triage.Regex

inductive Direction where
  | forward
  | backward
  deriving DecidableEq

structure Size where
  states : Nat
  /-- Bytes besides those of the states. -/
  extra : Nat

namespace Size

def bytes (z : Size) : Nat := 32 * z.states + z.extra

def limit : Nat := 10 * 1024 * 1024

def add (states extra : Nat) (z : Size) : Option Size :=
  let z : Size := ⟨z.states + states, z.extra + extra⟩
  if z.bytes ≤ limit then some z else none

/-! ## Sets -/

/-- A state of a set: where each byte range leads. -/
abbrev Node := List ((UInt8 × UInt8) × Nat)

/-- The automaton of a set being built. Every node has a place; of the nodes of one place the latest is known. -/
structure Nodes where
  size : Size
  known : Std.HashMap UInt64 (Node × Nat)

/-- The hash of no numbers; `hashStep` takes one more into a hash. -/
def hashStart : UInt64 := 14695981039346656037

def hashStep (h n : UInt64) : UInt64 := (h ^^^ n) * 1099511628211

namespace Nodes

/-- The number of the node if it is known. -/
def find? (ns : Nodes) (place : UInt64) (node : Node) : Option Nat :=
  match ns.known[place]? with
  | some (old, number) => if old = node then some number else none
  | none => none

/-- A new node at the place, with so many bytes besides its own. -/
def insert (ns : Nodes) (place : UInt64) (node : Node) (extra : Nat) : Option Nodes :=
  match ns with
  | ⟨size, known⟩ => do return ⟨← size.add 1 extra, known.insert place (node, size.states)⟩

/-- The number of a node, which is a new one unless it is known. -/
def number (ns : Nodes) (place : UInt64) (node : Node) (extra : Nat) : Option (Nat × Nodes) :=
  match ns.find? place node with
  | some n => some (n, ns)
  | none =>
    let n := ns.size.states
    (ns.insert place node extra).map fun ns => (n, ns)

end Nodes

/-- The first bytes of forms with the forms that go on from there; forms that start alike stand side by side. -/
def byFirst : List Unicode.Utf8.Form → List ((UInt8 × UInt8) × List Unicode.Utf8.Form)
  | [] => []
  | [] :: fs => byFirst fs
  | (b :: f) :: fs =>
    match byFirst fs with
    | (c, tails) :: rest => if b = c then (b, f :: tails) :: rest else (b, [f]) :: (c, tails) :: rest
    | [] => [(b, [f])]

def forwardPlace (node : Node) : UInt64 :=
  node.foldl (fun h (b, next) => hashStep (hashStep (hashStep h b.1.toUInt64) b.2.toUInt64) next.toUInt64)
    hashStart % 10000

/-- The node that reads forms of at most so many bytes and goes on to `target`, after those it leads to. -/
def addForward (target : Nat) : Nat → List Unicode.Utf8.Form → Nodes → Option (Nat × Nodes)
  | 0, _, ns => some (target, ns)
  | width + 1, forms, ns =>
    if forms.all List.isEmpty then some (target, ns)
    else do
      let (node, ns) ← (byFirst forms).foldlM (fun (node, ns) (b, tails) => do
        let (next, ns) ← addForward target width tails ns
        return ((b, next) :: node, ns)) (([] : Node), ns)
      let node := node.reverse
      ns.number (forwardPlace node) node (8 * node.length)

def backwardPlace (b : UInt8 × UInt8) (next : Nat) : UInt64 :=
  hashStep (hashStep (hashStep hashStart next.toUInt64) b.1.toUInt64) b.2.toUInt64 % 1000

/-- The nodes that read the form from its end and go on to `next`. -/
def addBackward (next : Nat) : Unicode.Utf8.Form → Nodes → Option Nodes
  | [], ⟨size, known⟩ => do return ⟨← size.add 0 4, known⟩
  | b :: form, ns => do
    let (next, ns) ← ns.number (backwardPlace b next) [(b, next)] 0
    addBackward next form ns

/-- The states that read one character of the forms of a set. -/
def addForms (dir : Direction) (forms : List Unicode.Utf8.Form) (z : Size) : Option Size :=
  match dir with
  | .forward => do
    let (_, ns) ← addForward z.states 4 forms ⟨← z.add 1 0, ∅⟩
    return ns.size
  | .backward => do
    let ns ← forms.foldlM (fun ns f => addBackward (z.states + 1) f ns) ⟨← z.add 2 0, ∅⟩
    return ns.size

/-! ## Alternatives of texts -/

def utf8 (cs : List Char) : List UInt8 := cs.flatMap String.utf8EncodeChar

/-- The runs of words between empty words. Empty words at the start are taken as one. -/
def runs (words : List (List UInt8)) : List (List (List UInt8)) :=
  let rest := words.dropWhile List.isEmpty
  let split := rest.foldr (fun w rs =>
    match w, rs with
    | [], rs => [] :: rs
    | w, r :: rs => (w :: r) :: rs
    | w, [] => [[w]]) [[]]
  if words.length = rest.length then split else [] :: split

/-- The words that go on from each first byte of a run. -/
def tails (words : List (List UInt8)) : List (List (List UInt8)) :=
  (words.filterMap List.head?).eraseDups.map fun b =>
    words.filterMap fun
      | c :: w => if c = b then some w else none
      | [] => none

/-- The tree of words of at most so many bytes. A word may end between two runs. -/
def tree : Nat → List (List UInt8) → Size
  | 0, _ => ⟨0, 0⟩
  | width + 1, words =>
    if words.all List.isEmpty then ⟨0, 0⟩
    else
      let runs := runs words
      let full := (runs.filter (!·.isEmpty)).map tails
      let below := full.flatten.map (tree width)
      let ranges := full.foldl (fun n ts => if ts.length < 2 then n else n + ts.length) 0
      below.foldl (fun z b => ⟨z.states + b.states, z.extra + b.extra⟩)
        ⟨full.length + 1, 4 * (full.length + (runs.length - 1)) + 8 * ranges⟩

/-! ## Recipes -/

inductive Recipe where
  | add (states extra : Nat)
  | set (forms : List Unicode.Utf8.Form)
  | seq (p q : Recipe)
  | times (p : Recipe) (n : Nat)

/-- `n` times what `f` adds. -/
def repeatAdd (f : Size → Option Size) : Nat → Size → Option Size
  | 0, z => some z
  | n + 1, z =>
    match f z with
    | some z => repeatAdd f n z
    | none => none

def make (dir : Direction) : Recipe → Size → Option Size
  | .add states extra, z => z.add states extra
  | .set forms, z => addForms dir forms z
  | .seq p q, z => make dir p z >>= make dir q
  | .times p n, z => repeatAdd (make dir p) n z

namespace Recipe

/-- One character of a set. Where all are ASCII, one state reads the byte. -/
def ofSet (s : Unicode.Ranges) : Recipe :=
  if s.all (·.2 < 0x80) then .add 2 (8 * s.length) else .set (s.flatMap Unicode.Utf8.forms)

def ofTexts (dir : Direction) (texts : List (List Char)) : Recipe :=
  let words := texts.map fun cs =>
    match dir with
    | .forward => utf8 cs
    | .backward => (utf8 cs).reverse
  let size := tree ((words.map List.length).foldl max 0) words
  .add (size.states + 1) size.extra

/-- The texts of alternatives that are all texts. -/
def texts? (r : Regex) : Option (List (List Char)) :=
  r.branches.mapM fun
    | .text cs => if cs.isEmpty then none else some cs
    | _ => none

/-- A state that forks to the expression or to what follows it. -/
def fork (p : Recipe) : Recipe := .seq (.add 1 8) p

/-- An expression with what follows it if it is the `branch`-th of alternatives, counted from 1: with the second come
    the states that part the branches and join them. -/
def closed (p : Recipe) : Nat → Recipe
  | 0 | 1 => p
  | 2 => .seq p (.add 2 8)
  | _ => .seq p (.add 0 4)

/-- The expression as the `branch`-th of alternatives, or as none of them if that is 0. -/
def ofRegex (dir : Direction) : Regex → Nat → Recipe
  | .text cs, branch => closed (.add (max 1 (utf8 cs).length) 0) branch
  | .one s, branch => closed (ofSet s) branch
  | .edge _, branch => closed (.add 1 0) branch
  | .group _ r, branch =>
    let p := ofRegex dir r 0
    closed (match dir with
      | .forward => .seq (.add 1 0) (.seq p (.add 1 0))
      | .backward => p) branch
  | .loop r least most _, branch =>
    let p := ofRegex dir r 0
    closed (match least, most with
      | 0, some 1 => .seq (fork p) (.add 1 0)
      | 0, none => if r.minWidth.any (0 < ·) then fork p else .seq p (.add 3 16)
      | n, none => .seq (.times p n) (.add 1 8)
      | 0, some m => .seq (.add 2 0) (.times (fork p) m)
      | n, some m => if n = m then .times p n else .seq (.times p n) (.seq (.add 1 0) (.times (fork p) (m - n)))) branch
  | .seq r s, branch =>
    closed (match dir with
      | .forward => .seq (ofRegex dir r 0) (ofRegex dir s 0)
      | .backward => .seq (ofRegex dir s 0) (ofRegex dir r 0)) branch
  | .alt r s, branch =>
    match if branch = 0 then texts? (.alt r s) else none with
    | some texts => ofTexts dir texts
    | none => .seq (ofRegex dir r (max 1 branch)) (ofRegex dir s (max 1 branch + 1))

/-- The whole automaton, which first skips text unless the expression is bound to the end where it starts to read. -/
def whole (r : Regex) : Direction → Recipe
  | .forward =>
    .seq (if r.isHeadBound then .add 2 0 else .add 4 16) (.seq (ofRegex .forward r 0) (.add 2 0))
  | .backward =>
    .seq (if r.isTailBound then .add 1 0 else .add 3 16) (.seq (ofRegex .backward r 0) (.add 1 0))

end Recipe

/-- The size of the automaton that reads in that direction, unless it is beyond the limit. -/
def ofRegex? (dir : Direction) (r : Regex) : Option Size := make dir (Recipe.whole r dir) ⟨0, 0⟩

end Size

/-- Whether both automata keep within the limit. -/
def fits (r : Regex) : Bool := (Size.ofRegex? .forward r).isSome && (Size.ofRegex? .backward r).isSome

end Triage.Regex
