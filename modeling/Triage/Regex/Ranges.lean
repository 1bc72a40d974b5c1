/-
  Triage.Regex.Ranges — sets of characters as ranges of code points, both ends included, and their UTF-8 forms.

  The ranges of a set ascend and do not touch one another, so a set is written in one way. The code points of
  surrogates may be in a set; no character has one.

  A UTF-8 form is a sequence of byte ranges: it stands for all ways to take one byte of each. `Utf8.forms` cuts a range
  into pieces of which each has one form; the pieces ascend, and so do their forms.
-/

namespace Triage.Unicode

abbrev Ranges := List (Nat × Nat)

namespace Ranges

/-- The greatest code point. -/
def last : Nat := 0x10FFFF

def hasCode : Ranges → Nat → Bool
  | [], _ => false
  | (lo, hi) :: rs, n => lo ≤ n && (n ≤ hi || hasCode rs n)

def has (r : Ranges) (c : Char) : Bool := r.hasCode c.toNat

def single (n : Nat) : Ranges := [(n, n)]

/-- The range from `lo` to `hi` before others that ascend, joined with those it touches. -/
def joined (lo hi : Nat) : Ranges → Ranges
  | [] => [(lo, hi)]
  | (l, h) :: rs => if l ≤ hi + 1 then joined lo (max hi h) rs else (lo, hi) :: joined l h rs

/-- The set of ranges that ascend by their lower ends. -/
def ofAscending : Ranges → Ranges
  | [] => []
  | (lo, hi) :: rs => joined lo hi rs

def below (a b : Nat × Nat) : Bool := a.1 ≤ b.1

/-- The set of ranges in any order. -/
def ofRanges (rs : List (Nat × Nat)) : Ranges := ofAscending (rs.mergeSort below)

def union (r s : Ranges) : Ranges := ofAscending (List.merge r s below)

/-- The code points from `n` on that are in no range. -/
def complFrom (n : Nat) : Ranges → Ranges
  | [] => if n ≤ last then [(n, last)] else []
  | (lo, hi) :: rs => if n < lo then (n, lo - 1) :: complFrom (hi + 1) rs else complFrom (hi + 1) rs

def compl (r : Ranges) : Ranges := complFrom 0 r

/-- The code points of surrogates. -/
def isSurrogate (n : Nat) : Bool := 0xD800 ≤ n && n ≤ 0xDFFF

/-- The set with no surrogate at an end of a range, so that a range of one code point is one character. -/
def chars (r : Ranges) : Ranges :=
  r.filterMap fun (lo, hi) =>
    let lo := if isSurrogate lo then 0xE000 else lo
    let hi := if isSurrogate hi then 0xD7FF else hi
    if lo ≤ hi then some (lo, hi) else none

def inter (r s : Ranges) : Ranges := compl (union (compl r) (compl s))

end Ranges

namespace Utf8

abbrev Form := List (UInt8 × UInt8)

/-- Cuts a range where blocks of `size` code points start, then what lies between whole blocks at 64 times that size.
    A range inside one block is left whole. -/
def pieces : Nat → Nat → Nat × Nat → List (Nat × Nat)
  | 0, _, r => [r]
  | levels + 1, size, (lo, hi) =>
    if lo / size = hi / size then [(lo, hi)]
    else
      let start := (lo + size - 1) / size * size
      let head := if lo < start then [(lo, start - 1)] else []
      if start / size = hi / size then head ++ [(start, hi)]
      else
        let stop := (hi + 1) / size * size
        let tail := if stop ≤ hi then [(stop, hi)] else []
        head ++ pieces levels (64 * size) (start, stop - 1) ++ tail

/-- The ranges of code points whose forms have one, two, three and four bytes, without the surrogates. -/
def blocks : List (Nat × Nat) := [(0, 0x7F), (0x80, 0x7FF), (0x800, 0xD7FF), (0xE000, 0xFFFF), (0x10000, 0x10FFFF)]

def clip (r block : Nat × Nat) : List (Nat × Nat) :=
  let lo := max r.1 block.1
  let hi := min r.2 block.2
  if hi < lo then [] else if hi < 0x80 then [(lo, hi)] else pieces 3 64 (lo, hi)

def bytes (n : Nat) : List UInt8 := String.utf8EncodeChar (Char.ofNat n)

def form (r : Nat × Nat) : Form := (bytes r.1).zip (bytes r.2)

def forms (r : Nat × Nat) : List Form := (blocks.flatMap (clip r)).map form

end Utf8

end Triage.Unicode
