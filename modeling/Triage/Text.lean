/-
  Triage.Text — names, blanks, bytes and percent-encoding.

  Labels, milestones, assignees, repositories and the names of leaves and queries are compared without regard to
  ASCII case. `fold` is the spelling that stands for all of them; a letter outside ASCII is its own spelling, so
  "É" and "é" are two names.

  Where text is measured in the bytes of its UTF-8 form, `takeBytes n` cuts it at a byte count and refuses a cut that
  falls inside a character or beyond the end; `slice` cuts at both ends. Inside a URL, each byte stands for itself when
  it is an ASCII letter, a digit or one of "-._~", and is written as a percent sign and two capital hexadecimal digits
  otherwise.
-/

namespace Triage.Text

/-! ## Names -/

/-- Every ASCII capital made small. -/
def fold (s : String) : String := String.ofList (s.toList.map Char.toLower)

def sameName (a b : String) : Bool := fold a == fold b

@[simp] theorem toList_fold (s : String) : (fold s).toList = s.toList.map Char.toLower := by simp [fold]

theorem sameName_iff {a b : String} : sameName a b = true ↔ fold a = fold b := by simp [sameName]

theorem sameName_eq_false_iff {a b : String} : sameName a b = false ↔ fold a ≠ fold b := by simp [sameName]

theorem toLower_toLower (c : Char) : c.toLower.toLower = c.toLower := by
  unfold Char.toLower
  split
  · rename_i h
    rw [dif_neg]
    have hA : ('A'.val : UInt32).toNat = 65 := rfl
    have hZ : ('Z'.val : UInt32).toNat = 90 := rfl
    have hs : ('a'.val - 'A'.val : UInt32).toNat = 32 := rfl
    simp only [ge_iff_le, UInt32.le_iff_toNat_le, hA, hZ, UInt32.toNat_add, hs] at h ⊢
    omega
  · rfl

theorem fold_fold (s : String) : fold (fold s) = fold s := by
  have hlower : (s.toList.map Char.toLower).map Char.toLower = s.toList.map Char.toLower := by
    rw [List.map_map]
    exact List.map_congr_left fun c _ => toLower_toLower c
  rw [fold, toList_fold, hlower]
  rfl

/-! ## Blanks -/

/-- Unicode's White_Space property: 25 characters, of which `Char.isWhitespace` knows four. -/
def isBlank (c : Char) : Bool :=
  let n := c.toNat
  (9 ≤ n && n ≤ 13) || n == 0x20 || n == 0x85 || n == 0xA0 || n == 0x1680 || (0x2000 ≤ n && n ≤ 0x200A) ||
    n == 0x2028 || n == 0x2029 || n == 0x202F || n == 0x205F || n == 0x3000

/-- The text without the blanks at its two ends. -/
def trim (s : String) : String :=
  String.ofList ((s.toList.dropWhile isBlank).reverse.dropWhile isBlank).reverse

/-! ## Bytes -/

def takeBytes : Nat → List Char → Option (List Char)
  | 0, _ => some []
  | _ + 1, [] => none
  | n + 1, c :: cs => if c.utf8Size ≤ n + 1 then (takeBytes (n + 1 - c.utf8Size) cs).map (c :: ·) else none
  termination_by structural _ cs => cs

/-- The text from one byte offset to another, which does not come before it. -/
def slice (start stop : Nat) (cs : List Char) : Option (List Char) :=
  if start ≤ stop then (takeBytes start cs).bind fun front => takeBytes (stop - start) (cs.drop front.length) else none

/-! ## Percent-encoding -/

namespace Percent

def isUnreserved (b : UInt8) : Bool :=
  let c := Char.ofUInt8 b
  c.isAlphanum || c == '-' || c == '.' || c == '_' || c == '~'

def hexDigit (n : Nat) : Char := Char.ofNat (if n < 10 then 48 + n else 55 + n)

def encodeByte (b : UInt8) : List Char :=
  if isUnreserved b then [Char.ofUInt8 b] else ['%', hexDigit (b.toNat / 16), hexDigit (b.toNat % 16)]

def encode (s : String) : String :=
  String.ofList (s.toList.flatMap fun c => (String.utf8EncodeChar c).flatMap encodeByte)

end Percent

end Triage.Text
