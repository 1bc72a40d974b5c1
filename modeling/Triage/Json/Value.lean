/-
  Triage.Json.Value — a JSON text as a tree, with everything a strict reader may still object to.

  Members keep the order of the text and may repeat a key. A number keeps its literal. A string whose escapes spell
  half of a surrogate pair is no text (`string none`): whoever takes the string refuses it, whoever skips it need not.

  Every taker of typed data answers `none` for a value of another form, and the whole reading fails with it. A record
  of named fields is an object, in which a known key may occur once, or an array of the fields in order, which may stop
  early; `fields?` answers which of them are there. A member under another key is refused by a closed record and
  skipped unseen by an open one.

  A value that is kept whole instead of skipped holds only well-formed text, no number that is an infinite double, and
  no deeper nesting than its reader allows (`fits`). The double of a number is the product of two: that of its leading
  digits, as many as fit a 64-bit word, and that of the power of ten they are scaled by.
-/

namespace Triage.Json

inductive Value where
  | null
  | bool (b : Bool)
  | number (literal : String)
  | string (text : Option String)
  | array (items : List Value)
  | object (members : List (Option String × Value))
  deriving Inhabited

namespace Value

def ofNat (n : Nat) : Value := .number (toString n)

def ofText (s : String) : Value := .string (some s)

def ofTexts (ss : List String) : Value := .array (ss.map ofText)

def ofText? : Option String → Value
  | some s => ofText s
  | none => .null

/-- An object of distinct, well-formed keys. -/
def record (members : List (String × Value)) : Value := .object (members.map fun (k, v) => (some k, v))

/-! ## Taking data -/

def text? : Value → Option String
  | .string s => s
  | _ => none

def bool? : Value → Option Bool
  | .bool b => some b
  | _ => none

def list? {α : Type} (item : Value → Option α) : Value → Option (List α)
  | .array vs => vs.mapM item
  | _ => none

def nullable? {α : Type} (take : Value → Option α) : Value → Option (Option α)
  | .null => some none
  | v => (take v).map some

/-- A literal of digits alone, of a number below 2^64. -/
def word? : Value → Option UInt64
  | .number n =>
    if n.toList.all Char.isDigit then
      let k := n.toList.foldl (fun k c => 10 * k + (c.toNat - 48)) 0
      if k < UInt64.size then some (UInt64.ofNat k) else none
    else none
  | _ => none

/-- One of the given names, or an object that gives it the value null. -/
def name? (names : List String) : Value → Option String
  | .string (some s) => if s ∈ names then some s else none
  | .object [(some s, .null)] => if s ∈ names then some s else none
  | _ => none

/-! ## Records -/

/-- The values under one key. -/
def under (key : String) (members : List (Option String × Value)) : List Value :=
  members.filterMap fun (k, v) => if k = some key then some v else none

/-- Members of which each has a well-formed key, and one of `names` unless the record is open. -/
def keysOk (names : List String) (isOpen : Bool) (members : List (Option String × Value)) : Bool :=
  members.all fun (k, _) => match k with
    | some s => isOpen || s ∈ names
    | none => false

def fields? (names : List String) (isOpen : Bool) : Value → Option (List (Option Value))
  | .object ms =>
    if keysOk names isOpen ms then
      names.mapM fun n => match under n ms with
        | [] => some none
        | [v] => some (some v)
        | _ => none
    else none
  | .array vs =>
    if vs.length ≤ names.length then
      some (vs.map some ++ List.replicate (names.length - vs.length) none)
    else none
  | _ => none

/-- A field with a default. -/
def orElse? {α : Type} (default : α) (take : Value → Option α) : Option Value → Option α
  | some v => take v
  | none => some default

/-- A field that has to be there. -/
def required? {α : Type} (take : Value → Option α) (field : Option Value) : Option α := field.bind take

end Value

/-! ## Limits -/

namespace Number

/-- The digits put behind `m` as far as the number fits a 64-bit word, and those that are left. -/
def leading (m : Nat) : List Char → Nat × List Char
  | [] => (m, [])
  | c :: cs =>
    let next := 10 * m + (c.toNat - 48)
    if next < UInt64.size then leading next cs else (m, c :: cs)

/-- The leading digits and the power of ten they are scaled by, sign apart. Digits of the whole part that are left
    over count for the power only, and digits after the point are tried even then. -/
def parts (literal : String) : Nat × Int :=
  let unsigned := literal.toList.dropWhile (· == '-')
  let mantissa := unsigned.takeWhile fun c => c != 'e' && c != 'E'
  let scale := (unsigned.dropWhile fun c => c != 'e' && c != 'E').drop 1
  let exponent : Nat := (scale.filter Char.isDigit).foldl (fun k c => 10 * k + (c.toNat - 48)) 0
  let decimals := (mantissa.dropWhile (· != '.')).drop 1
  let (m, whole) := leading 0 (mantissa.takeWhile (· != '.'))
  let (m, rest) := leading m decimals
  let power : Int := if scale.head? = some '-' then -(exponent : Int) else exponent
  (m, power + (whole.length : Int) - ((decimals.length - rest.length : Nat) : Int))

/-- The number of 53 bits and zeros nearest to `n`; of two, the one whose last bit is zero. -/
def nearest (n : Nat) : Nat :=
  let unit := 1 <<< (n.log2 + 1 - 53)
  let half := 2 * (n % unit)
  let up := unit < half || (unit == half && n / unit % 2 == 1)
  (if up then n / unit + 1 else n / unit) * unit

/-- Halfway from the greatest double to the power of two after it: from here on a number rounds to infinity. -/
def overflow : Nat := 1 <<< 1024 - 1 <<< 970

/-- Powers of ten below 1 make no number infinite, and those that are no doubles every number but zero. -/
def isFinite (literal : String) : Bool :=
  match parts literal with
  | (0, _) | (_, .negSucc _) => true
  | (m, .ofNat k) => k ≤ 308 && nearest m * nearest (Nat.pow 10 k) < overflow

end Number

namespace Value

mutual

/-- Whether the value may be kept where `depth` more arrays and objects may be nested. -/
def fits (depth : Nat) : Value → Bool
  | .null | .bool _ => true
  | .number n => Number.isFinite n
  | .string s => s.isSome
  | .array vs => 0 < depth && itemsFit (depth - 1) vs
  | .object ms => 0 < depth && membersFit (depth - 1) ms

def itemsFit (depth : Nat) : List Value → Bool
  | [] => true
  | v :: vs => fits depth v && itemsFit depth vs

def membersFit (depth : Nat) : List (Option String × Value) → Bool
  | [] => true
  | (k, v) :: ms => k.isSome && fits depth v && membersFit depth ms

end

end Value

end Triage.Json
