/-
  Triage.Json.Text — from a text to a value and back.

  A reading is a run of `step` over the tokens. Its state says what has to come next, and holds the arrays and
  objects still open around that place, innermost first. A text is a value when the run ends with one value read and
  nothing open. A value is written without blanks, members in their order.
-/

import Triage.Json.Quoted
import Triage.Json.Token
import Triage.Json.Value

namespace Triage.Json

/-! ## Reading -/

/-- An array or an object with the elements read so far, latest first. -/
inductive Frame where
  | array (items : List Value)
  | object (members : List (Option String × Value)) (key : Option String)

inductive State where
  | value (open_ : List Frame)
  /-- Just inside an array: a value or its end. -/
  | first (open_ : List Frame)
  /-- Just inside an object: a key or its end. -/
  | firstKey (open_ : List Frame)
  | key (members : List (Option String × Value)) (open_ : List Frame)
  | colon (members : List (Option String × Value)) (key : Option String) (open_ : List Frame)
  | read (v : Value) (open_ : List Frame)

namespace State

def startValue (fs : List Frame) : Token → Option State
  | .atom v => some (.read v fs)
  | .openArray => some (.first fs)
  | .openObject => some (.firstKey fs)
  | _ => none

def step : State → Token → Option State
  | .value fs, t => startValue fs t
  | .first fs, .closeArray => some (.read (.array []) fs)
  | .first fs, t => startValue (.array [] :: fs) t
  | .firstKey fs, .closeObject => some (.read (.object []) fs)
  | .firstKey fs, .atom (.string k) => some (.colon [] k fs)
  | .key ms fs, .atom (.string k) => some (.colon ms k fs)
  | .colon ms k fs, .colon => some (.value (.object ms k :: fs))
  | .read v (.array vs :: fs), .comma => some (.value (.array (v :: vs) :: fs))
  | .read v (.array vs :: fs), .closeArray => some (.read (.array (v :: vs).reverse) fs)
  | .read v (.object ms k :: fs), .comma => some (.key ((k, v) :: ms) fs)
  | .read v (.object ms k :: fs), .closeObject => some (.read (.object ((k, v) :: ms).reverse) fs)
  | _, _ => none

end State

/-- The value a text spells, if it spells one and nothing more. -/
def read (s : String) : Option Value := do
  let ts ← tokenize s.toList
  match ← ts.foldlM State.step (.value []) with
  | .read v [] => some v
  | _ => none

/-! ## Writing -/

/-- A literal that is no text is written as a lone half of a surrogate pair. -/
def writeString : Option String → List Char
  | some s => Quoted.quote s
  | none => ['"', '\\', 'u', 'd', '8', '0', '0', '"']

namespace Value

mutual

def chars : Value → List Char
  | .null => ['n', 'u', 'l', 'l']
  | .bool true => ['t', 'r', 'u', 'e']
  | .bool false => ['f', 'a', 'l', 's', 'e']
  | .number n => n.toList
  | .string s => writeString s
  | .array [] => ['[', ']']
  | .array (v :: vs) => '[' :: v.chars ++ itemChars vs ++ [']']
  | .object [] => ['{', '}']
  | .object ((k, v) :: ms) => '{' :: writeString k ++ ':' :: v.chars ++ memberChars ms ++ ['}']

/-- Items that follow another, each after a comma. -/
def itemChars : List Value → List Char
  | [] => []
  | v :: vs => ',' :: v.chars ++ itemChars vs

def memberChars : List (Option String × Value) → List Char
  | [] => []
  | (k, v) :: ms => ',' :: writeString k ++ ':' :: v.chars ++ memberChars ms

end

def write (v : Value) : String := String.ofList v.chars

end Value

end Triage.Json
