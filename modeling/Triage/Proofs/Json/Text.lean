/-
  Triage.Proofs.Json.Text — a value that is written is read back.

  Where a value has to come next, a reading of its tokens comes to where it has been read, with what is open around it
  as before (`run_tokens`). Items and members that follow in an array or an object are added to those it has. So any
  text that spells the tokens of a value is read as it, the text that is written among them (`read_write`).
-/

import Triage.Json.Text
import Triage.Proofs.Json.Token

namespace Triage.Json

variable {fs : List Frame}

/-- An array does not end where a value starts. -/
theorem run_first (v : Value) (more : List Token) :
    (v.tokens ++ more).foldlM State.step (.first fs) =
      (v.tokens ++ more).foldlM State.step (.value (.array [] :: fs)) := by
  cases v with
  | null | bool | number | string => rfl
  | array vs => cases vs <;> rfl
  | object ms =>
    cases ms with
    | nil => rfl
    | cons m ms => rfl

mutual

/-- Where a value has to come next, its tokens lead to where it has been read. -/
theorem run_tokens (fs : List Frame) : (v : Value) → v.tokens.foldlM State.step (.value fs) = some (.read v fs)
  | .null | .bool _ | .number _ | .string _ | .array [] | .object [] => rfl
  | .array (v :: vs) => by
    have hstart : State.step (.value fs) .openArray = some (.first fs) := rfl
    rw [Value.tokens, List.foldlM_cons, hstart, List.append_assoc]
    show (v.tokens ++ _).foldlM State.step (.first fs) = _
    rw [run_first, List.foldlM_append, run_tokens _ v]
    exact run_items fs [] v vs
  | .object ((k, v) :: ms) => by
    rw [Value.tokens, List.append_assoc]
    show (v.tokens ++ _).foldlM State.step (.value (.object [] k :: fs)) = _
    rw [List.foldlM_append, run_tokens _ v]
    exact run_members fs [] k v ms

/-- The rest of an array that has the items `us`, latest first, and then `v`. -/
theorem run_items (fs : List Frame) (us : List Value) (v : Value) : (vs : List Value) →
    (itemTokens vs ++ [Token.closeArray]).foldlM State.step (.read v (.array us :: fs)) =
      some (.read (.array (us.reverse ++ v :: vs)) fs)
  | [] => by
    rw [← List.reverse_cons]
    rfl
  | w :: vs => by
    rw [itemTokens, List.cons_append, List.append_assoc]
    show (w.tokens ++ _).foldlM State.step (.value (.array (v :: us) :: fs)) = _
    rw [List.foldlM_append, run_tokens _ w]
    refine (run_items fs (v :: us) w vs).trans ?_
    rw [List.reverse_cons, List.append_assoc, List.singleton_append]

/-- The rest of an object that has the members `us`, latest first, and then `v` under the key `k`. -/
theorem run_members (fs : List Frame) (us : List (Option String × Value)) (k : Option String) (v : Value) :
    (ms : List (Option String × Value)) →
    (memberTokens ms ++ [Token.closeObject]).foldlM State.step (.read v (.object us k :: fs)) =
      some (.read (.object (us.reverse ++ (k, v) :: ms)) fs)
  | [] => by
    rw [← List.reverse_cons]
    rfl
  | (l, w) :: ms => by
    rw [memberTokens, List.cons_append, List.cons_append, List.cons_append, List.append_assoc]
    show (w.tokens ++ _).foldlM State.step (.value (.object ((k, v) :: us) l :: fs)) = _
    rw [List.foldlM_append, run_tokens _ w]
    refine (run_members fs ((k, v) :: us) l w ms).trans ?_
    rw [List.reverse_cons, List.append_assoc, List.singleton_append]

end

/-- The text of a value whose numbers are whole is read as that value. -/
theorem read_write {v : Value} (h : v.Whole) : read v.write = some v := by
  have htokens : tokenize v.chars = some v.tokens := by
    have hspells := h.spells [] stops_nil
    rw [List.append_nil] at hspells
    rw [hspells]
    simp [tokenize]
  rw [read, Value.write, String.toList_ofList, htokens]
  simp [run_tokens]

end Triage.Json
