/-
  Triage.Proofs.Json.Record — data that is written is taken out again.

  Each taker is the inverse of the writer of its data: whole numbers of 64 bits (`word?_ofNat`), lists (`list?_array`)
  and text that may be missing (`nullable?_ofText?`). From a record all fields are taken in order, so long as no two
  have one name (`fields?_record`). All that is written so has whole numbers only.
-/

import Mathlib.Data.List.Nodup
import Triage.Json.Value
import Triage.Proofs.Json.Token

namespace Triage.Json.Value

/-! ## Numbers and text -/

theorem word?_ofNat (n : UInt64) : (ofNat n.toNat).word? = some n := by
  have hall : (Nat.toDigits 10 n.toNat).all Char.isDigit = true := by
    rw [List.all_eq_true]
    exact fun c hc => Nat.isDigit_of_mem_toDigits (by omega) (by omega) hc
  have hvalue : (Nat.toDigits 10 n.toNat).foldl (fun k c => 10 * k + (c.toNat - 48)) 0 = n.toNat := by
    have hdigits := Nat.ofDigitChars_ten_toDigits (n := n.toNat)
    rwa [Nat.ofDigitChars_eq_foldl] at hdigits
  simp only [ofNat, word?, Nat.toString_eq_ofList_toDigits, String.toList_ofList, hall, hvalue, if_true,
    if_pos n.toNat_lt_size, UInt64.ofNat_toNat]

theorem nullable?_ofText? (s : Option String) : nullable? text? (ofText? s) = some s := by
  cases s <;> rfl

theorem mapM_map_eq_some {α β γ : Type} {f : β → Option γ} {g : α → β} {h : α → γ} {as : List α}
    (hf : ∀ a ∈ as, f (g a) = some (h a)) : (as.map g).mapM f = some (as.map h) := by
  induction as with
  | nil => rfl
  | cons a as ih =>
    obtain ⟨ha, has⟩ := List.forall_mem_cons.mp hf
    rw [List.map_cons, List.mapM_cons, ha, ih has]
    rfl

theorem list?_array {α : Type} {item : Value → Option α} {write : α → Value} (h : ∀ a, item (write a) = some a)
    (as : List α) : list? item (.array (as.map write)) = some as := by
  rw [list?, mapM_map_eq_some (h := id) fun a _ => h a, List.map_id]

theorem list?_ofTexts (ss : List String) : list? text? (ofTexts ss) = some ss :=
  @list?_array _ text? ofText (fun _ => rfl) ss

/-! ## Records -/

theorem under_record {members : List (String × Value)} (hn : (members.map Prod.fst).Nodup) {m : String × Value}
    (hm : m ∈ members) : under m.1 (members.map fun (k, v) => (some k, v)) = [m.2] := by
  induction members with
  | nil => cases hm
  | cons a members ih =>
    obtain ⟨ha, hn⟩ := List.nodup_cons.mp hn
    rw [under, List.map_cons, List.filterMap_cons]
    rcases List.mem_cons.mp hm with rfl | hm
    · have hrest : under m.1 (members.map fun (k, v) => (some k, v)) = [] := by
        rw [under, List.filterMap_eq_nil_iff]
        rintro _ hk
        obtain ⟨b, hb, rfl⟩ := List.mem_map.mp hk
        exact if_neg fun h => ha (List.mem_map.mpr ⟨b, hb, Option.some_inj.mp h⟩)
      rw [under] at hrest
      simp [hrest]
    · have hne : a.1 ≠ m.1 := fun h => ha (h ▸ List.mem_map_of_mem hm)
      have hm' := ih hn hm
      rw [under] at hm'
      simp [hne, hm']

/-- The fields of a record are there, each once and under its name. -/
theorem fields?_record {members : List (String × Value)} {names : List String} (hnames : members.map Prod.fst = names)
    (hn : names.Nodup) (isOpen : Bool) :
    (record members).fields? names isOpen = some (members.map fun m => some m.2) := by
  subst hnames
  have hkeys : keysOk (members.map Prod.fst) isOpen (members.map fun (k, v) => (some k, v)) = true := by
    rw [keysOk, List.all_map, List.all_eq_true]
    intro m hm
    have hmem : m.1 ∈ members.map Prod.fst := List.mem_map_of_mem hm
    simp [hmem]
  rw [record, fields?, if_pos hkeys]
  refine mapM_map_eq_some fun m hm => ?_
  rw [under_record hn hm]

/-! ## Whole numbers -/

theorem whole_ofText? (s : Option String) : Whole (ofText? s) := by
  cases s with
  | none => exact .null
  | some s => exact .string _

theorem whole_array {α : Type} {write : α → Value} (h : ∀ a, Whole (write a)) (as : List α) :
    Whole (.array (as.map write)) := by
  refine .array fun v hv => ?_
  obtain ⟨a, -, rfl⟩ := List.mem_map.mp hv
  exact h a

theorem whole_ofTexts (ss : List String) : Whole (ofTexts ss) := whole_array (fun _ => .string _) ss

theorem whole_record {members : List (String × Value)} (h : ∀ m ∈ members, Whole m.2) : Whole (record members) := by
  refine .object fun m hm => ?_
  obtain ⟨a, ha, rfl⟩ := List.mem_map.mp hm
  exact h a ha

end Triage.Json.Value
