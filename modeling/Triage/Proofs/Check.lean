/-
  Triage.Proofs.Check — computations that make one check after another and stop at the first that fails.

  A list of checks holds for each of them, in the order in which they are made, the error it ends in if it fails.
  `Ends` says of a computation that it ends in the error of the first check that fails and otherwise gives a result
  that is good. There is one rule for each way in which computations are put together. The rule for lists
  (`Ends.foldlM`) takes what is known of the state once some elements have been gone through.
-/

import Mathlib.Data.List.Nodup

namespace Triage

variable {ε α β σ : Type}

/-- The error of the first check that fails. -/
def firstError (checks : List (Option ε)) : Option ε := checks.findSome? id

/-- A check that fails if the proposition holds. -/
def failIf (p : Prop) [Decidable p] (e : ε) : Option ε := if p then some e else none

/-- Each element with the elements before it, where those of `before` come before all. -/
def withBefore (before : List α) : List α → List (List α × α)
  | [] => []
  | a :: as => (before, a) :: withBefore (before ++ [a]) as

/-- Each element is checked against those before it. -/
def repeatChecks [DecidableEq α] (e : α → ε) (before as : List α) : List (Option ε) :=
  (withBefore before as).map fun p => failIf (p.2 ∈ p.1) (e p.2)

/-! ## Checks -/

@[simp] theorem firstError_nil : firstError ([] : List (Option ε)) = none := rfl

theorem firstError_cons (c : Option ε) (cs : List (Option ε)) : firstError (c :: cs) = c.or (firstError cs) := by
  cases c <;> rfl

theorem firstError_append (cs ds : List (Option ε)) : firstError (cs ++ ds) = (firstError cs).or (firstError ds) :=
  List.findSome?_append

theorem firstError_singleton (c : Option ε) : firstError [c] = c := by
  cases c <;> rfl

theorem firstError_map (f : ε → β) (cs : List (Option ε)) :
    (firstError cs).map f = firstError (cs.map (Option.map f)) := by
  induction cs with
  | nil => rfl
  | cons c cs ih =>
    rw [List.map_cons, firstError_cons, firstError_cons, ← ih]
    cases c <;> rfl

theorem firstError_eq_none_iff {cs : List (Option ε)} : firstError cs = none ↔ ∀ c ∈ cs, c = none := by
  simp [firstError, List.findSome?_eq_none_iff]

theorem firstError_flatMap_eq_none_iff {as : List α} {checks : α → List (Option ε)} :
    firstError (as.flatMap checks) = none ↔ ∀ a ∈ as, firstError (checks a) = none := by
  induction as with
  | nil => simp
  | cons a as ih => rw [List.flatMap_cons, firstError_append, Option.or_eq_none_iff, ih, List.forall_mem_cons]

theorem failIf_eq_none_iff {p : Prop} [Decidable p] {e : ε} : failIf p e = none ↔ ¬ p := by
  unfold failIf
  by_cases h : p <;> simp [h]

theorem map_failIf (p : Prop) [Decidable p] (e : ε) (f : ε → β) : (failIf p e).map f = failIf p (f e) := by
  unfold failIf
  by_cases h : p <;> simp [h]

/-! ## Elements and those before them -/

theorem mem_withBefore_iff {before as : List α} {p : List α × α} :
    p ∈ withBefore before as ↔ ∃ skipped after, as = skipped ++ p.2 :: after ∧ p.1 = before ++ skipped := by
  induction as generalizing before with
  | nil => simp [withBefore]
  | cons a as ih =>
    rw [withBefore, List.mem_cons, ih]
    constructor
    · rintro (rfl | ⟨skipped, after, rfl, hp⟩)
      · exact ⟨[], as, rfl, by simp⟩
      · exact ⟨a :: skipped, after, rfl, by simp [hp]⟩
    · rintro ⟨skipped, after, has, hp⟩
      cases skipped with
      | nil =>
        cases has
        exact Or.inl (Prod.ext (by simpa using hp) rfl)
      | cons b skipped =>
        cases has
        exact Or.inr ⟨skipped, after, rfl, by simp [hp]⟩

/-- Values are distinct if none is among those of earlier elements. -/
theorem nodup_map_iff {f : α → β} {as : List α} :
    (as.map f).Nodup ↔ ∀ p ∈ withBefore [] as, f p.2 ∉ p.1.map f := by
  have hgo : ∀ before : List α, (before.map f).Nodup →
      (((before ++ as).map f).Nodup ↔ ∀ p ∈ withBefore before as, f p.2 ∉ p.1.map f) := by
    induction as with
    | nil =>
      intro before hb
      simpa [withBefore] using hb
    | cons a as ih =>
      intro before hb
      rw [withBefore, List.forall_mem_cons]
      by_cases ha : f a ∈ before.map f
      · constructor
        · intro h
          rw [List.map_append, List.map_cons] at h
          exact absurd rfl ((List.nodup_append.mp h).2.2 _ ha _ List.mem_cons_self)
        · rintro ⟨h, -⟩
          exact absurd ha h
      · have hb' : ((before ++ [a]).map f).Nodup := by
          rw [List.map_append, List.map_singleton]
          exact hb.append (List.nodup_singleton _) (List.disjoint_singleton.mpr ha)
        rw [← ih _ hb', List.append_assoc, List.singleton_append]
        exact ⟨fun h => ⟨ha, h⟩, fun h => h.2⟩
  exact hgo [] .nil

theorem withBefore_concat {before as : List α} {a : α} :
    withBefore before (as ++ [a]) = withBefore before as ++ [(before ++ as, a)] := by
  induction as generalizing before with
  | nil => simp [withBefore]
  | cons b as ih => simp [withBefore, ih]

theorem forall_mem_withBefore {before as : List α} {p : α → Prop} :
    (∀ b ∈ withBefore before as, p b.2) ↔ ∀ a ∈ as, p a := by
  induction as generalizing before with
  | nil => simp [withBefore]
  | cons a as ih => rw [withBefore, List.forall_mem_cons, List.forall_mem_cons, ih]

/-- Options are distinct if the values among them are and at most one has none. -/
theorem nodup_iff_filterMap_id {as : List (Option α)} :
    as.Nodup ↔ (as.filterMap id).Nodup ∧ as.countP Option.isNone ≤ 1 := by
  induction as with
  | nil => simp
  | cons a as ih =>
    rw [List.nodup_cons, ih]
    cases a with
    | none =>
      have hcount : none ∉ as ↔ as.countP Option.isNone = 0 := by
        rw [List.countP_eq_zero]
        exact ⟨fun hn a ha hnone => hn (Option.isNone_iff_eq_none.mp hnone ▸ ha), fun h hn => h none hn rfl⟩
      rw [List.filterMap_cons_none rfl, List.countP_cons_of_pos rfl, hcount]
      exact ⟨fun ⟨h0, hn, _⟩ => ⟨hn, by omega⟩, fun ⟨hn, h1⟩ => ⟨by omega, hn, by omega⟩⟩
    | some a => simp [List.mem_filterMap, and_assoc]

/-- Elements that are made one from the other have the same values where each has the value of its origin. -/
theorem map_eq_map_of_forall₂ {R : α → β → Prop} {f : α → σ} {g : β → σ} {as : List α} {bs : List β}
    (hR : ∀ a ∈ as, ∀ b, R a b → g b = f a) (h : List.Forall₂ R as bs) : bs.map g = as.map f := by
  induction h with
  | nil => rfl
  | cons hab _ ih =>
    obtain ⟨ha, has⟩ := List.forall_mem_cons.mp hR
    rw [List.map_cons, List.map_cons, ha _ hab, ih has]

/-- What stands in a list that has grown by one element. -/
theorem getElem?_concat_eq_some_iff {as : List α} {a b : α} {n : Nat} :
    (as ++ [a])[n]? = some b ↔ as[n]? = some b ∨ n = as.length ∧ b = a := by
  rw [List.getElem?_append]
  split
  · rename_i hn
    exact ⟨.inl, fun h => h.resolve_right fun hlast => Nat.ne_of_lt hn hlast.1⟩
  · rename_i hn
    have hnone : as[n]? = none := List.getElem?_eq_none (Nat.le_of_not_lt hn)
    rw [hnone, List.getElem?_singleton]
    by_cases hlast : n = as.length
    · simp [hlast, eq_comm]
    · have hsub : n - as.length ≠ 0 := by omega
      simp [hlast, hsub]

section Repeats

variable [DecidableEq α] {e : α → ε} {before as : List α}

theorem map_firstError_repeatChecks (f : ε → β) :
    (firstError (repeatChecks e before as)).map f = firstError (repeatChecks (fun a => f (e a)) before as) := by
  simp only [firstError_map, repeatChecks, List.map_map, Function.comp_def, map_failIf]

theorem firstError_repeatChecks_eq_none_iff : firstError (repeatChecks e [] as) = none ↔ as.Nodup := by
  have hnodup : (as.map id).Nodup ↔ ∀ p ∈ withBefore [] as, id p.2 ∉ p.1.map id := nodup_map_iff
  simp only [List.map_id, id_eq] at hnodup
  rw [hnodup, firstError_eq_none_iff, repeatChecks, List.forall_mem_map]
  simp only [failIf_eq_none_iff]

/-- The error is that of the first element that repeats an earlier one: those before it are distinct. -/
theorem firstError_repeatChecks_eq_some_iff {c : ε} : firstError (repeatChecks e [] as) = some c ↔
    ∃ front a back, as = front ++ a :: back ∧ front.Nodup ∧ a ∈ front ∧ c = e a := by
  have hgo : ∀ {before : List α}, before.Nodup → (firstError (repeatChecks e before as) = some c ↔
      ∃ front a back, as = front ++ a :: back ∧ (before ++ front).Nodup ∧ a ∈ before ++ front ∧ c = e a) := by
    induction as with
    | nil => simp [repeatChecks, withBefore]
    | cons a as ih =>
      intro before hb
      rw [repeatChecks, withBefore, List.map_cons, firstError_cons, failIf]
      by_cases ha : a ∈ before
      · rw [if_pos ha, Option.some_or, Option.some_inj]
        constructor
        · rintro rfl
          exact ⟨[], a, as, rfl, by rwa [List.append_nil], by rwa [List.append_nil], rfl⟩
        · rintro ⟨front, b, back, has, hn, -, rfl⟩
          cases front with
          | nil =>
            cases has
            rfl
          | cons d front =>
            cases has
            exact absurd rfl ((List.nodup_append.mp hn).2.2 a ha a List.mem_cons_self)
      · have hb' : (before ++ [a]).Nodup := hb.append (List.nodup_singleton a) (List.disjoint_singleton.mpr ha)
        rw [if_neg ha, Option.none_or]
        refine (ih hb').trans ⟨?_, ?_⟩
        · rintro ⟨front, b, back, rfl, hn, hmem, rfl⟩
          rw [List.append_assoc, List.singleton_append] at hn hmem
          exact ⟨a :: front, b, back, rfl, hn, hmem, rfl⟩
        · rintro ⟨front, b, back, has, hn, hmem, rfl⟩
          cases front with
          | nil =>
            cases has
            rw [List.append_nil] at hmem
            exact absurd hmem ha
          | cons d front =>
            cases has
            refine ⟨front, b, back, rfl, ?_, ?_, rfl⟩ <;> rwa [List.append_assoc, List.singleton_append]
  exact hgo .nil

end Repeats

/-! ## Computations -/

theorem exists_of_bind_eq_ok {x : Except ε α} {k : α → Except ε β} {b : β} (h : x >>= k = .ok b) :
    ∃ a, x = .ok a ∧ k a = .ok b := by
  cases x with
  | ok a => exact ⟨a, rfl, h⟩
  | error e => cases h

/-- The computation ends in the error, if there is one, and otherwise in a result that is good. -/
def Ends (error : Option ε) (good : α → Prop) (x : Except ε α) : Prop :=
  match error with
  | some e => x = .error e
  | none => ∃ a, x = .ok a ∧ good a

namespace Ends

variable {error error' : Option ε} {good : α → Prop} {x : Except ε α}

theorem pure {a : α} (h : good a) : Ends (none : Option ε) good (.ok a) := ⟨a, rfl, h⟩

theorem fail (e : ε) : Ends (some e) good (.error e) := rfl

/-- One check before all else. The program may put what it asks in its own way. -/
theorem check {p asked : Prop} {_ : Decidable p} {_ : Decidable asked} (h : asked ↔ p) {e : ε}
    (hx : ¬ p → Ends error good x) : Ends ((failIf p e).or error) good (if asked then .error e else x) := by
  by_cases hp : p
  · rw [failIf, if_pos hp, if_pos (h.mpr hp)]
    exact .fail e
  · rw [failIf, if_neg hp, if_neg fun ha => hp (h.mp ha)]
    exact hx hp

theorem mono {good' : α → Prop} (h : Ends error good x) (hg : ∀ a, good a → good' a) : Ends error good' x := by
  cases error with
  | some e => exact h
  | none =>
    obtain ⟨a, hx, ha⟩ := h
    exact ⟨a, hx, hg a ha⟩

theorem bind {k : α → Except ε β} {good' : β → Prop} (h : Ends error good x)
    (hk : ∀ a, good a → Ends error' good' (k a)) : Ends (error.or error') good' (x >>= k) := by
  cases error with
  | some e =>
    obtain rfl : x = .error e := h
    rfl
  | none =>
    obtain ⟨a, rfl, ha⟩ := h
    exact hk a ha

theorem map {f : α → β} {good' : β → Prop} (h : Ends error good x) (hf : ∀ a, good a → good' (f a)) :
    Ends error good' (x.map f) := by
  cases error with
  | some e =>
    obtain rfl : x = .error e := h
    rfl
  | none =>
    obtain ⟨a, rfl, ha⟩ := h
    exact ⟨f a, rfl, hf a ha⟩

theorem mapError {f : ε → β} (h : Ends error good x) : Ends (error.map f) good (x.mapError f) := by
  cases error with
  | some e =>
    obtain rfl : x = .error e := h
    rfl
  | none =>
    obtain ⟨a, rfl, ha⟩ := h
    exact ⟨a, rfl, ha⟩

/-- One more step that cannot fail. -/
theorem bind_pure {f : α → β} {good' : β → Prop} (h : Ends error good x) (hf : ∀ a, good a → good' (f a)) :
    Ends error good' (x >>= fun a => .ok (f a)) := by
  have hbind := h.bind fun a ha => .pure (hf a ha)
  rwa [Option.or_none] at hbind

theorem mapM {checks : α → List (Option ε)} {f : α → Except ε β} {good : α → β → Prop}
    (hf : ∀ a, Ends (firstError (checks a)) (good a) (f a)) (as : List α) :
    Ends (firstError (as.flatMap checks)) (List.Forall₂ good as) (as.mapM f) := by
  induction as with
  | nil => exact .pure .nil
  | cons a as ih =>
    rw [List.flatMap_cons, firstError_append, List.mapM_cons]
    exact (hf a).bind fun b hb => ih.bind_pure fun bs hbs => .cons hb hbs

/-- An element at a time: what is known of the state after the elements before is known after one more. -/
theorem foldlM {checks : List α → α → List (Option ε)} {step : σ → α → Except ε σ} {known : List α → σ → Prop}
    (hstep : ∀ before a s, known before s →
      Ends (firstError (checks before a)) (known (before ++ [a])) (step s a))
    {before as : List α} {s : σ} (hs : known before s) :
    Ends (firstError ((withBefore before as).flatMap fun p => checks p.1 p.2)) (known (before ++ as))
      (as.foldlM step s) := by
  induction as generalizing before s with
  | nil =>
    rw [List.append_nil]
    exact .pure hs
  | cons a as ih =>
    rw [withBefore, List.flatMap_cons, firstError_append, List.foldlM_cons]
    refine (hstep before a s hs).bind fun t ht => ?_
    have hrest := ih ht
    rwa [List.append_assoc, List.singleton_append] at hrest

theorem eq_error_iff (h : Ends error good x) {e : ε} : x = .error e ↔ error = some e := by
  cases error with
  | some e' =>
    obtain rfl : x = .error e' := h
    simp
  | none =>
    obtain ⟨a, rfl, -⟩ := h
    simp

theorem exists_ok_iff (h : Ends error good x) : (∃ a, x = .ok a) ↔ error = none := by
  cases error with
  | some e =>
    obtain rfl : x = .error e := h
    simp
  | none =>
    obtain ⟨a, rfl, -⟩ := h
    simp

theorem good_of_ok (h : Ends error good x) {a : α} (hx : x = .ok a) : error = none ∧ good a := by
  cases error with
  | some e =>
    obtain rfl : x = .error e := h
    cases hx
  | none =>
    obtain ⟨b, rfl, hb⟩ := h
    cases hx
    exact ⟨rfl, hb⟩

end Ends

end Triage
