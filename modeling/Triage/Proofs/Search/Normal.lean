/-
  Triage.Proofs.Search.Normal — an expression that has a search keeps it when it is normalized.

  There is a search for what is built from literals by conjunction and by negating twice, and the normal form of that is
  a constant or one conjunction of literals that the search syntax can say (`Sayable`). Below a double negation the
  normal form goes through a disjunction, which has no search; but negating a conjunction of literals twice gives the
  conjunction back (`negate_negate_of_isConjunction`).
-/

import Triage.Proofs.Expr.Idempotent
import Triage.Proofs.Expr.Satisfiable
import Triage.Search

namespace Triage

/-! ## Negating twice -/

namespace Expr

theorem isLiteral_negate {e : Expr} (h : e.isLiteral = true) : e.negate.isLiteral = true := by
  rcases literal_cases h with ⟨l, rfl⟩ | ⟨l, rfl⟩ <;> rfl

theorem negate_negate_of_isLiteral {e : Expr} (h : e.isLiteral = true) : e.negate.negate = e := by
  rcases literal_cases h with ⟨l, rfl⟩ | ⟨l, rfl⟩ <;> rfl

theorem same_negate_of_isLiteral {d e : Expr} (hd : d.isLiteral = true) (he : e.isLiteral = true) :
    same d.negate e.negate = same d e := by
  rcases literal_cases hd with ⟨l, rfl⟩ | ⟨l, rfl⟩ <;> rcases literal_cases he with ⟨k, rfl⟩ | ⟨k, rfl⟩ <;>
    simp [negate, same]

/-- Literals are opposed to each other if their negations are. -/
theorem same_not_negate_of_isLiteral {d e : Expr} (hd : d.isLiteral = true) (he : e.isLiteral = true)
    (h : same d.negate (.not e.negate) = true) : same e (.not d) = true := by
  rcases literal_cases hd with ⟨l, rfl⟩ | ⟨l, rfl⟩ <;> rcases literal_cases he with ⟨k, rfl⟩ | ⟨k, rfl⟩ <;>
    simp_all [negate, same]

theorem proper_map_negate {es : List Expr} (hp : Proper es) (hl : ∀ e ∈ es, e.isLiteral = true) :
    Proper (es.map negate) := by
  refine ⟨?_, ?_, ?_⟩
  · rw [List.length_map]
    exact hp.two
  · rw [List.pairwise_map]
    refine hp.apart.imp_of_mem fun hd he hde => ?_
    rw [same_negate_of_isLiteral (hl _ hd) (hl _ he), hde]
  · refine List.forall_mem_map.mpr fun d hd => List.forall_mem_map.mpr fun e he => ?_
    by_contra hopposed
    have hed := same_not_negate_of_isLiteral (hl d hd) (hl e he) (by simpa using hopposed)
    rw [hp.unopposed e he d hd] at hed
    cases hed

theorem isConjunction_of_isLiteral {e : Expr} (h : e.isLiteral = true) : e.isConjunction = true := by
  rcases literal_cases h with ⟨l, rfl⟩ | ⟨l, rfl⟩ <;> rfl

theorem isLiteral_of_isConjunction {e : Expr} (h : e.isConjunction = true) (ha : e.isAnd = false) :
    e.isLiteral = true := by
  cases e with
  | and => cases ha
  | const | leaf | not | or | perRepo => exact h

/-- The negations of the literals are a disjunction, and the negations of those are the literals. -/
theorem negate_negate_of_isConjunction {e : Expr} (h : e.isConjunction = true) : e.negate.negate = e := by
  cases e with
  | and es =>
    obtain ⟨hl, hp⟩ := isConjunction_and_iff.mp h
    have hneg : ∀ e ∈ es.map negate, e.isLiteral = true :=
      List.forall_mem_map.mpr fun e he => isLiteral_negate (hl e he)
    have hor : negate (.and es) = .or (es.map negate) := by
      rw [negate, negateAll_eq_map]
      exact disjunction_eq_or (proper_map_negate hp hl) (fun d hd => flat_of_isLiteral (hneg d hd))
        fun d hd => (not_connective_of_isLiteral (hneg d hd)).1
    have hback : (es.map negate).map negate = es := by
      rw [List.map_map]
      exact (List.map_congr_left fun e he => negate_negate_of_isLiteral (hl e he)).trans (List.map_id es)
    rw [hor, negate, negateAll_eq_map, hback]
    exact conjunction_eq_and hp (fun e he => flat_of_isLiteral (hl e he))
      (fun e he => (not_connective_of_isLiteral (hl e he)).2) (excessive_of_isLiteral hl)
  | const | leaf | not | or | perRepo => exact negate_negate_of_isLiteral h

end Expr

namespace Search

open Triage.Expr

/-! ## Texts of conjunctions -/

theorem isSome_fragments_iff {es : List Expr} :
    (fragments es).isSome = true ↔ ∀ e ∈ es, (fragment false e).isSome = true := by
  induction es with
  | nil => simp [fragments]
  | cons e es ih =>
    rw [List.forall_mem_cons, ← ih, fragments]
    cases fragment false e <;> cases fragments es <;> simp

theorem isSome_fragment_and_iff {es : List Expr} :
    (fragment false (.and es)).isSome = true ↔ ∀ e ∈ es, (fragment false e).isSome = true := by
  rw [fragment, if_neg Bool.false_ne_true, Option.isSome_map, isSome_fragments_iff]

/-- A constant, or a conjunction of literals that has a search. -/
inductive Sayable : Expr → Prop
  | const (b : Bool) : Sayable (.const b)
  | conjunction {e : Expr} : e.isConjunction = true → (fragment false e).isSome = true → Sayable e

theorem Sayable.plain {e : Expr} (h : Sayable e) : Plain e := by
  cases h with
  | const b => exact .const b
  | conjunction h => exact .flat (flat_of_isConjunction h).1

theorem Sayable.negate_negate {e : Expr} (h : Sayable e) : e.negate.negate = e := by
  cases h with
  | const b => rw [negate, negate, Bool.not_not]
  | conjunction h => exact negate_negate_of_isConjunction h

/-! ## Normalizing -/

theorem sayable_conjunction {es : List Expr} (h : ∀ e ∈ es, Sayable e) : Sayable (conjunction es) := by
  have hplain : ∀ e ∈ es, Plain e := fun e he => (h e he).plain
  rw [conjunction_eq (any_isPerRepo_of_plain hplain)]
  split
  · exact .const false
  · rename_i hs
    obtain ⟨hc, hn⟩ := Bool.or_eq_false_iff.mp (Bool.not_eq_true _ ▸ hs)
    have hliteral : ∀ c ∈ conjuncts es, c.isLiteral = true ∧ (fragment false c).isSome = true := by
      intro c hcm
      rcases mem_dissolveAnd_iff.mp (mem_dissolveAnd_of_mem_conjuncts hcm) with ⟨ds, hds, hcd⟩ | ⟨hm, ha⟩
      · cases h _ hds with
        | conjunction hand hf =>
          exact ⟨(isConjunction_and_iff.mp hand).1 c hcd, isSome_fragment_and_iff.mp hf c hcd⟩
      · cases h c hm with
        | const b =>
          have hflat := (flat_of_mem_conjuncts hplain hc hcm).1
          cases hflat
        | conjunction hand hf => exact ⟨isLiteral_of_isConjunction hand ha, hf⟩
    have hl : ∀ c ∈ conjuncts es, c.isLiteral = true := fun c hcm => (hliteral c hcm).1
    refine collapse_cases _ (fun _ => .const true) (fun e he => ?_) fun h2 => ?_
    · obtain ⟨hle, hfe⟩ := hliteral e (he ▸ List.mem_singleton_self e)
      exact .conjunction (isConjunction_of_isLiteral hle) hfe
    · rw [multiply, if_pos (excessive_of_isLiteral hl).kept]
      exact .conjunction (isConjunction_and_iff.mpr ⟨hl, proper_distinct h2 hn⟩)
        (isSome_fragment_and_iff.mpr fun c hcm => (hliteral c hcm).2)

/-- What has a search text is normalized to what has one, or to a constant; and if its negation has one, the negation
    is. -/
theorem sayable_normalize {e : Expr} :
    ((fragment false e).isSome = true → Sayable e.normalize) ∧
      ((fragment true e).isSome = true → Sayable e.normalize.negate) := by
  induction e using Expr.induction with
  | const b => exact ⟨fun _ => .const b, fun _ => .const !b⟩
  | leaf l => exact ⟨fun h => .conjunction rfl h, fun h => .conjunction rfl h⟩
  | not e ih =>
    refine ⟨fun h => ih.2 h, fun h => ?_⟩
    have hsay : Sayable e.normalize := ih.1 h
    rw [Expr.normalize, hsay.negate_negate]
    exact hsay
  | and es ih =>
    refine ⟨fun h => ?_, nofun⟩
    rw [Expr.normalize, normalizeAll_eq_map]
    refine sayable_conjunction (List.forall_mem_map.mpr fun e he => ?_)
    exact (ih e he).1 (isSome_fragment_and_iff.mp h e he)
  | or es => exact ⟨nofun, nofun⟩
  | perRepo entries fallback => exact ⟨nofun, nofun⟩

/-! ## Searches -/

theorem Sayable.eq_false_or_isSome {e : Expr} (h : Sayable e) : e = .const false ∨ (fragment false e).isSome = true := by
  cases h with
  | const b =>
    cases b with
    | false => exact Or.inl rfl
    | true => exact Or.inr rfl
  | conjunction _ hf => exact Or.inr hf

theorem same_false_of_isSome {e : Expr} (h : (fragment false e).isSome = true) : same e (.const false) = false := by
  cases e with
  | const b =>
    cases b with
    | false => cases h
    | true => rfl
  | leaf | not | and | or | perRepo => rfl

theorem ofEntries_false (r : Repository) : ofEntries [(r, .const false)] (.const false) = .const false := by
  rw [ofEntries_eq, if_pos]
  · rfl
  · simp [keptEntries, PerRepo.sort, PerRepo.insert, inherit, Expr.inRepo, Expr.elsewhere, same]

theorem ofExpr_of_plain {e : Expr} (h : Plain e) : ofExpr e = (fragment false e).map (⟨none, ·⟩) := by
  have hr := h.not_perRepo
  cases e with
  | perRepo => cases hr
  | const | leaf | not | and | or => rfl

/-- An expression that has a search has one in the same repository when it is normalized, unless it is then false. -/
theorem normalize_keeps_search {e : Expr} {s : Search} (h : ofExpr e = some s) :
    e.normalize = .const false ∨ ∃ s', ofExpr e.normalize = some s' ∧ s'.repository = s.repository := by
  unfold ofExpr at h
  split at h
  · rename_i r e
    obtain ⟨text, ht, rfl⟩ := Option.map_eq_some_iff.mp h
    have hsay : Sayable e.normalize := sayable_normalize.1 (Option.isSome_of_eq_some ht)
    have hentries : Expr.normalize (.perRepo [(r, e)] (.const false)) = ofEntries [(r, e.normalize)] (.const false) := rfl
    rw [hentries]
    rcases hsay.eq_false_or_isSome with hfalse | hsome
    · rw [hfalse]
      exact Or.inl (ofEntries_false r)
    · have hentry : ∀ p ∈ [(r, e.normalize)], Plain p.2 ∧ same p.2 (.const false) = false :=
        List.forall_mem_singleton.mpr ⟨hsay.plain, same_false_of_isSome hsome⟩
      obtain ⟨text', ht'⟩ := Option.isSome_iff_exists.mp hsome
      rw [ofEntries_eq_self (List.cons_ne_nil _ _) hentry (.const false) (List.pairwise_singleton _ _)]
      exact Or.inr ⟨⟨some r, text'⟩, by rw [ofExpr, ht', Option.map_some], rfl⟩
  · obtain ⟨text, ht, rfl⟩ := Option.map_eq_some_iff.mp h
    have hsay : Sayable e.normalize := sayable_normalize.1 (Option.isSome_of_eq_some ht)
    refine hsay.eq_false_or_isSome.imp_right fun hsome => ?_
    obtain ⟨text', ht'⟩ := Option.isSome_iff_exists.mp hsome
    exact ⟨⟨none, text'⟩, by rw [ofExpr_of_plain hsay.plain, ht', Option.map_some], rfl⟩

/-- Grouped literals that are denied twice, one of them repeated, in one repository. -/
theorem normalize_keeps_search_denied :
    let r : Repository := ⟨"dotnet", "runtime", by decide, by decide, by decide, by decide⟩
    let bug : Expr := .leaf (.label "bug")
    let e : Expr := .perRepo [(r, .not (.not (.and [.not (.leaf (.isOpen false)), .not (.const false),
      .and [bug, .not (.leaf (.assignee (some "ann")))], .not (.not bug)])))] (.const false)
    ofExpr e = some ⟨some r, "is:open label:\"bug\" -assignee:ann label:\"bug\""⟩ ∧ e.normalize.isConst false = false ∧
      ∃ s', ofExpr e.normalize = some s' ∧ s'.repository = some r := by
  intro r bug e
  have h : ofExpr e = some ⟨some r, "is:open label:\"bug\" -assignee:ann label:\"bug\""⟩ := by decide +kernel
  have hne : e.normalize.isConst false = false := by decide +kernel
  refine ⟨h, hne, (normalize_keeps_search h).resolve_left fun hfalse => ?_⟩
  rw [hfalse] at hne
  cases hne

end Search

end Triage
