/-
  Triage.Proofs.Search.Links — the links of an expression go to the repositories in which it can match.

  A link is left out where the expression stands for `false`. For a normal form that is where the normal form of the
  specialized expression is `false` (`isConst_inRepo_normalize`), so nothing that an issue could match is left out
  (`eval_eq_false_of_not_linked`), and no link is there for what is a contradiction in the repository. The text of a
  link says in its repository what the expression does (`says_of_link`).
-/

import Triage.Proofs.Expr.Meaning
import Triage.Proofs.Expr.Specialize
import Triage.Proofs.Registry
import Triage.Proofs.Search.Literal

namespace Triage.Search

variable {g : Registry} {e : Expr} {r : Repository}

/-- The repositories that have a link. -/
def linked (g : Registry) (e : Expr) : List Repository := (links g e).map Prod.fst

theorem linked_eq_filter (g : Registry) (e : Expr) :
    linked g e = g.repositories.filter fun r => !(e.inRepo r).isConst false := by
  rw [linked, links, List.map_map]
  exact List.map_id _

theorem isConst_inRepo_normalize (e : Expr) (r : Repository) (b : Bool) :
    (e.normalize.inRepo r).isConst b = (e.specialize r).normalize.isConst b :=
  Expr.isConst_congr b (Expr.same_normalize_inRepo e r)

theorem eval_eq_false_of_not_linked [Engine] (hr : r ∈ g.repositories) (hl : r ∉ linked g e) {i : Issue}
    (hi : i.repository = r) : e.eval i = false := by
  have hfalse : (e.inRepo r).isConst false = true := by
    rw [linked_eq_filter, List.mem_filter] at hl
    by_contra hc
    exact hl ⟨hr, by simpa using hc⟩
  subst hi
  rw [Expr.eval, ← Expr.evalWith_inRepo, Expr.eq_const_of_isConst hfalse]
  rfl

/-- The search stays in the repository, and its literals say there what the expression does. -/
structure SaysIn [Engine] (r : Repository) (e : Expr) (s : Search) (ls : List Literal) : Prop where
  repository_eq : s.repository = some r
  query_eq : s.query = " ".intercalate (ls.map Literal.text)
  eval_eq : ∀ i : Issue, i.repository = r → e.eval i = ls.all (·.holds i)

theorem says_of_link [Engine] {s : Search} (h : (r, some s) ∈ links g e) : ∃ ls, SaysIn r e s ls := by
  rw [links, List.mem_map] at h
  obtain ⟨r, -, heq⟩ := h
  rw [Prod.mk.injEq, Option.map_eq_some_iff] at heq
  obtain ⟨rfl, text, ht, rfl⟩ := heq
  obtain ⟨ls, hls⟩ := says_of_fragment ht
  refine ⟨ls, rfl, hls.text_eq, ?_⟩
  rintro i rfl
  rw [← hls.eval_eq i, Bool.bne_false, Expr.eval, Expr.eval, Expr.evalWith_inRepo]

/-- The links of a normal form are those of the known repositories, in their order and each once, in which the
    specialized expression is not normalized to `false`. No issue of a known repository without a link matches,
    whether the links are those of the expression or of its normal form. Where a link has a search, the search is one in
    its repository for a list of literals, which say there what the expression does. -/
theorem links_where_expression_can_match [Engine] {rs : List Repository} {g : Registry}
    (h : Registry.ofList rs = .ok g) (e : Expr) :
    linked g e.normalize = (rs.filter fun r => !(e.specialize r).normalize.isConst false) ∧
    (linked g e.normalize).Nodup ∧
    (∀ r ∈ rs, r ∉ linked g e.normalize ∨ r ∉ linked g e → ∀ i : Issue, i.repository = r → e.eval i = false) ∧
    ∀ r s, (r, some s) ∈ links g e.normalize ∨ (r, some s) ∈ links g e → s.repository = some r ∧
      ∃ ls : List Literal, s.query = " ".intercalate (ls.map Literal.text) ∧
        ∀ i : Issue, i.repository = r → (e.eval i = true ↔ ∀ l ∈ ls, l.holds i = true) := by
  have hmade := Registry.made_of_ofList h
  obtain rfl := hmade.repositories_eq
  refine ⟨?_, ?_, ?_, ?_⟩
  · simp only [linked_eq_filter, isConst_inRepo_normalize]
  · rw [linked_eq_filter]
    exact hmade.nodup.filter _
  · intro r hr hl i hi
    rcases hl with hl | hl
    · rw [Expr.eval, ← Expr.evalWith_normalize]
      exact eval_eq_false_of_not_linked hr hl hi
    · exact eval_eq_false_of_not_linked hr hl hi
  · intro r s hs
    have hconj : ∃ ls, SaysIn r e s ls := by
      rcases hs with hs | hs
      · obtain ⟨ls, hls⟩ := says_of_link hs
        refine ⟨ls, hls.repository_eq, hls.query_eq, fun i hi => ?_⟩
        rw [← hls.eval_eq i hi, Expr.eval, Expr.eval, Expr.evalWith_normalize]
      · exact says_of_link hs
    obtain ⟨ls, hls⟩ := hconj
    refine ⟨hls.repository_eq, ls, hls.query_eq, fun i hi => ?_⟩
    rw [hls.eval_eq i hi, List.all_eq_true]

/-- A contradiction in the second of three repositories: no link goes there, and none of its issues matches. -/
theorem links_where_expression_can_match_denied :
    let runtime : Repository := ⟨"dotnet", "runtime", by decide, by decide, by decide, by decide⟩
    let corefx : Repository := ⟨"dotnet", "corefx", by decide, by decide, by decide, by decide⟩
    let sdk : Repository := ⟨"dotnet", "sdk", by decide, by decide, by decide, by decide⟩
    let opened : Expr := .leaf (.isOpen true)
    let e : Expr := .and [.perRepo [(runtime, .leaf (.label "bug"))] opened,
      .not (.perRepo [(corefx, opened)] (.leaf (.milestone (some "to do"))))]
    let query := "is:open -milestone:\"to do\""
    ∃ g, Registry.ofList [runtime, corefx, sdk] = .ok g ∧ linked g e.normalize = [runtime, sdk] ∧
      (∀ i : Issue, i.repository = corefx → e.eval i = false) ∧ (sdk, some ⟨some sdk, query⟩) ∈ links g e.normalize ∧
      ∃ ls : List Literal, query = " ".intercalate (ls.map Literal.text) ∧
        ∀ i : Issue, i.repository = sdk → (e.eval i = true ↔ ∀ l ∈ ls, l.holds i = true) := by
  intro runtime corefx sdk opened e query
  obtain ⟨g, hg⟩ := (Registry.ofList_ends [runtime, corefx, sdk]).exists_ok_iff.mpr (by decide)
  have hrs := (Registry.made_of_ofList hg).repositories_eq
  obtain ⟨hlinked, -, hleft, hconj⟩ := links_where_expression_can_match hg e
  have hlist : linked g e.normalize = [runtime, sdk] := by
    rw [hlinked]
    decide +kernel
  have hcorefx : corefx ∉ linked g e.normalize := by
    rw [hlist]
    decide
  have hsdk : (sdk, some ⟨some sdk, query⟩) ∈ links g e.normalize := by
    rw [links, hrs]
    decide +kernel
  exact ⟨g, hg, hlist, hleft corefx (by decide) (Or.inl hcorefx), hsdk, (hconj _ _ (Or.inl hsdk)).2⟩

end Triage.Search
