/-
  Triage.Proofs.Search.Legible — a legible search has one reading.

  A milestone or an assignee without a blank is written bare, with the quotes of its name as they are, and the next name
  may bring the quote that closes them: two bare names are then read as one quoted name. Where no bare name ends in a
  quote, a text has one reading (`write_injective`), so two expressions with one search match the same issues.

  The reading goes from the end of the text. A quote there closes a quoted name, and the nearest quote that no backslash
  stands before opens it (`content`); without a quote there, the last literal starts after the last blank. From the
  start it would have to guess: a backslash is not escaped, and `\"` may end a name or go on with it.
-/

import Triage.Proofs.Search.Literal
import Mathlib.Data.List.Induction

namespace Triage.Search

/-! ## Names -/

/-- A name that is written bare does not end in a quote. -/
def LegibleName (name : String) : Prop := name.toList.getLast? = some '"' → name.toList.any Text.isBlank = true

def LegibleLeaf : Leaf → Prop
  | .milestone (some name) | .assignee (some name) => LegibleName name
  | _ => True

def Legible (e : Expr) : Prop := ∀ l, e.Mentions l → LegibleLeaf l

namespace Legible

theorem const (b : Bool) : Legible (.const b) := nofun

theorem leaf {l : Leaf} (h : LegibleLeaf l) : Legible (.leaf l) := by
  rintro _ ⟨⟩
  exact h

theorem not {e : Expr} (h : Legible e) : Legible (.not e) := by
  rintro l ⟨⟩
  exact h l ‹_›

theorem and {es : List Expr} (h : ∀ e ∈ es, Legible e) : Legible (.and es) := by
  rintro l (_ | _ | ⟨he, hl⟩)
  exact h _ he l hl

end Legible

/-! ## Quoted names -/

/-- The characters of a name between quotes. -/
def escaped (cs : List Char) : List Char := cs.flatMap fun c => if c = '"' then ['\\', '"'] else [c]

theorem toList_quoted (name : String) : (quoted name).toList = '"' :: escaped name.toList ++ ['"'] :=
  String.toList_ofList

/-- A quoted name from its end: the name and what stands before its opening quote, both backwards. -/
def content : List Char → List Char × List Char
  | '"' :: '\\' :: cs => ('"' :: (content cs).1, (content cs).2)
  | '"' :: cs => ([], cs)
  | c :: cs => (c :: (content cs).1, (content cs).2)
  | [] => ([], [])

theorem content_escaped (cs : List Char) {before : List Char} (h : before.head? ≠ some '\\') :
    content ((escaped cs).reverse ++ '"' :: before) = (cs.reverse, before) := by
  induction cs using List.reverseRecOn with
  | nil =>
    rw [show (escaped []).reverse ++ '"' :: before = '"' :: before from rfl, content]
    · rfl
    · rintro cs rfl
      exact h rfl
  | append_singleton cs c ih =>
    have hsplit : escaped (cs ++ [c]) = escaped cs ++ if c = '"' then ['\\', '"'] else [c] := by
      rw [escaped, List.flatMap_append, List.flatMap_singleton, escaped]
    rw [hsplit, List.reverse_append, List.append_assoc, List.reverse_concat]
    split
    · rename_i hc
      rw [hc]
      show content ('"' :: '\\' :: ((escaped cs).reverse ++ '"' :: before)) = _
      rw [content, ih]
    · rename_i hc
      show content (c :: ((escaped cs).reverse ++ '"' :: before)) = _
      rw [content, ih]
      · rintro _ rfl
        exact absurd rfl hc
      · rintro rfl
        exact absurd rfl hc

theorem content_quoted {before : List Char} (h : before.getLast? ≠ some '\\') (name : String) :
    content (before ++ (quoted name).toList).reverse.tail = (name.toList.reverse, before.reverse) := by
  have hrev : (before ++ ('"' :: escaped name.toList ++ ['"'])).reverse.tail =
      (escaped name.toList).reverse ++ '"' :: before.reverse := by simp
  rw [toList_quoted, hrev, content_escaped]
  rwa [List.head?_reverse]

theorem eq_of_quoted {xs ys : List Char} {m n : String} (hx : xs.getLast? ≠ some '\\') (hy : ys.getLast? ≠ some '\\')
    (h : xs ++ (quoted m).toList = ys ++ (quoted n).toList) : xs = ys ∧ m = n := by
  have hc := content_quoted hx m
  rw [h, content_quoted hy n, Prod.mk.injEq, List.reverse_inj, List.reverse_inj, String.toList_inj] at hc
  exact ⟨hc.2.symm, hc.1.symm⟩

theorem quoted_injective {m n : String} (h : quoted m = quoted n) : m = n := by
  have hlist : [] ++ (quoted m).toList = [] ++ (quoted n).toList := by rw [h]
  exact (eq_of_quoted (by simp) (by simp) hlist).2

theorem getLast?_quoted (name : String) : (quoted name).toList.getLast? = some '"' := by
  rw [toList_quoted]
  exact List.getLast?_concat

theorem value_injective {m n : String} (hm : LegibleName m) (hn : LegibleName n) (h : value m = value n) : m = n := by
  have hmixed : ∀ {m n : String}, LegibleName n → quoted m = n → n.toList.any Text.isBlank = true := by
    rintro m n hn rfl
    exact hn (getLast?_quoted m)
  rw [value, value] at h
  split at h
  · split at h
    · exact quoted_injective h
    · exact absurd (hmixed hn h) ‹_›
  · split at h
    · exact absurd (hmixed hm h.symm) ‹_›
    · exact h

/-! ## Literals -/

/-- A character has one last place in a text. -/
theorem append_cons_inj_of_last {c : Char} {xs ys as bs : List Char} (ha : c ∉ as) (hb : c ∉ bs)
    (h : xs ++ c :: as = ys ++ c :: bs) : xs = ys ∧ as = bs := by
  rcases List.append_eq_append_iff.mp h with ⟨zs, rfl, hz⟩ | ⟨zs, rfl, hz⟩
  · cases zs with
    | nil =>
      cases hz
      exact ⟨(List.append_nil xs).symm, rfl⟩
    | cons z zs =>
      cases hz
      exact absurd (List.mem_append_right zs List.mem_cons_self) ha
  · cases zs with
    | nil =>
      cases hz
      exact ⟨List.append_nil ys, rfl⟩
    | cons z zs =>
      cases hz
      exact absurd (List.mem_append_right zs List.mem_cons_self) hb

theorem append_cons_inj_of_first {c : Char} {xs ys as bs : List Char} (hx : c ∉ xs) (hy : c ∉ ys)
    (h : xs ++ c :: as = ys ++ c :: bs) : xs = ys ∧ as = bs := by
  have hrev := congrArg List.reverse h
  simp only [List.reverse_append, List.reverse_cons, List.append_assoc, List.singleton_append] at hrev
  obtain ⟨ha, hk⟩ := append_cons_inj_of_last (by simpa using hx) (by simpa using hy) hrev
  exact ⟨List.reverse_inj.mp hk, List.reverse_inj.mp ha⟩

namespace Literal

theorem toList_text (l : Literal) : l.text.toList = l.key.toList ++ ':' :: l.written.toList := by
  rw [text, String.toList_append, String.toList_append, List.append_assoc]
  rfl

theorem key_chars (l : Literal) : ' ' ∉ l.key.toList ∧ ':' ∉ l.key.toList := by
  have hkeys : ∀ key ∈ ["label", "-label", "milestone", "-milestone", "assignee", "-assignee", "no", "is"],
      ' ' ∉ key.toList ∧ ':' ∉ key.toList := by decide
  refine hkeys l.key ?_
  cases l with
  | label denied | milestone denied | assignee denied => cases denied <;> simp [key]
  | noMilestone | noAssignee | isIssue | isOpen => simp [key]

/-- A literal that is not in quotes has no blank, and ends in no quote if it is legible. -/
theorem quoted_or_bare {l : Literal} (h : LegibleLeaf l.leaf) :
    (∃ name, l.written = quoted name) ∨ ' ' ∉ l.written.toList ∧ l.written.toList.getLast? ≠ some '"' := by
  have hname : ∀ name, LegibleName name →
      (∃ name', value name = quoted name') ∨ ' ' ∉ (value name).toList ∧ (value name).toList.getLast? ≠ some '"' := by
    intro name hn
    rw [value]
    split
    · exact Or.inl ⟨name, rfl⟩
    · rename_i hb
      exact Or.inr ⟨fun hs => hb (List.any_eq_true.mpr ⟨' ', hs, rfl⟩), fun hq => hb (hn hq)⟩
  cases l with
  | label denied name => exact Or.inl ⟨name, rfl⟩
  | milestone denied name | assignee denied name => exact hname name h
  | noMilestone | noAssignee => exact Or.inr (by decide)
  | isIssue b | isOpen b => cases b <;> exact Or.inr (by decide)

/-- The key tells what is asked for and whether it is denied, and what is written after it tells the rest. -/
theorem ext_key_written {l m : Literal} (hl : LegibleLeaf l.leaf) (hm : LegibleLeaf m.leaf) (hk : l.key = m.key)
    (hw : l.written = m.written) : l = m := by
  have hdenied : ∀ {d d' : Bool} {s s' : String}, s ≠ s' → (if d then s else s') = (if d' then s else s') → d = d' := by
    intro d d' s s' hs h
    cases d <;> cases d' <;> simp_all
  cases l <;> cases m
  case label.label => rw [hdenied (by decide) hk, quoted_injective hw]
  case milestone.milestone => rw [hdenied (by decide) hk, value_injective hl hm hw]
  case assignee.assignee => rw [hdenied (by decide) hk, value_injective hl hm hw]
  case noMilestone.noMilestone | noAssignee.noAssignee => rfl
  case noMilestone.noAssignee | noAssignee.noMilestone => exact absurd hw (by decide)
  case isIssue.isIssue b b' | isOpen.isOpen b b' => cases b <;> cases b' <;> first | rfl | exact absurd hw (by decide)
  case isIssue.isOpen b b' | isOpen.isIssue b b' => cases b <;> cases b' <;> exact absurd hw (by decide)
  -- The keys of what is left differ.
  all_goals
    simp only [key] at hk
    repeat' split at hk
    all_goals exact absurd hk (by decide)

theorem blank_notMem_of_written {cs : List Char} (l : Literal) (h : ' ' ∉ cs) : ' ' ∉ l.key.toList ++ ':' :: cs := by
  rw [List.mem_append, List.mem_cons, not_or, not_or]
  exact ⟨l.key_chars.1, by decide, h⟩

theorem getLast?_text (xs : List Char) (l : Literal) :
    (xs ++ ' ' :: l.text.toList).getLast? = some '"' ↔ l.written.toList.getLast? = some '"' := by
  rw [toList_text, ← List.cons_append, ← List.append_assoc, List.getLast?_append, List.getLast?_cons, Option.some_or,
    Option.some_inj]
  cases l.written.toList.getLast? with
  | none => exact ⟨nofun, nofun⟩
  | some c => exact Option.some_inj.symm

/-- Whatever stands before it, a legible literal at the end of a text is read back. -/
theorem eq_of_text {xs ys : List Char} {l m : Literal} (hl : LegibleLeaf l.leaf) (hm : LegibleLeaf m.leaf)
    (h : xs ++ ' ' :: l.text.toList = ys ++ ' ' :: m.text.toList) : xs = ys ∧ l = m := by
  have hends : l.written.toList.getLast? = some '"' ↔ m.written.toList.getLast? = some '"' := by
    rw [← getLast?_text xs, h, getLast?_text]
  rw [toList_text, toList_text] at h
  rcases quoted_or_bare hl with ⟨a, ha⟩ | ⟨hl', hq⟩ <;> rcases quoted_or_bare hm with ⟨b, hb⟩ | ⟨hm', hq'⟩
  · have hopen : ∀ (zs : List Char) (l : Literal),
        zs ++ ' ' :: (l.key.toList ++ ':' :: l.written.toList) =
          zs ++ ' ' :: (l.key.toList ++ [':']) ++ l.written.toList := by simp
    have hcolon : ∀ (zs : List Char) (l : Literal),
        (zs ++ ' ' :: (l.key.toList ++ [':'])).getLast? ≠ some '\\' := by
      intro zs l
      rw [← List.cons_append, ← List.append_assoc, List.getLast?_concat]
      decide
    rw [hopen xs l, hopen ys m, ha, hb] at h
    obtain ⟨hbefore, rfl⟩ := eq_of_quoted (hcolon xs l) (hcolon ys m) h
    obtain ⟨hxs, hk⟩ := append_cons_inj_of_last (l.blank_notMem_of_written List.not_mem_nil)
      (m.blank_notMem_of_written List.not_mem_nil) hbefore
    have hk : l.key = m.key := String.toList_inj.mp (List.append_cancel_right hk)
    exact ⟨hxs, ext_key_written hl hm hk (ha.trans hb.symm)⟩
  · exact absurd (hends.mp (ha ▸ getLast?_quoted a)) hq'
  · exact absurd (hends.mpr (hb ▸ getLast?_quoted b)) hq
  · obtain ⟨hxs, htext⟩ := append_cons_inj_of_last (l.blank_notMem_of_written hl') (m.blank_notMem_of_written hm') h
    obtain ⟨hk, hw⟩ := append_cons_inj_of_first l.key_chars.2 m.key_chars.2 htext
    exact ⟨hxs, ext_key_written hl hm (String.toList_inj.mp hk) (String.toList_inj.mp hw)⟩

end Literal

/-! ## Searches -/

/-- The literals with a blank before each. -/
theorem toList_write {ls : List Literal} (h : ls ≠ []) :
    ' ' :: (write ls).toList = ls.flatMap fun l => ' ' :: l.text.toList := by
  induction ls with
  | nil => exact absurd rfl h
  | cons l ls ih =>
    cases ls with
    | nil => simp [write]
    | cons m ls =>
      have hcons : write (l :: m :: ls) = l.text ++ " " ++ write (m :: ls) := String.intercalate_cons_cons
      rw [hcons, List.flatMap_cons, ← ih (List.cons_ne_nil m ls), String.toList_append, String.toList_append,
        List.append_assoc]
      rfl

theorem flatMap_text_injective {ls ms : List Literal} (hl : ∀ l ∈ ls, LegibleLeaf l.leaf)
    (hm : ∀ m ∈ ms, LegibleLeaf m.leaf)
    (h : (ls.flatMap fun l => ' ' :: l.text.toList) = ms.flatMap fun l => ' ' :: l.text.toList) : ls = ms := by
  induction ls using List.reverseRecOn generalizing ms with
  | nil =>
    cases ms with
    | nil => rfl
    | cons m ms => cases h
  | append_singleton ls l ih =>
    rcases List.eq_nil_or_concat ms with rfl | ⟨ms, m, rfl⟩
    · simp at h
    · rw [List.concat_eq_append] at hm h ⊢
      rw [List.flatMap_append, List.flatMap_append, List.flatMap_singleton, List.flatMap_singleton] at h
      obtain ⟨hl, hlast⟩ := List.forall_mem_append.mp hl
      obtain ⟨hm, hlast'⟩ := List.forall_mem_append.mp hm
      obtain ⟨hrest, hlm⟩ := Literal.eq_of_text (hlast l List.mem_cons_self) (hlast' m List.mem_cons_self) h
      rw [ih hl hm hrest, hlm]

/-- A legible text is that of one list of literals. -/
theorem write_injective {ls ms : List Literal} (hl : ∀ l ∈ ls, LegibleLeaf l.leaf)
    (hm : ∀ m ∈ ms, LegibleLeaf m.leaf) (h : write ls = write ms) : ls = ms := by
  have hempty := write_isEmpty ls
  rw [h, write_isEmpty] at hempty
  cases ls with
  | nil => exact (List.isEmpty_iff.mp hempty).symm
  | cons l ls =>
    have hne : ms ≠ [] := by
      rintro rfl
      cases hempty
    refine flatMap_text_injective hl hm ?_
    rw [← toList_write (List.cons_ne_nil l ls), ← toList_write hne, h]

theorem Finds.legible [Engine] {s : Search} {e : Expr} {ls : List Literal} (h : Finds s e ls) (he : Legible e) :
    ∀ l ∈ ls, LegibleLeaf l.leaf := by
  intro l hl
  rcases h.mentions l hl with hk | hm
  · cases l with
    | milestone denied | assignee denied => cases denied <;> simp [Literal.key] at hk
    | label | noMilestone | noAssignee | isIssue | isOpen => trivial
  · exact he l.leaf hm

/-- Two expressions with one search match the same issues if they are legible. -/
theorem eval_eq_of_legible [Engine] {d e : Expr} {s t : Search} (hs : ofExpr d = some s) (ht : ofExpr e = some t)
    (hr : s.repository = t.repository) (hq : s.query = t.query) (hd : Legible d) (he : Legible e) (i : Issue) :
    d.eval i = e.eval i := by
  obtain ⟨ls, hls⟩ := finds_of_ofExpr hs
  obtain ⟨ms, hms⟩ := finds_of_ofExpr ht
  obtain rfl : ls = ms := write_injective (hls.legible hd) (hms.legible he)
    (by rw [← hls.query_eq, hq, hms.query_eq])
  rw [hls.eval_eq, hms.eval_eq, covers, covers, hr]

/-- A name with quotes and blanks, beside literals that are grouped and denied in different ways. -/
theorem eval_eq_of_legible_grouped :
    let m : Expr := .leaf (.milestone (some "the \"8.0\" release"))
    let d : Expr := .and [m, .not (.leaf (.isOpen false))]
    let e : Expr := .and [.const true, .and [m], .leaf (.isOpen true)]
    ofExpr d = some ⟨none, "milestone:\"the \\\"8.0\\\" release\" is:open"⟩ ∧ ofExpr e = ofExpr d ∧
      ∀ i, d.eval i = e.eval i := by
  intro m d e
  have hm : Legible m := .leaf fun _ => by decide
  have hd : Legible d := .and (List.forall_mem_cons.mpr ⟨hm, List.forall_mem_singleton.mpr (.not (.leaf trivial))⟩)
  have he : Legible e := .and (List.forall_mem_cons.mpr ⟨.const true,
    List.forall_mem_cons.mpr ⟨.and (List.forall_mem_singleton.mpr hm), List.forall_mem_singleton.mpr (.leaf trivial)⟩⟩)
  exact ⟨rfl, rfl, eval_eq_of_legible rfl rfl rfl rfl hd he⟩

/-- A quote in one bare name and a quote in the next are read as the quotes of one name. -/
theorem bare_quotes_are_ambiguous :
    ¬ ∀ (d e : Expr) (s t : Search), ofExpr d = some s → ofExpr e = some t → s.repository = t.repository →
      s.query = t.query → ∀ i, d.eval i = e.eval i := by
  intro h
  let i := (Issue.new ⟨"dotnet", "runtime", by decide, by decide, by decide, by decide⟩ 1).withMilestone
    "8.0 assignee:ann"
  have he : Expr.eval (.and [.leaf (.milestone (some "\"8.0")), .leaf (.assignee (some "ann\""))]) i =
      Expr.eval (.leaf (.milestone (some "8.0 assignee:ann"))) i := by
    exact h _ _ ⟨none, "milestone:\"8.0 assignee:ann\""⟩ ⟨none, "milestone:\"8.0 assignee:ann\""⟩ rfl rfl rfl rfl i
  revert he
  decide

end Triage.Search
