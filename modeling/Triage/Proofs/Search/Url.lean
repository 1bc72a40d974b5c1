/-
  Triage.Proofs.Search.Url — the address of a search tells the search.

  Owner and name stand in an address as they are, and may hold all that divides an address but a slash. The query is
  encoded, and holds none either (`slash_notMem_encode`). So the slashes behind the host are those that `url` puts
  there: one after the owner and one after the name if the search stays in a repository, and none otherwise. Owner and
  name are read back as they are, and the query because the code of a byte tells where it ends
  (`encodeByte_append_inj`).
-/

import Triage.Proofs.Repository
import Triage.Proofs.Search.Legible

namespace Triage

/-! ## Encoded text -/

namespace Text.Percent

theorem hexDigit_inj : ∀ m < 16, ∀ n < 16, hexDigit m = hexDigit n → m = n := by decide

theorem hexDigit_ne_slash : ∀ n < 16, hexDigit n ≠ '/' := by decide

/-- Neither the sign of a code nor a slash stands for itself. -/
theorem ofUInt8_ne_of_isUnreserved {b : UInt8} (h : isUnreserved b = true) :
    Char.ofUInt8 b ≠ '%' ∧ Char.ofUInt8 b ≠ '/' := by
  constructor
  all_goals
    intro hb
    rw [isUnreserved, hb] at h
    exact absurd h (by decide)

theorem ofUInt8_inj {b c : UInt8} (h : Char.ofUInt8 b = Char.ofUInt8 c) : b = c := by
  have hcode : ∀ b : UInt8, (Char.ofUInt8 b).toNat = b.toNat := UInt8.toNat_toUInt32
  rw [← UInt8.toNat_inj, ← hcode b, ← hcode c, h]

theorem encodeByte_of_isUnreserved {b : UInt8} (h : isUnreserved b = true) : encodeByte b = [Char.ofUInt8 b] := if_pos h

theorem encodeByte_of_not_isUnreserved {b : UInt8} (h : ¬ isUnreserved b = true) :
    encodeByte b = ['%', hexDigit (b.toNat / 16), hexDigit (b.toNat % 16)] := if_neg h

/-- The code of a byte tells the byte, and where the code ends. -/
theorem encodeByte_append_inj {b c : UInt8} {xs ys : List Char} (h : encodeByte b ++ xs = encodeByte c ++ ys) :
    b = c ∧ xs = ys := by
  by_cases hb : isUnreserved b = true
  · by_cases hc : isUnreserved c = true
    · rw [encodeByte_of_isUnreserved hb, encodeByte_of_isUnreserved hc] at h
      obtain ⟨hchar, hrest⟩ := List.cons.inj h
      exact ⟨ofUInt8_inj hchar, hrest⟩
    · rw [encodeByte_of_isUnreserved hb, encodeByte_of_not_isUnreserved hc] at h
      exact absurd (List.cons.inj h).1 (ofUInt8_ne_of_isUnreserved hb).1
  · by_cases hc : isUnreserved c = true
    · rw [encodeByte_of_not_isUnreserved hb, encodeByte_of_isUnreserved hc] at h
      exact absurd (List.cons.inj h).1.symm (ofUInt8_ne_of_isUnreserved hc).1
    · rw [encodeByte_of_not_isUnreserved hb, encodeByte_of_not_isUnreserved hc] at h
      obtain ⟨hhigh, hrest⟩ := List.cons.inj (List.cons.inj h).2
      obtain ⟨hlow, hrest⟩ := List.cons.inj hrest
      have hb' := b.toNat_lt
      have hc' := c.toNat_lt
      have hhigh' := hexDigit_inj _ (by omega) _ (by omega) hhigh
      have hlow' := hexDigit_inj _ (by omega) _ (by omega) hlow
      exact ⟨UInt8.toNat_inj.mp (by omega), hrest⟩

theorem encodeByte_ne_nil (b : UInt8) : encodeByte b ≠ [] := by
  unfold encodeByte
  split <;> simp

theorem slash_notMem_encodeByte (b : UInt8) : '/' ∉ encodeByte b := by
  by_cases hb : isUnreserved b = true
  · rw [encodeByte_of_isUnreserved hb, List.mem_singleton]
    exact (ofUInt8_ne_of_isUnreserved hb).2.symm
  · have hlt := b.toNat_lt
    have hhigh := hexDigit_ne_slash (b.toNat / 16) (by omega)
    have hlow := hexDigit_ne_slash (b.toNat % 16) (by omega)
    rw [encodeByte_of_not_isUnreserved hb]
    simp [hhigh.symm, hlow.symm]

theorem flatMap_encodeByte_injective {bs cs : List UInt8} (h : bs.flatMap encodeByte = cs.flatMap encodeByte) :
    bs = cs := by
  induction bs generalizing cs with
  | nil =>
    cases cs with
    | nil => rfl
    | cons c cs => simp [encodeByte_ne_nil] at h
  | cons b bs ih =>
    cases cs with
    | nil => simp [encodeByte_ne_nil] at h
    | cons c cs =>
      rw [List.flatMap_cons, List.flatMap_cons] at h
      obtain ⟨rfl, hrest⟩ := encodeByte_append_inj h
      rw [ih hrest]

theorem toList_encode (s : String) :
    (encode s).toList = (s.toList.flatMap String.utf8EncodeChar).flatMap encodeByte := by
  rw [encode, String.toList_ofList, List.flatMap_assoc]

theorem slash_notMem_encode (s : String) : '/' ∉ (encode s).toList := by
  rw [toList_encode, List.mem_flatMap]
  rintro ⟨b, -, hb⟩
  exact slash_notMem_encodeByte b hb

theorem encode_injective {s t : String} (h : encode s = encode t) : s = t := by
  have hbytes : s.toList.flatMap String.utf8EncodeChar = t.toList.flatMap String.utf8EncodeChar := by
    apply flatMap_encodeByte_injective
    rw [← toList_encode, ← toList_encode, h]
  rw [← String.toByteArray_inj, ← String.utf8Encode_toList, ← String.utf8Encode_toList, List.utf8Encode,
    List.utf8Encode, hbytes]

end Text.Percent

/-! ## Addresses -/

namespace Search

theorem toList_url_some (r : Repository) (query : String) : (url ⟨some r, query⟩).toList =
    "https://github.com/".toList ++
      (r.owner.toList ++ '/' :: (r.name.toList ++ '/' :: ("issues?q=".toList ++ (Text.Percent.encode query).toList))) := by
  have hurl : url ⟨some r, query⟩ =
      "https://github.com/" ++ r.owner ++ "/" ++ r.name ++ "/issues?q=" ++ Text.Percent.encode query := rfl
  have hslash : "/".toList = ['/'] := by decide
  have hissues : "/issues?q=".toList = '/' :: "issues?q=".toList := by decide
  simp only [hurl, String.toList_append, List.append_assoc, hslash, hissues, List.cons_append, List.nil_append]

theorem toList_url_none (query : String) : (url ⟨none, query⟩).toList =
    "https://github.com/".toList ++
      ("search?q=".toList ++ ((Text.Percent.encode query).toList ++ "&type=issues".toList)) := by
  have hurl : url ⟨none, query⟩ = "https://github.com/search?q=" ++ Text.Percent.encode query ++ "&type=issues" := rfl
  have hsearch : "https://github.com/search?q=".toList = "https://github.com/".toList ++ "search?q=".toList := by decide
  simp only [hurl, String.toList_append, hsearch, List.append_assoc]

/-- A search within a repository has slashes in its address where one of all repositories has none. -/
theorem url_some_ne_url_none (r : Repository) (query query' : String) : url ⟨some r, query⟩ ≠ url ⟨none, query'⟩ := by
  intro h
  rw [← String.toList_inj, toList_url_some, toList_url_none] at h
  have hslash := List.append_cancel_left h
  have hmem : '/' ∈ "search?q=".toList ++ ((Text.Percent.encode query').toList ++ "&type=issues".toList) := by
    rw [← hslash]
    simp
  rw [List.mem_append, List.mem_append] at hmem
  rcases hmem with hmem | hmem | hmem
  · exact absurd hmem (by decide)
  · exact Text.Percent.slash_notMem_encode query' hmem
  · exact absurd hmem (by decide)

theorem eq_of_url_some {r q : Repository} {query query' : String}
    (h : url ⟨some r, query⟩ = url ⟨some q, query'⟩) : r = q ∧ query = query' := by
  rw [← String.toList_inj, toList_url_some, toList_url_some] at h
  obtain ⟨howner, hrest⟩ := append_cons_inj_of_first (Repository.slash_notMem_of_isPart r.owner_isPart)
    (Repository.slash_notMem_of_isPart q.owner_isPart) (List.append_cancel_left h)
  obtain ⟨hname, hquery⟩ := append_cons_inj_of_first (Repository.slash_notMem_of_isPart r.name_isPart)
    (Repository.slash_notMem_of_isPart q.name_isPart) hrest
  have hkey : r.key = q.key := by
    rw [Repository.key, Repository.key, String.toList_inj.mp howner, String.toList_inj.mp hname]
  exact ⟨Repository.key_injective hkey,
    Text.Percent.encode_injective (String.toList_inj.mp (List.append_cancel_left hquery))⟩

theorem eq_of_url_none {query query' : String} (h : url ⟨none, query⟩ = url ⟨none, query'⟩) : query = query' := by
  rw [← String.toList_inj, toList_url_none, toList_url_none] at h
  have hquery := List.append_cancel_right (List.append_cancel_left (List.append_cancel_left h))
  exact Text.Percent.encode_injective (String.toList_inj.mp hquery)

/-- Two searches have one address only if they are for the same text in the same repository, or in none. -/
theorem url_eq_url_iff (s t : Search) : s.url = t.url ↔ s.repository = t.repository ∧ s.query = t.query := by
  obtain ⟨repository, query⟩ := s
  obtain ⟨repository', query'⟩ := t
  constructor
  · intro h
    cases repository with
    | none =>
      cases repository' with
      | none => exact ⟨rfl, eq_of_url_none h⟩
      | some q => exact absurd h.symm (url_some_ne_url_none q query' query)
    | some r =>
      cases repository' with
      | none => exact absurd h (url_some_ne_url_none r query query')
      | some q =>
        obtain ⟨rfl, hquery⟩ := eq_of_url_some h
        exact ⟨rfl, hquery⟩
  · rintro ⟨rfl, rfl⟩
    rfl

end Search

end Triage
