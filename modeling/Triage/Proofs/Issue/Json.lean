/-
  Triage.Proofs.Issue.Json — issues and what makes them untriaged read back from their text.

  A repository is written as its key, and a state and a kind as a name that stands for nothing else. So each field of
  an issue is taken out of what was written for it, a name that is missing from null, and the whole record with it
  (`ofJson?_toJson`). The numbers in it are whole, so the text of the record is read as the record (`Json.read_write`).
-/

import Triage.Issue.Json
import Triage.Proofs.Json.Text
import Triage.Proofs.Json.Record
import Triage.Proofs.Repository
import Triage.Untriaged

namespace Triage

open Json (Value)

/-! ## Issues -/

theorem Repository.ofJson?_toJson (r : Repository) : ofJson? r.toJson = some r := by
  simp [ofJson?, toJson, Value.ofText, Value.text?, parse_key, Except.toOption]

namespace Issue

theorem State.ofJson?_name (s : State) : ofJson? (.ofText s.name) = some s := by
  cases s <;> decide

theorem Kind.ofJson?_name (k : Kind) : ofJson? (.ofText k.name) = some k := by
  cases k <;> decide

theorem ofJson?_toJson (i : Issue) : ofJson? i.toJson = some i := by
  have hfields : i.toJson.fields? fieldNames true = some [some (.ofNat i.number.toNat), some i.repository.toJson,
      some (.ofTexts i.labels), some (.ofText? i.milestone), some (.ofText? i.assignee), some (.ofText i.state.name),
      some (.ofText i.kind.name)] := Value.fields?_record (by rfl) (by decide) true
  rw [ofJson?, hfields]
  simp [Value.required?, Value.orElse?, Value.word?_ofNat, Repository.ofJson?_toJson, Value.list?_ofTexts,
    Value.nullable?_ofText?, State.ofJson?_name, Kind.ofJson?_name]

theorem whole_toJson (i : Issue) : i.toJson.Whole := by
  refine Value.whole_record ?_
  simp only [List.forall_mem_cons]
  exact ⟨.number _, .string _, Value.whole_ofTexts _, Value.whole_ofText? _, Value.whole_ofText? _, .string _,
    .string _, nofun⟩

theorem readList_writeList (is : List Issue) : readList (writeList is) = some is := by
  rw [readList, writeList, Json.read_write (Value.whole_array whole_toJson is)]
  exact Value.list?_array ofJson?_toJson is

theorem writeList_eq (is : List Issue) :
    writeList is = "[" ++ ",".intercalate (is.map fun i => i.toJson.write) ++ "]" := by
  rw [writeList, Value.write_array, List.map_map]
  rfl

end Issue

/-! ## What makes an issue untriaged -/

theorem LabelSet.ofJson?_toJson (s : LabelSet) : ofJson? s.toJson = some s := by
  have hfields : s.toJson.fields? ["names", "prefixes"] true =
      some [some (.ofTexts s.names), some (.ofTexts s.prefixes)] :=
    Value.fields?_record (by rfl) (by decide) true
  rw [ofJson?, hfields]
  simp [Value.orElse?, Value.list?_ofTexts]

theorem LabelSet.whole_toJson (s : LabelSet) : s.toJson.Whole := by
  refine Value.whole_record ?_
  simp only [List.forall_mem_cons]
  exact ⟨Value.whole_ofTexts _, Value.whole_ofTexts _, nofun⟩

namespace UntriagedConfig

theorem ofJson?_toJson (c : UntriagedConfig) : ofJson? c.toJson = some c := by
  have hfields : c.toJson.fields? ["area_labels", "issue_type_labels", "require_milestone"] true =
      some [some c.areaLabels.toJson, some c.issueTypeLabels.toJson, some (.bool c.requireMilestone)] :=
    Value.fields?_record (by rfl) (by decide) true
  rw [ofJson?, hfields]
  simp [Value.orElse?, LabelSet.ofJson?_toJson, Value.bool?]

theorem whole_toJson (c : UntriagedConfig) : c.toJson.Whole := by
  refine Value.whole_record ?_
  simp only [List.forall_mem_cons]
  exact ⟨c.areaLabels.whole_toJson, c.issueTypeLabels.whole_toJson, .bool _, nofun⟩

end UntriagedConfig

/-! ## Both -/

/-- A list of issues, written as the texts of its issues in an array, is read as the same list, and a configuration as
    the same configuration. -/
theorem Issue.written_reads_back :
    (∀ is : List Issue, writeList is = "[" ++ ",".intercalate (is.map fun i => i.toJson.write) ++ "]" ∧
      readList (writeList is) = some is) ∧
    ∀ c : UntriagedConfig, Json.read c.toJson.write >>= UntriagedConfig.ofJson? = some c := by
  refine ⟨fun is => ⟨writeList_eq is, readList_writeList is⟩, fun c => ?_⟩
  rw [Json.read_write c.whole_toJson]
  exact c.ofJson?_toJson

end Triage
