/-
  Triage.Catalog.Basic — the configuration of a catalog, as it is written in a text or a file.

  The members of a configuration, a query and a variant are fixed; a leaf may have others beside its name, and the
  first that says what the leaf is counts. With this module comes an engine for the patterns of a configuration.
-/

import Triage.Catalog.Build
import Triage.Json.Text
import Triage.Regex.Engine

namespace Triage.Catalog

open Json (Value)

namespace LeafDefinition

def ofMember? (key : String) (v : Value) : Option (Option LeafDefinition) :=
  match key with
  | "query" => some (v.text?.map .query)
  | "label_pattern" => some (v.text?.map .labelPattern)
  | "milestone_pattern" => some (v.text?.map .milestonePattern)
  | _ => none

/-- The first member that defines a leaf; it has to be a text. -/
def ofMembers? : List (Option String × Value) → Option LeafDefinition
  | [] => none
  | (k, v) :: ms => match k.bind (ofMember? · v) with
    | some d => d
    | none => ofMembers? ms

end LeafDefinition

/-- How deep the members of a leaf may nest: a text holds 127 arrays and objects inside one another, three of them
    around these. -/
def leafDepth : Nat := 124

def CustomLeaf.ofJson? : Value → Option CustomLeaf
  | .object ms => do
    let name ← match Value.under "name" ms with
      | [v] => v.text?
      | _ => none
    let kept := ms.all fun (k, v) => k.isSome && (k == some "name" || v.fits leafDepth)
    if kept then return ⟨name, ← LeafDefinition.ofMembers? ms⟩ else none
  | _ => none

def Variant.ofJson? (v : Value) : Option Variant := do
  match ← v.fields? ["repository", "query"] false with
  | [repository, query] =>
    return {
      repository := ← Value.orElse? none (Value.nullable? Repository.ofJson?) repository
      query := ← Value.required? Value.text? query }
  | _ => none

def QueryDefinition.ofJson? (v : Value) : Option QueryDefinition := do
  match ← v.fields? ["name", "query", "variants"] false with
  | [name, query, variants] =>
    return {
      name := ← Value.required? Value.text? name
      query := ← Value.orElse? none (Value.nullable? Value.text?) query
      variants := ← Value.orElse? [] (Value.list? Variant.ofJson?) variants }
  | _ => none

def Config.ofJson? (v : Value) : Option Config := do
  match ← v.fields? ["repositories", "untriaged", "custom_leaves", "queries"] false with
  | [repositories, untriaged, customLeaves, queries] =>
    return {
      repositories := ← Value.orElse? [] (Value.list? Repository.ofJson?) repositories
      untriaged := ← Value.orElse? .empty UntriagedConfig.ofJson? untriaged
      customLeaves := ← Value.orElse? [] (Value.list? CustomLeaf.ofJson?) customLeaves
      queries := ← Value.orElse? [] (Value.list? QueryDefinition.ofJson?) queries }
  | _ => none

/-- The configuration a text spells. -/
def Config.read (s : String) : Option Config := Json.read s >>= Config.ofJson?

def readConfig (text : String) : Except Error Config :=
  match Config.read text with
  | some c => .ok c
  | none => .error .malformedJson

/-- The configuration in a file, where `contents` answers what is in the files that can be read. -/
def loadConfig (contents : String → Option String) (path : String) : Except Error Config :=
  match contents path with
  | some text => readConfig text
  | none => .error .unreadable

end Triage.Catalog
