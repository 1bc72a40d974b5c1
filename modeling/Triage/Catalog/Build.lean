/-
  Triage.Catalog.Build — the repositories, leaves and named queries of a configuration.

  A catalog is built in order: the repositories, the leaves, each of which may call those before it, then the queries,
  which may call all leaves. The first step that fails gives the error. Where the wording of an error ends in the words
  of whoever read the file, the JSON or the pattern, those are not part of it.

  The queries are kept in the order in which they were defined, and an index holds the place of each by its folded
  name; `find?` goes from a name through the index to the list.
-/

import Triage.Expr.Basic
import Triage.Expr.Formula
import Triage.Query.Parser
import Triage.Repository
import Triage.Search

namespace Triage

namespace Catalog

/-! ## Configurations -/

inductive LeafDefinition where
  | query (text : String)
  | labelPattern (text : String)
  | milestonePattern (text : String)
  deriving DecidableEq, Repr

structure CustomLeaf where
  name : String
  definition : LeafDefinition
  deriving DecidableEq, Repr

/-- The query of one repository, or of all that have none of their own. -/
structure Variant where
  repository : Option Repository
  query : String
  deriving DecidableEq

structure QueryDefinition where
  name : String
  query : Option String
  variants : List Variant
  deriving DecidableEq

structure Config where
  repositories : List Repository
  untriaged : UntriagedConfig
  customLeaves : List CustomLeaf
  queries : List QueryDefinition
  deriving DecidableEq

/-! ## Errors -/

inductive Error where
  /-- The file cannot be read. -/
  | unreadable
  /-- The text is no JSON of the form that is asked for. -/
  | malformedJson
  | repeatedRepository (r : Repository)
  | unknownRepository (name : String) (r : Repository)
  | repeatedName (name : String)
  | emptyQuery (name : String)
  | query (name : String) (e : Query.Error)
  | pattern (name : String)
  | clash (name : String) (c : PerRepo.Clash)
  deriving DecidableEq

def Error.message : Error → String
  | .unreadable => "failed to read the configuration with "
  | .malformedJson => "failed to deserialize with "
  | .repeatedRepository r => "repository " ++ r.key ++ " has already been defined"
  | .unknownRepository name r => "query '" ++ name ++ "' refers to undefined repository " ++ r.key
  | .repeatedName name => "'" ++ name ++ "' has already been defined"
  | .emptyQuery name => "query '" ++ name ++ "' has neither a query nor variants"
  | .query name e => "query '" ++ name ++ "': " ++ e.message
  | .pattern name => "custom leaf '" ++ name ++ "': "
  | .clash name c => "query '" ++ name ++ "': " ++ c.message

/-! ## Queries -/

structure NamedQuery where
  name : String
  formula : Formula

namespace NamedQuery

def expression (q : NamedQuery) : Expr := q.formula.expr

def matching [Engine] (q : NamedQuery) (issues : List Issue) : List Issue := q.expression.filter issues

/-- The search for the normal form. -/
def search (q : NamedQuery) : Option Search := Search.ofExpr q.formula.normal

end NamedQuery

structure Queries where
  list : List NamedQuery
  /-- By folded name. -/
  index : List (String × Nat)

namespace Queries

def empty : Queries := ⟨[], []⟩

def place? (qs : Queries) (name : String) : Option Nat := qs.index.lookup (Text.fold name)

def add (qs : Queries) (q : NamedQuery) : Queries :=
  ⟨qs.list ++ [q], (Text.fold q.name, qs.list.length) :: qs.index⟩

def find? (qs : Queries) (name : String) : Option NamedQuery := (qs.place? name).bind (qs.list[·]?)

end Queries

end Catalog

structure Catalog where
  repositories : Registry
  leaves : Query.Leaves
  named : Catalog.Queries

namespace Catalog

/-! ## Building -/

def parse (leaves : Query.Leaves) (name text : String) : Except Error Formula :=
  (Query.parse leaves text).mapError (.query name)

def pattern [Engine] (name text : String) : Except Error Pattern :=
  match Pattern.ofText? text with
  | some p => .ok p
  | none => .error (.pattern name)

def CustomLeaf.build [Engine] (leaves : Query.Leaves) (l : CustomLeaf) : Except Error Formula :=
  match l.definition with
  | .query text => parse leaves l.name text
  | .labelPattern text => (pattern l.name text).map fun p => .leaf (.labelPattern p)
  | .milestonePattern text => (pattern l.name text).map fun p => .leaf (.milestonePattern p)

def addLeaf [Engine] (leaves : Query.Leaves) (l : CustomLeaf) : Except Error Query.Leaves :=
  if Query.isReserved l.name then .error (.repeatedName l.name)
  else do
    let f ← l.build leaves
    if (leaves.find? l.name).isSome then .error (.repeatedName l.name) else return leaves.insert l.name f

/-- The leaf that every configuration has. -/
def untriagedLeaf (c : Config) : Query.Leaves := .ofList [("untriaged", .leaf (.untriaged c.untriaged))]

def buildLeaves [Engine] (c : Config) : Except Error Query.Leaves := c.customLeaves.foldlM addLeaf (untriagedLeaf c)

def Variant.build (g : Registry) (leaves : Query.Leaves) (name : String) (v : Variant) :
    Except Error (Option Repository × Formula) := do
  match v.repository with
  | some r => if g.contains r then pure () else throw (.unknownRepository name r)
  | none => pure ()
  return (v.repository, ← parse leaves name v.query)

def QueryDefinition.build (g : Registry) (leaves : Query.Leaves) (q : QueryDefinition) : Except Error Formula := do
  match q.variants, q.query with
  | [], some text => parse leaves q.name text
  | [], none => throw (.emptyQuery q.name)
  | variants, query =>
    let entries ← variants.mapM (·.build g leaves q.name)
    let fallback ← match query with
      | some text => (parse leaves q.name text).map fun f => [(none, f)]
      | none => pure []
    (PerRepo.ofList (.const false) (entries ++ fallback)).map Formula.perRepo |>.mapError (.clash q.name)

def addQuery (g : Registry) (leaves : Query.Leaves) (qs : Queries) (q : QueryDefinition) : Except Error Queries := do
  let f ← q.build g leaves
  if (qs.place? q.name).isSome then throw (.repeatedName q.name) else return qs.add ⟨q.name, f⟩

def build [Engine] (c : Config) : Except Error Catalog := do
  let g ← (Registry.ofList c.repositories).mapError .repeatedRepository
  let leaves ← buildLeaves c
  let named ← c.queries.foldlM (addQuery g leaves) .empty
  return ⟨g, leaves, named⟩

/-! ## Use -/

/-- In the order in which they were defined. -/
def queries (c : Catalog) : List NamedQuery := c.named.list

def place? (c : Catalog) (name : String) : Option Nat := c.named.place? name

def find? (c : Catalog) (name : String) : Option NamedQuery := c.named.find? name

/-- The formula of a query that calls the leaves of the catalog. -/
def parseQuery (c : Catalog) (query : String) : Except Query.Error Formula := Query.parse c.leaves query

end Catalog

end Triage
