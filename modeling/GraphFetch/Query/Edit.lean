/-
Queries and the edits that shape them.

Argument filters, projections, hooks and root modifiers all change a query before
it runs.  Each such change is an `Edit`, a value that can be looked at; applying it
is one function.  Edits apply in order, later ones on top of earlier ones: a filter
adds a condition, a projection replaces the one before it.

An edit may read the query that it changes and choose what to do by what it sees
there, which is all of the query but the modifiers of its loads.
-/
import GraphFetch.Expression.Node
import GraphFetch.Query.Basic

namespace GraphFetch

/-- What can be seen of a query. -/
structure QueryView where
  entity : EntityId
  table : String
  columns : Option (List ColumnRef)
  conditions : List Condition
  orderings : List OrderBy
  limit : Option Nat
  offset : Option Nat
  /-- The relations to load, and the names of the modifiers for them. -/
  eager : Option (List RelationNode × List String)
  skipsUndefined : Bool
deriving Inhabited

/-- A change to a query. -/
inductive Edit
  /-- Adds a condition. -/
  | filter (condition : Condition)
  /-- Fetches these columns only. -/
  | select (columns : List ColumnRef)
  /-- Adds an ordering behind those there are. -/
  | orderBy (ordering : OrderBy)
  | limit (count : Nat)
  | offset (count : Nat)
  | skipUndefined (skip : Bool)
  /-- Attaches relations, whose modifiers are named in a table of edits. -/
  | load (relations : List RelationNode) (modifiers : List (String × Edit))
  /-- Applies edits in order. -/
  | all (edits : List Edit)
  /-- Applies edits in order unless the query skips undefined values. -/
  | unlessSkipping (edits : List Edit)
  /-- Applies, in order, the edits chosen for what is seen of the query. -/
  | look (choose : QueryView → List Edit)
deriving Inhabited

/-- Modifiers that an eager expression refers to, by name and in order. -/
abbrev ModifierTable := List (String × Edit)

/-- Relations to fetch alongside the rows of a query, with the modifiers they refer to. -/
structure EagerLoad where
  relations : List RelationNode
  modifiers : ModifierTable
deriving Inhabited

namespace EagerLoad

/-- The relations as text, which is what an executor is handed. -/
def expression (load : EagerLoad) : String := Expression.render load.relations

/-- Whether there is nothing to load. -/
def isEmpty (load : EagerLoad) : Bool := load.relations.isEmpty

end EagerLoad

/-- A query for the rows of one entity. -/
structure Query where
  entity : EntityId
  table : String
  /-- The columns to fetch; all of them without a projection. -/
  columns : Option (List ColumnRef)
  conditions : List Condition
  orderings : List OrderBy
  limit : Option Nat
  offset : Option Nat
  eager : Option EagerLoad
  /-- Whether conditions without a value are left out. -/
  skipsUndefined : Bool
deriving Inhabited

namespace Query

/-- The query for all rows of a table. -/
def new (entity : EntityId) (table : String) : Query :=
  { entity, table, columns := none, conditions := [], orderings := [], limit := none,
    offset := none, eager := none, skipsUndefined := false }

/-- What can be seen of the query. -/
def view (query : Query) : QueryView where
  entity := query.entity
  table := query.table
  columns := query.columns
  conditions := query.conditions
  orderings := query.orderings
  limit := query.limit
  offset := query.offset
  eager := query.eager.map fun load => (load.relations, Named.names load.modifiers)
  skipsUndefined := query.skipsUndefined

mutual

/-- The query after an edit. -/
def apply (query : Query) : Edit → Query
  | .filter condition => { query with conditions := query.conditions ++ [condition] }
  | .select columns => { query with columns := some columns }
  | .orderBy ordering => { query with orderings := query.orderings ++ [ordering] }
  | .limit count => { query with limit := some count }
  | .offset count => { query with offset := some count }
  | .skipUndefined skip => { query with skipsUndefined := skip }
  | .load relations modifiers => { query with eager := some ⟨relations, modifiers⟩ }
  | .all edits => applyAll query edits
  | .unlessSkipping edits => if query.skipsUndefined then query else applyAll query edits
  | .look choose => applyAll query (choose query.view)

/-- The query after edits in order. -/
def applyAll (query : Query) : List Edit → Query
  | [] => query
  | edit :: rest => applyAll (apply query edit) rest

end

end Query

end GraphFetch
