/-
Entities and the registry that holds them.

An entity describes one table: which columns clients see under which names, which
relations lead where, which attributes are computed from columns, and which
arguments filter it.  A relation refers to its target by the target's place in the
registry.
-/
import GraphFetch.Json.Basic
import GraphFetch.Document.Basic
import GraphFetch.Document.Variables
import GraphFetch.Query.Edit
import GraphFetch.Expression.Parser
import GraphFetch.Schema.Context
import GraphFetch.Text.Escape

namespace GraphFetch

/-! ### Columns and relations -/

/-- A column; a computed one is no part of the table and is never qualified or renamed. -/
structure Column where
  name : String
  storageName : String
  computed : Bool
deriving DecidableEq, Inhabited

/-- The pivot table of a relation and its columns for both sides. -/
structure Through where
  table : String
  ownerColumn : String
  relatedColumn : String
deriving DecidableEq, Inhabited

/-- The storage columns that join an owner to its related rows, directly or over a pivot table. -/
structure Join where
  ownerColumn : String
  relatedColumn : String
  through : Option Through
deriving DecidableEq, Inhabited

/-- Whether a relation yields one row or a list of them. -/
inductive RelationKind
  | one
  | many
deriving DecidableEq, Inhabited

structure Relation where
  name : String
  kind : RelationKind
  target : EntityId
  join : Join
deriving DecidableEq, Inhabited

/-! ### Computed attributes, arguments and fetches -/

/-- An attribute computed from a row; selecting it fetches the columns it depends on. -/
structure VirtualAttribute where
  name : String
  dependencies : List String
  compute : Option (Row → Json)
deriving Inhabited

/-- What an argument with a value, or without one, does to a query. -/
abbrev ArgumentFilter := Option Const → List Edit

/-- Why an executor or a fetch failed. -/
inductive ExecutorError
  | undefinedBinding (column : String)
  | unknownModifier (name : String)
  | unknownRelation (entity relation : String)
  | expression (error : ExpressionError)
  | datasource (text : String)
deriving DecidableEq, Inhabited

def ExecutorError.message : ExecutorError → String
  | undefinedBinding column => "no value bound for a condition on column `" ++ column ++ "`"
  | unknownModifier name =>
    "the eager expression references the unknown modifier `" ++ name ++ "`"
  | unknownRelation entity relation =>
    "entity `" ++ entity ++ "` has no relation `" ++ relation ++ "`"
  | expression error => error.message
  | datasource text => "data source error: " ++ text

/-- What a fetch that replaces the generic one gets to see. -/
structure FetchRequest where
  field : WrittenField
  bindings : Variables
  /-- The request as it came in. -/
  payload : Json
  context : RequestContext

/-- Answers the root fields of an entity in place of a query. -/
abbrev CustomFetch := FetchRequest → Except ExecutorError Json

/-- Whether a root field answers with one row or with a list. -/
inductive Cardinality
  | single
  | list
deriving DecidableEq, Inhabited

/-- A short description of an attribute. -/
def VirtualAttribute.describe (virtual : VirtualAttribute) : String :=
  "VirtualAttribute \x7b name: " ++ Text.quoted virtual.name ++ ", dependencies: "
    ++ Text.quotedList virtual.dependencies ++ ", .. \x7d"

/-! ### Entities -/

structure Entity where
  id : EntityId
  name : String
  table : String
  columns : List (String × Column)
  relations : List (String × Relation)
  virtuals : List (String × VirtualAttribute)
  filters : List (String × ArgumentFilter)
  customSingle : Option CustomFetch
  customList : Option CustomFetch
deriving Inhabited

namespace Entity

def column? (entity : Entity) (name : String) : Option Column := Named.find? name entity.columns

def relation? (entity : Entity) (name : String) : Option Relation :=
  Named.find? name entity.relations

def virtual? (entity : Entity) (name : String) : Option VirtualAttribute :=
  Named.find? name entity.virtuals

def filter? (entity : Entity) (argument : String) : Option ArgumentFilter :=
  Named.find? argument entity.filters

/-- The fetch that answers root fields of a cardinality in place of a query. -/
def customFetch? (entity : Entity) : Cardinality → Option CustomFetch
  | .single => entity.customSingle
  | .list => entity.customList

/-- A short description of an entity. -/
def describe (entity : Entity) : String :=
  "Entity \x7b name: " ++ Text.quoted entity.name ++ ", table: " ++ Text.quoted entity.table
    ++ ", columns: " ++ Text.quotedList (Named.names entity.columns)
    ++ ", relations: " ++ Text.quotedList (Named.names entity.relations) ++ ", .. \x7d"

/-- The query for all rows of the entity. -/
def query (entity : Entity) : Query := Query.new entity.id entity.table

end Entity

/-! ### The registry -/

/-- The entities in order of registration. -/
structure Registry where
  entities : List Entity
deriving Inhabited

namespace Registry

/-- The entity at a place; a built registry holds one at every place its relations lead to. -/
def entity (registry : Registry) (id : EntityId) : Entity := registry.entities.getD id default

/-- The entity of a name. -/
def find? (registry : Registry) (name : String) : Option Entity :=
  registry.entities.find? fun entity => entity.name == name

end Registry

end GraphFetch
