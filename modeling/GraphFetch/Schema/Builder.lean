/-
Registration of entities.

Entities are registered one by one, with relations that name their targets.  Once
all are known the registry is built: names have to be distinct, and every target
has to be registered.  A repeated column, relation, attribute or filter of one
entity keeps its first place and its last meaning.
-/
import GraphFetch.Schema.Filters

namespace GraphFetch

/-- Why a registry cannot be built. -/
inductive RegistryError
  | unsupportedKind (entity relation kind : String)
  | missingTarget (entity relation target : String)
  | duplicateEntity (name : String)
  | unknownRootEntity (field entity : String)
deriving DecidableEq, Inhabited

def RegistryError.message : RegistryError → String
  | unsupportedKind entity relation kind =>
    "relation `" ++ relation ++ "` of entity `" ++ entity ++ "` has an unsupported kind `"
      ++ kind ++ "`"
  | missingTarget entity relation target =>
    "relation `" ++ relation ++ "` of entity `" ++ entity
      ++ "` refers to the unregistered entity `" ++ target ++ "`"
  | duplicateEntity name => "entity `" ++ name ++ "` is registered more than once"
  | unknownRootEntity field entity =>
    "root field `" ++ field ++ "` is bound to the unregistered entity `" ++ entity ++ "`"

/-- A relation whose target is still a name. -/
structure PendingRelation where
  name : String
  kind : RelationKind
  target : String
  join : Join
deriving DecidableEq, Inhabited

/-- The registration of one entity. -/
structure Registration where
  name : String
  table : String
  columns : List Column := []
  relations : List PendingRelation := []
  virtuals : List VirtualAttribute := []
  filters : List (String × ArgumentFilter) := []
  defaultFilters : Bool := true
  customSingle : Option CustomFetch := none
  customList : Option CustomFetch := none
deriving Inhabited

namespace Registration

/-! ### Steps -/

/-- Adds a column that clients see under another name than storage. -/
def columnAs (entity : Registration) (name storageName : String) : Registration :=
  { entity with columns := entity.columns ++ [⟨name, storageName, false⟩] }

def column (entity : Registration) (name : String) : Registration := entity.columnAs name name

/-- Adds a column that is no part of the table. -/
def computedColumn (entity : Registration) (name : String) : Registration :=
  { entity with columns := entity.columns ++ [⟨name, name, true⟩] }

def relation (entity : Registration) (name : String) (kind : RelationKind) (target : String)
    (join : Join) : Registration :=
  { entity with relations := entity.relations ++ [⟨name, kind, target, join⟩] }

def virtual (entity : Registration) (virtual : VirtualAttribute) : Registration :=
  { entity with virtuals := entity.virtuals ++ [virtual] }

/-- Adds a filter, which replaces a built-in one of the same name. -/
def filter (entity : Registration) (argument : String) (filter : ArgumentFilter) : Registration :=
  { entity with filters := entity.filters ++ [(argument, filter)] }

def withoutDefaultFilters (entity : Registration) : Registration :=
  { entity with defaultFilters := false }

/-! ### Building -/

/-- A relation with the place of its target. -/
def resolveRelation (names : List String) (entity : String) (relation : PendingRelation) :
    Except RegistryError (String × Relation) :=
  match names.idxOf? relation.target with
  | some target => .ok (relation.name, ⟨relation.name, relation.kind, target, relation.join⟩)
  | none => .error (.missingTarget entity relation.name relation.target)

/-- The filters of the entity: the built-in ones, then its own on top. -/
def allFilters (entity : Registration) : List (String × ArgumentFilter) :=
  let defaults :=
    if entity.defaultFilters then ArgumentFilter.defaults entity.columns else []
  Named.ofList (defaults ++ entity.filters)

/-- The entity at a place among names. -/
def build (names : List String) (id : EntityId) (entity : Registration) :
    Except RegistryError Entity := do
  let relations ← entity.relations.mapM (resolveRelation names entity.name)
  return {
    id
    name := entity.name
    table := entity.table
    columns := Named.ofList (entity.columns.map fun column => (column.name, column))
    relations := Named.ofList relations
    virtuals := Named.ofList (entity.virtuals.map fun virtual => (virtual.name, virtual))
    filters := entity.allFilters
    customSingle := entity.customSingle
    customList := entity.customList }

end Registration

namespace Registry

/-- The first name that an earlier one equals. -/
def repeated? (seen : List String) : List String → Option String
  | [] => none
  | name :: rest => if seen.contains name then some name else repeated? (name :: seen) rest

/-- The entities from a place on. -/
def buildFrom (names : List String) (id : EntityId) :
    List Registration → Except RegistryError (List Entity)
  | [] => .ok []
  | registration :: rest => do
    let entity ← registration.build names id
    let entities ← buildFrom names (id + 1) rest
    return entity :: entities

/-- The registry of registrations with distinct names and known targets. -/
def build (registrations : List Registration) : Except RegistryError Registry :=
  let names := registrations.map (·.name)
  match repeated? [] names with
  | some name => .error (.duplicateEntity name)
  | none => (buildFrom names 0 registrations).map Registry.mk

end Registry

end GraphFetch
