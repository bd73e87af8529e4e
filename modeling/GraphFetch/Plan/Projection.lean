/-
Which columns a selection needs.

Relations are attached by the eager load and introspection fields are no data, so
neither needs a column.  A virtual attribute needs the columns it depends on, any
other field the column of its name, registered or not.
-/
import GraphFetch.Plan.Arguments

namespace GraphFetch

namespace Plan

/-! ### Columns -/

/-- Adds a column at the end unless it is there. -/
def addColumn (columns : List String) (name : String) : List String :=
  if columns.contains name then columns else columns ++ [name]

/-- Whether a field is about the schema. -/
def isIntrospection (name : String) : Bool := ['_', '_'].isPrefixOf name.toList

/-- The columns that one field needs. -/
def fieldColumns (entity : Entity) (name : String) : List String :=
  if (entity.relation? name).isSome || isIntrospection name then []
  else match entity.virtual? name with
    | some virtual => virtual.dependencies
    | none => [name]

/-- The columns that selected fields need, each once and in selection order. -/
def collectColumns (entity : Entity) (columns : List String) :
    Selected → Except PlanError (List String)
  | .none => .ok columns
  | .missing fragment _ => .error (.unknownFragment fragment)
  | .field name _ _ _ rest =>
    collectColumns entity ((fieldColumns entity name).foldl addColumn columns) rest

/-! ### Projections -/

/-- A column as a query refers to it: stored ones by their storage name, others as they are. -/
def columnRef (entity : Entity) (qualify : Bool) (name : String) : ColumnRef :=
  match entity.column? name with
  | some column =>
    if column.computed then .plain name
    else {
      table := if qualify then some entity.table else none
      name := column.storageName
      asName := if column.storageName = column.name then none else some column.name }
  | none => .plain name

/-- The modifier that selects the needed columns, none if nothing but relations is selected or
every column is fetched anyway. -/
def projectionModifier (context : PlanContext) (entity : Entity) (selected : Selected) :
    Except PlanError (Option Edit) :=
  if context.settings.selectOptimization then do
    let columns ← collectColumns entity [] selected
    if columns.isEmpty then return none
    else return some (.select (columns.map (columnRef entity context.settings.qualifyColumns)))
  else .ok none

end Plan

end GraphFetch
