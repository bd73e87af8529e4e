/-
Values in the shape of a selection.

A normalized row holds whatever was fetched.  The answer holds what was selected:
one member for each response key, in the order in which the keys first occur.
Columns are looked up by name and relations by key, since that is where either is
found in the row.
-/
import GraphFetch.Plan.Arguments

namespace GraphFetch

namespace Shaped

mutual

/-- Shapes the rows of a value: itself, or those in lists however deep. -/
def shapeRows (shape : Row → Except PlanError Json) : Json → Except PlanError Json
  | .arr items => do
    let items ← shapeItems shape items
    return .arr items
  | .obj row => shape row
  | value => .ok value

/-- Shapes the rows of the values in a list. -/
def shapeItems (shape : Row → Except PlanError Json) : List Json → Except PlanError (List Json)
  | [] => .ok []
  | item :: rest => do
    let item ← shapeRows shape item
    let rest ← shapeItems shape rest
    return item :: rest

end

/-- Adds the answers of selected fields of a row. -/
def shapeFields (registry : Registry) (entity : Entity) (row : Row)
    (output : List (String × Json)) : Selected → Except PlanError (List (String × Json))
  | .none => .ok output
  | .missing fragment _ => .error (.unknownFragment fragment)
  | .field name asName _ children rest =>
    let key := responseKey name asName
    if name = "__typename" then
      shapeFields registry entity row (Named.put key (.str entity.name) output) rest
    else match entity.relation? name with
      | some relation =>
        let target := registry.entity relation.target
        match Named.find? key row with
        | some value => do
          let value ← shapeRows
            (fun related => (shapeFields registry target related [] (children ())).map .obj) value
          shapeFields registry entity row (Named.put key value output) rest
        | none => shapeFields registry entity row (Named.put key .null output) rest
      | none =>
        let value := (Named.find? name row).getD .null
        shapeFields registry entity row (Named.put key value output) rest

/-- A row of an entity in the shape of a selection. -/
def ofRow (registry : Registry) (entity : Entity) (selected : Unit → Selected) (row : Row) :
    Except PlanError Json :=
  (shapeFields registry entity row [] (selected ())).map .obj

/-- A normalized value of an entity in the shape of a selection. -/
def ofValue (registry : Registry) (entity : Entity) (selected : Unit → Selected) (value : Json) :
    Except PlanError Json :=
  shapeRows (ofRow registry entity selected) value

end Shaped

end GraphFetch
