/-
Rows as clients know them.

An executor answers with rows in the words of storage.  A normalized row has its
columns under the names that clients use and its virtual attributes filled in, and
so have the related rows that were attached to it, on every level of the load.
-/
import GraphFetch.Schema.Entity

namespace GraphFetch

namespace Normalized

/-- Moves a column from its name in storage to its name for clients. -/
def renameColumn (row : Row) (column : Column) : Row :=
  if column.storageName = column.name then row
  else match Named.find? column.storageName row with
    | some value => Named.putNew column.name value (Named.remove column.storageName row)
    | none => row

/-- The row with its columns under their names for clients. -/
def renameColumns (entity : Entity) (row : Row) : Row :=
  (entity.columns.map Prod.snd).foldl renameColumn row

/-- Fills in a virtual attribute that can be computed. -/
def computeVirtual (row : Row) (virtual : VirtualAttribute) : Row :=
  match virtual.compute with
  | some compute => Named.put virtual.name (compute row) row
  | none => row

/-- The row with its virtual attributes. -/
def computeVirtuals (entity : Entity) (row : Row) : Row :=
  (entity.virtuals.map Prod.snd).foldl computeVirtual row

/-- Changes a row, and leaves every other value as it is. -/
def changeRow (change : Row → Row) : Json → Json
  | .obj row => .obj (change row)
  | value => value

/-- Changes the row or rows that are attached to another. -/
def changeRows (change : Row → Row) : Json → Json
  | .obj row => .obj (change row)
  | .arr items => .arr (items.map (changeRow change))
  | value => value

mutual

/-- Normalizes what a relation attached to a row. -/
def normalizeNode (registry : Registry) (entity : Entity) (row : Row) : RelationNode → Row
  | ⟨name, asName, _, children⟩ =>
    let key := asName.getD name
    match entity.relation? name, Named.find? key row with
    | some relation, some value =>
      let target := registry.entity relation.target
      let change (related : Row) := computeVirtuals target
        (normalizeNodes registry target (renameColumns target related) children)
      Named.put key (changeRows change value) row
    | _, _ => row

/-- Normalizes what relations attached to a row. -/
def normalizeNodes (registry : Registry) (entity : Entity) (row : Row) :
    List RelationNode → Row
  | [] => row
  | node :: rest => normalizeNodes registry entity (normalizeNode registry entity row node) rest

end

/-- The normalized row, with what the relations attached to it. -/
def normalizeRow (registry : Registry) (entity : Entity) (relations : List RelationNode)
    (row : Row) : Row :=
  computeVirtuals entity (normalizeNodes registry entity (renameColumns entity row) relations)

/-- The value of a root field: the first row or null, or all rows. -/
def ofRows (registry : Registry) (entity : Entity) (relations : List RelationNode)
    (cardinality : Cardinality) (rows : List Row) : Json :=
  let rows := rows.map fun row => Json.obj (normalizeRow registry entity relations row)
  match cardinality with
  | .single => rows.head?.getD .null
  | .list => .arr rows

/-- Whether there is nothing in a value. -/
def isEmpty : Json → Bool
  | .null => true
  | .arr items => items.isEmpty
  | _ => false

end Normalized

end GraphFetch
