/-
Attaching relations to rows.

Each relation of an eager load takes one statement for all owners together: the
keys of the owners, or those that a pivot table links to them, are put into one
condition, and the rows that come back are then dealt out to their owners.  What a
relation attaches stands in the owner's row under the node's key, next to its
columns, and is there when later relations read the row.
-/
import GraphFetch.Database.Select

namespace GraphFetch

namespace Database

/-! ### Keys -/

/-- Values with distinct texts, the first of each kept. -/
def distinctTexts (seen : List String) : List Json → List Json
  | [] => []
  | value :: rest =>
    if seen.contains value.text then distinctTexts seen rest
    else value :: distinctTexts (value.text :: seen) rest

/-- The keys that rows have in a column: each once, and none for null. -/
def ownerKeys (column : String) (rows : List Row) : List Json :=
  let values := rows.filterMap fun row => Named.find? column row
  distinctTexts [] (values.filter fun value => !value.isNull)

/-- Adds a value at the end unless one there equals it. -/
def addDistinct (values : List Json) (value : Json) : List Json :=
  if values.any fun other => Comparison.equals other value then values else values ++ [value]

/-! ### Pivot tables -/

/-- A link of a pivot table: an owner's key and a related key. -/
structure Link where
  owner : Json
  related : Json

/-- The link of a pivot row that has both keys. -/
def link? (through : Through) (pivot : Row) : Option Link := do
  let owner ← Named.find? through.ownerColumn pivot
  let related ← Named.find? through.relatedColumn pivot
  return ⟨owner, related⟩

/-- The links of a pivot table to any of the owners' keys. -/
def linksOf (through : Through) (keys : List Json) (pivots : List Row) : List Link :=
  (pivots.filterMap (link? through)).filter fun link =>
    keys.any fun key => Comparison.equals key link.owner

/-- The related keys of links, each once. -/
def relatedKeys (links : List Link) : List Json :=
  (links.map (·.related)).foldl addDistinct []

/-- The statement that reads a pivot table. -/
def pivotStatement (through : Through) (keys : List Json) : String :=
  "select * from " ++ through.table ++ " where " ++ through.ownerColumn ++ " in "
    ++ (Const.ofJson (.arr keys)).text

/-- The links of a join to the owners' keys, if it goes over a pivot table. -/
def links (database : Database) (join : Join) (keys : List Json) : Run (Option (List Link)) :=
  match join.through with
  | none => .done none
  | some through => do
    Run.issue (pivotStatement through keys)
    return some (linksOf through keys (database.table through.table))

/-! ### Dealing out -/

/-- The keys of the rows that go with an owner's key.  A pivot table is looked up by the text of
the owner's key. -/
def partners (links : Option (List Link)) (owner : Json) : List Json :=
  match links with
  | none => [owner]
  | some links =>
    let text := owner.text
    (links.filter fun link => link.owner.text == text).map (·.related)

/-- The keys of the rows that go with an owner, none if it has no key itself. -/
def partnersOf (join : Join) (links : Option (List Link)) (owner : Row) : List Json :=
  match Named.find? join.ownerColumn owner with
  | some key => partners links key
  | none => []

/-- Whether a row has one of some keys in a column. -/
def hasKey (column : String) (keys : List Json) (row : Row) : Bool :=
  match Named.find? column row with
  | some key => keys.any fun wanted => Comparison.equals wanted key
  | none => false

/-- Puts the selected columns of a row under their output names. -/
def projectColumns (columns : List ColumnRef) (row : Row) : Row :=
  columns.foldl
    (fun projected column =>
      match Named.find? column.name row with
      | some value => Named.put column.outputName value projected
      | none => projected)
    []

/-- Adds to a row the relations that another one carries. -/
def keepRelations (nodes : List RelationNode) (row projected : Row) : Row :=
  nodes.foldl
    (fun projected node =>
      match Named.find? node.key row with
      | some value => Named.put node.key value projected
      | none => projected)
    projected

/-- The row that a query yields: its selected columns and the relations loaded into it. -/
def project (query : Query) (nodes : List RelationNode) (row : Row) : Row :=
  match query.columns with
  | none => row
  | some columns => keepRelations nodes row (projectColumns columns row)

/-- The value of a relation: its first row or null, or all its rows. -/
def relationValue (kind : RelationKind) (rows : List Row) : Json :=
  match kind with
  | .one => (rows.head?.map Json.obj).getD .null
  | .many => .arr (rows.map Json.obj)

/-- An owner with its related rows attached. -/
def attach (query : Query) (node : RelationNode) (relation : Relation)
    (links : Option (List Link)) (related : List Row) (owner : Row) : Row :=
  let wanted := partnersOf relation.join links owner
  let matching := related.filter (hasKey relation.join.relatedColumn wanted)
  let value := relationValue relation.kind (matching.map (project query node.children))
  Named.put node.key value owner

/-! ### Loading -/

/-- The query of a relation before its keys are known: its modifiers on the target's query. -/
def modifiedQuery (modifiers : ModifierTable) (query : Query) : List String → Except String Query
  | [] => .ok query
  | name :: rest =>
    match Named.find? name modifiers with
    | some edit => modifiedQuery modifiers (query.apply edit) rest
    | none => .error name

/-- The query of a relation for some related keys. -/
def keyedQuery (query : Query) (join : Join) (keys : List Json) : Query :=
  query.apply (.filter ⟨join.relatedColumn, .isIn, some (Const.ofJson (.arr keys))⟩)

mutual

/-- Rows of an entity with one relation attached. -/
def loadNode (database : Database) (modifiers : ModifierTable) (skipsUndefined : Bool)
    (entity : Entity) : RelationNode → List Row → Run (List Row)
  | ⟨name, asName, references, children⟩, rows =>
    match entity.relation? name with
    | none => .fail (.unknownRelation entity.name name)
    | some relation =>
      let target := database.registry.entity relation.target
      match modifiedQuery modifiers { target.query with skipsUndefined } references with
      | .error unknown => .fail (.unknownModifier unknown)
      | .ok query => do
        let keys := ownerKeys relation.join.ownerColumn rows
        let links ← database.links relation.join keys
        let wanted := (links.map relatedKeys).getD keys
        let query := keyedQuery query relation.join wanted
        let found ← database.select query
        let related ← loadNodes database modifiers skipsUndefined target children found
        let node : RelationNode := ⟨name, asName, references, children⟩
        return rows.map (attach query node relation links related)

/-- Rows of an entity with relations attached in order. -/
def loadNodes (database : Database) (modifiers : ModifierTable) (skipsUndefined : Bool)
    (entity : Entity) : List RelationNode → List Row → Run (List Row)
  | [], rows => .done rows
  | node :: rest, rows => do
    let rows ← loadNode database modifiers skipsUndefined entity node rows
    loadNodes database modifiers skipsUndefined entity rest rows

end

/-- The rows of a query with its eager load, read back from its expression. -/
def execute (database : Database) : Executor := fun query => do
  let rows ← database.select query
  match query.eager with
  | none => return rows.map (project query [])
  | some load =>
    match Expression.parse load.expression with
    | .error error => .fail (.expression error)
    | .ok nodes => do
      let entity := database.registry.entity query.entity
      let rows ← loadNodes database load.modifiers query.skipsUndefined entity nodes rows
      return rows.map (project query nodes)

end Database

end GraphFetch
