/-
Entities as a metadata source describes them.

A description is plain data: names, columns, relations with the class they have in
the source, attributes without the way to compute them.  It is read from JSON,
where fields it does not know are refused, and starts the registration of an
entity.  The class of a relation decides whether it yields one row or many.
-/
import GraphFetch.Decoding.Json
import GraphFetch.Schema.Builder

namespace GraphFetch

structure ColumnMetadata where
  name : String := ""
  storageName : Option String := none
  computed : Bool := false
deriving Inhabited

structure ThroughMetadata where
  table : String := ""
  ownerColumn : String := ""
  relatedColumn : String := ""
deriving Inhabited

structure JoinMetadata where
  ownerColumn : String := ""
  relatedColumn : String := ""
  through : Option ThroughMetadata := none
deriving Inhabited

/-- The join that a description gives. -/
def JoinMetadata.toJoin (join : JoinMetadata) : Join where
  ownerColumn := join.ownerColumn
  relatedColumn := join.relatedColumn
  through := join.through.map fun through =>
    ⟨through.table, through.ownerColumn, through.relatedColumn⟩

structure RelationMetadata where
  name : String := ""
  kind : String := ""
  relatedEntity : String := ""
  join : JoinMetadata := {}
deriving Inhabited

structure VirtualMetadata where
  name : String := ""
  dependencies : List String := []
deriving Inhabited

structure EntityMetadata where
  name : String := ""
  tableName : String := ""
  columns : List ColumnMetadata := []
  relations : List RelationMetadata := []
  virtuals : List VirtualMetadata := []
deriving Inhabited

/-! ### Reading -/

namespace Metadata

def string : Json → Except DecodeError String := Format.json.string

def columnType : RecordType Json ColumnMetadata where
  name := "ColumnMetadata"
  closed := true
  fields := [
    .required "name" string fun name column => { column with name },
    .optional "storageName" (Format.json.nullable string) fun storageName column =>
      { column with storageName },
    .optional "computed" Format.json.boolean fun computed column => { column with computed }]

def throughType : RecordType Json ThroughMetadata where
  name := "ThroughMetadata"
  closed := true
  fields := [
    .required "table" string fun table through => { through with table },
    .required "from" string fun ownerColumn through => { through with ownerColumn },
    .required "to" string fun relatedColumn through => { through with relatedColumn }]

def joinType : RecordType Json JoinMetadata where
  name := "JoinMetadata"
  closed := true
  fields := [
    .required "from" string fun ownerColumn join => { join with ownerColumn },
    .required "to" string fun relatedColumn join => { join with relatedColumn },
    .optional "through" (Format.json.nullable (throughType.decode .json {})) fun through join =>
      { join with through }]

def relationType : RecordType Json RelationMetadata where
  name := "RelationMetadata"
  closed := true
  fields := [
    .required "name" string fun name relation => { relation with name },
    .required "kind" string fun kind relation => { relation with kind },
    .required "relatedEntity" string fun relatedEntity relation =>
      { relation with relatedEntity },
    .required "join" (joinType.decode .json {}) fun join relation => { relation with join }]

def virtualType : RecordType Json VirtualMetadata where
  name := "VirtualMetadata"
  closed := true
  fields := [
    .required "name" string fun name virtual => { virtual with name },
    .optional "dependencies" (Format.json.sequence string) fun dependencies virtual =>
      { virtual with dependencies }]

def entityType : RecordType Json EntityMetadata where
  name := "EntityMetadata"
  closed := true
  fields := [
    .required "name" string fun name entity => { entity with name },
    .required "tableName" string fun tableName entity => { entity with tableName },
    .optional "columns" (Format.json.sequence (columnType.decode .json {})) fun columns entity =>
      { entity with columns },
    .optional "relations" (Format.json.sequence (relationType.decode .json {}))
      fun relations entity => { entity with relations },
    .optional "virtualAttributes" (Format.json.sequence (virtualType.decode .json {}))
      fun virtuals entity => { entity with virtuals }]

end Metadata

namespace EntityMetadata

/-- The description that a JSON value holds. -/
def ofJson (value : Json) : Except DecodeError EntityMetadata :=
  Metadata.entityType.decode .json {} value

/-! ### Registration -/

/-- The kind of a relation's class. -/
def kindOfClass? : String → Option RelationKind
  | "BelongsToOneRelation" => some .one
  | "HasOneRelation" => some .one
  | "HasOneThroughRelation" => some .one
  | "HasManyRelation" => some .many
  | "ManyToManyRelation" => some .many
  | _ => none

/-- Adds a column; a computed one has no storage name of its own. -/
def addColumn (registration : Registration) (column : ColumnMetadata) : Registration :=
  if column.computed then registration.computedColumn column.name
  else registration.columnAs column.name (column.storageName.getD column.name)

/-- Adds a relation of a known class. -/
def addRelation (registration : Registration) (relation : RelationMetadata) :
    Except RegistryError Registration :=
  match kindOfClass? relation.kind with
  | some kind =>
    .ok (registration.relation relation.name kind relation.relatedEntity
      relation.join.toJoin)
  | none => .error (.unsupportedKind registration.name relation.name relation.kind)

/-- The registration that a description starts. -/
def toRegistration (entity : EntityMetadata) : Except RegistryError Registration := do
  let start : Registration := { name := entity.name, table := entity.tableName }
  let withColumns := entity.columns.foldl addColumn start
  let withRelations ← entity.relations.foldlM addRelation withColumns
  return entity.virtuals.foldl
    (fun registration virtual =>
      registration.virtual ⟨virtual.name, virtual.dependencies, none⟩)
    withRelations

end EntityMetadata

end GraphFetch
