/-
What selected fields are answered from the rows of tables.

`Reading.Tells` says it without any of the steps that the engine takes: a plain field tells
something of the stored row, and a relation the rows of its target that go with it.  The
engine compiles the selection, runs its text, attaches rows to rows, projects them, renames
their columns and shapes what it gets.  Here the two are shown to agree, level by level:
what a load attaches to the rows of a set is, once normalized and shaped, what is told of
them, whatever the projections left out.

What exactly a plain field may tell is left open, as a `Telling`: some statements are
about all fields and ask for attributes that can be computed, others about columns only.
-/
import GraphFetch.Engine.Shaped
import GraphFetch.Proofs.Database.Batching
import GraphFetch.Proofs.Plan.Filters
import GraphFetch.Proofs.Plan.Selections

namespace GraphFetch

/-! ### Rows that a query selects -/

namespace Database

theorem mem_table_of_select {database : Database} {query : Query} {rows : List Row}
    (h : (database.select query).result = .ok rows) {row : Row} (hrow : row ∈ rows) :
    row ∈ database.table query.table := by
  obtain ⟨bound, -, rfl⟩ := select_ok.mp h
  unfold selected window at hrow
  dsimp only at hrow
  have hsorted : row ∈ sortByAll query.orderings
      ((database.table query.table).filter fun row => bound.all (satisfies row)) := by
    split at hrow
    · exact List.mem_of_mem_drop (List.mem_of_mem_take hrow)
    · exact List.mem_of_mem_drop hrow
  exact (List.mem_filter.mp (mem_sortByAll hsorted)).1

/-- Tables of a built registry with clear names, whose filters set no projection and in whose rows
members are told apart by name. -/
structure Clear (database : Database) : Prop where
  built : database.registry.Built
  clear : ∀ entity ∈ database.registry.entities, entity.Clear
  filters : ∀ entity ∈ database.registry.entities, entity.FiltersKeep Query.columns
  rows : ∀ entity ∈ database.registry.entities, ∀ row ∈ database.table entity.table,
    Named.Distinct row

end Database

/-! ### Reading -/

/-- Tables, and what a request reads them with. -/
structure Reading where
  database : Database
  bindings : Variables
  settings : QuerySettings
  skipsUndefined : Bool

open Database (ownerKeys partnersOf hasKey keyedQuery relationValue Covers project)
open Plan (relationNode relationNode_key Mirrors isIntrospection)
open Normalized (changeRows normalizeRow computeVirtuals renameColumns readNames)

/-- The name of the type where that is asked for, and else a value. -/
def typed (entity : Entity) (name : String) (value : Json) : Json :=
  if name = "__typename" then .str entity.name else value

namespace Reading

variable (reading : Reading)

/-- What selections are compiled with. -/
def context : PlanContext := ⟨reading.database.registry, reading.bindings, reading.settings⟩

/-- Whether no columns are fetched but those that are read. -/
def selects : Bool := reading.settings.selectOptimization

/-- What a field without a relation has to read if it is the only one. -/
def seen (entity : Entity) (name : String) (stored : Row) : Row :=
  if reading.selects then
    let columns := (readNames entity name).map (Plan.columnRef entity false)
    project { entity.query with columns := some columns } [] stored
  else stored

/-- What a field without a relation tells of a stored row. -/
def plainValue (entity : Entity) (name : String) (stored : Row) : Json :=
  let client := computeVirtuals entity (renameColumns entity (reading.seen entity name stored))
  (Named.find? name client).getD .null

/-- The query of a relation before its keys are known, with the columns of its selection. -/
def relationQuery (relation : Relation) (projection filters : Option Edit) : Query :=
  let target := reading.database.registry.entity relation.target
  { target.query with skipsUndefined := reading.skipsUndefined }.applyAll
    (projection.toList ++ filters.toList)

/-- The rows that go with owners over a relation, if its arguments and its query allow for any. -/
def related (relation : Relation) (arguments : List (String × Literal)) (children : Selected)
    (owners : List Row) : Option (List Row) := do
  let target := reading.database.registry.entity relation.target
  let projection ← (Plan.projectionModifier reading.context target children).toOption
  let filters ← (Plan.argumentModifier reading.context target arguments).toOption
  let keys := reading.database.wantedKeys relation.join (ownerKeys relation.join.ownerColumn owners)
  (reading.database.select
    (keyedQuery (reading.relationQuery relation projection filters) relation.join
      keys)).result.toOption

/-- Those among the related rows that go with one of the owners. -/
def partners (relation : Relation) (owners found : List Row) (owner : Row) : List Row :=
  let links := reading.database.linked relation.join (ownerKeys relation.join.ownerColumn owners)
  found.filter (hasKey relation.join.relatedColumn (partnersOf relation.join links owner))

/-- What selected fields tell of each of some rows of an entity, in the order of the fields: a plain
field something that it may tell of the row, and a relation the rows that go with it. -/
inductive Tells (tells : Entity → Row → String → Json → Prop) :
    Entity → List Row → Selected → (Row → List (String × Json)) → Prop
  | none {entity : Entity} {rows : List Row} : Tells tells entity rows .none fun _ => []
  | plain {entity : Entity} {rows : List Row} {name : String} {asName : Option String}
      {arguments : List (String × Literal)} {children : Unit → Selected} {rest : Selected}
      {value : Row → Json} {members : Row → List (String × Json)}
      (hname : entity.relation? name = .none)
      (hvalue : name ≠ "__typename" → ∀ row ∈ rows, tells entity row name (value row))
      (hrest : Tells tells entity rows rest members) :
      Tells tells entity rows (.field name asName arguments children rest) fun row =>
        (responseKey name asName, typed entity name (value row)) :: members row
  | relation {entity : Entity} {rows found : List Row} {name : String} {asName : Option String}
      {arguments : List (String × Literal)} {children : Unit → Selected} {rest : Selected}
      {below members : Row → List (String × Json)} {relation : Relation}
      (hname : entity.relation? name = some relation)
      (hfound : reading.related relation arguments (children ()) rows = some found)
      (hbelow : Tells tells (reading.database.registry.entity relation.target) found (children ())
        below)
      (hrest : Tells tells entity rows rest members) :
      Tells tells entity rows (.field name asName arguments children rest) fun row =>
        (responseKey name asName, typed entity name (relationValue relation.kind
          ((reading.partners relation rows found row).map fun partner =>
            Named.ofList (below partner)))) :: members row

/-- Whether every relation of a selection can be fetched for some rows, on every level. -/
def Loads : Entity → List Row → Selected → Prop
  | _, _, .none => True
  | _, _, .missing _ _ => False
  | entity, rows, .field name _ arguments children rest =>
    (∀ relation, entity.relation? name = some relation →
      ∃ found, reading.related relation arguments (children ()) rows = some found
        ∧ Loads (reading.database.registry.entity relation.target) found (children ()))
      ∧ Loads entity rows rest

variable {reading} in
/-- What is told of rows was fetched for them. -/
theorem Tells.loads {tells : Entity → Row → String → Json → Prop} {entity : Entity}
    {rows : List Row} {selected : Selected} {members : Row → List (String × Json)}
    (h : reading.Tells tells entity rows selected members) :
    reading.Loads entity rows selected := by
  induction h with
  | none => trivial
  | plain hname _ _ ih =>
      refine ⟨?_, ih⟩
      intro relation hrelation
      rw [hname] at hrelation
      exact absurd hrelation (by simp)
  | relation hname hfound _ _ ihBelow ihRest =>
      refine ⟨?_, ihRest⟩
      intro other hother
      obtain rfl := Option.some.inj (hname.symm.trans hother)
      exact ⟨_, hfound, ihBelow⟩

variable {reading} in
/-- No fragment is missing where something is told. -/
theorem Tells.whole {tells : Entity → Row → String → Json → Prop} {entity : Entity}
    {rows : List Row} {selected : Selected} {members : Row → List (String × Json)}
    (h : reading.Tells tells entity rows selected members) : selected.Whole := by
  induction h with
  | none => trivial
  | plain _ _ _ ih => exact ih
  | relation _ _ _ _ _ ih => exact ih

/-- Whether a row that was fetched shows what is stored: what the fields read from columns is there
as for each of them alone. -/
def Shows (entity : Entity) (selected : Selected) (stored fetched : Row) : Prop :=
  ∀ name ∈ selected.plainNames entity, isIntrospection name = false →
    ∀ read ∈ readNames entity name, read ∉ selected.relationKeys entity →
      Named.find? read (renameColumns entity fetched)
        = Named.find? read (renameColumns entity (reading.seen entity name stored))

/-- What plain fields are expected to tell of stored rows, and of which selection sets; it has to be
told by every row that shows a stored one. -/
structure Telling where
  tells : Entity → Row → String → Json → Prop
  admits : Entity → Option String → Selected → Prop
  apart : ∀ {entity : Entity} {foundBy : Option String} {selected : Selected},
    admits entity foundBy selected → selected.Apart entity foundBy
  shown : ∀ {entity : Entity} {foundBy : Option String} {selected : Selected} {stored fetched : Row}
    {nodes : List RelationNode}, entity ∈ reading.database.registry.entities →
    admits entity foundBy selected → stored ∈ reading.database.table entity.table →
    nodes.map RelationNode.key = selected.relationKeys entity →
    reading.Shows entity selected stored fetched → ∀ name ∈ selected.plainNames entity,
      tells entity stored name ((Named.find? name
        (normalizeRow reading.database.registry entity nodes fetched)).getD .null)

end Reading

/-! ### Values of relations -/

namespace Shaped

variable {shape : Row → Except PlanError Json} {source value : Row → Row} {rows : List Row}

theorem shapeItems_map (h : ∀ row ∈ rows, shape (source row) = .ok (.obj (value row))) :
    shapeItems shape ((rows.map source).map Json.obj) = .ok ((rows.map value).map Json.obj) := by
  induction rows with
  | nil => rfl
  | cons row rest ih =>
      rw [List.map_cons, List.map_cons, shapeItems, shapeRows, h row List.mem_cons_self,
        ih fun other hother => h other (List.mem_cons_of_mem _ hother)]
      rfl

/-- The shape of a relation's value is the value of the shaped rows. -/
theorem shapeRows_relationValue (kind : RelationKind)
    (h : ∀ row ∈ rows, shape (source row) = .ok (.obj (value row))) :
    shapeRows shape (relationValue kind (rows.map source))
      = .ok (relationValue kind (rows.map value)) := by
  cases kind with
  | one =>
      cases rows with
      | nil => rfl
      | cons row rest => exact h row List.mem_cons_self
  | many =>
      show shapeRows shape (.arr _) = _
      rw [shapeRows, shapeItems_map h]
      rfl

end Shaped

namespace Normalized

theorem changeRows_relationValue (change : Row → Row) (kind : RelationKind) (rows : List Row) :
    changeRows change (relationValue kind rows) = relationValue kind (rows.map change) := by
  cases kind with
  | one => cases rows <;> rfl
  | many =>
      show Json.arr ((rows.map Json.obj).map (changeRow change))
        = .arr ((rows.map change).map Json.obj)
      rw [List.map_map, List.map_map]
      rfl

end Normalized

/-! ### Attached rows, shaped -/

/-- A loaded row in which every relation of a selection stands under its key, such that the row is
shaped into some members if its plain fields have some values. -/
inductive Attached (registry : Registry) (entity : Entity) (value : String → Json) (loaded : Row) :
    Selected → List RelationNode → List (String × Json) → Prop
  | none : Attached registry entity value loaded .none [] []
  | plain {name : String} {asName : Option String} {arguments : List (String × Literal)}
      {children : Unit → Selected} {rest : Selected} {nodes : List RelationNode}
      {members : List (String × Json)} (hname : entity.relation? name = .none)
      (hrest : Attached registry entity value loaded rest nodes members) :
      Attached registry entity value loaded (.field name asName arguments children rest) nodes
        ((responseKey name asName, typed entity name (value name)) :: members)
  | relation {name : String} {asName : Option String} {arguments : List (String × Literal)}
      {children : Unit → Selected} {rest : Selected} {nodes below : List RelationNode}
      {members : List (String × Json)} {relation : Relation} {references : List String}
      {attached shaped : Json}
      (hname : entity.relation? name = some relation)
      (hattached : Named.find? (responseKey name asName) loaded = some attached)
      (hshaped : Shaped.shapeRows
        (fun related => (Shaped.shapeFields registry (registry.entity relation.target) related []
          (children ())).map .obj)
        (changeRows (normalizeRow registry (registry.entity relation.target) below) attached)
          = .ok shaped)
      (hrest : Attached registry entity value loaded rest nodes members) :
      Attached registry entity value loaded (.field name asName arguments children rest)
        (relationNode relation (responseKey name asName) references below :: nodes)
        ((responseKey name asName, typed entity name shaped) :: members)

variable {registry : Registry} {entity : Entity} {loaded : Row} {selected : Selected}
  {nodes : List RelationNode}

/-- **A row in which the relations stand is shaped into the members**: it has the values under their
names, and the normalized rows of relations under their keys. -/
theorem Attached.shapeFields (hown : entity.OwnNames) {value : String → Json}
    {members : List (String × Json)}
    (h : Attached registry entity value loaded selected nodes members) {row : Row}
    (hplain : ∀ name ∈ selected.plainNames entity, (Named.find? name row).getD .null = value name)
    (hnodes : ∀ node ∈ nodes, ∀ relation attached, entity.relation? node.name = some relation →
      Named.find? node.key loaded = some attached → Named.find? node.key row
        = some (changeRows (normalizeRow registry (registry.entity relation.target) node.children)
            attached)) (output : List (String × Json)) :
    Shaped.shapeFields registry entity row output selected
      = .ok (members.foldl (fun map (name, value) => Named.put name value map) output) := by
  induction h generalizing output with
  | none => rfl
  | @plain name asName arguments children rest nodes members hname _ ih =>
      rw [Shaped.shapeFields, List.foldl_cons]
      unfold Selected.plainNames at hplain
      by_cases htype : name = "__typename"
      · rw [if_pos (by simp [htype])] at hplain
        rw [if_pos htype, ih hplain hnodes, typed, if_pos htype]
      · rw [if_neg (by simp [hname, htype])] at hplain
        rw [if_neg htype, hname]
        dsimp only
        rw [ih (fun other h => hplain other (List.mem_cons_of_mem _ h)) hnodes, typed,
          if_neg htype, hplain name List.mem_cons_self]
  | @relation name asName arguments children rest nodes below members relation references attached
      shaped hname hattached hshaped _ ih =>
      have hrelation : relation.name = name := hown.relation_name name relation
        (Named.mem_of_find? hname)
      have hkey := hnodes _ List.mem_cons_self relation attached
        (show entity.relation? relation.name = _ by rw [hrelation, hname])
        (by rw [relationNode_key]; exact hattached)
      rw [relationNode_key] at hkey
      unfold Selected.plainNames at hplain
      rw [if_pos (by simp [hname])] at hplain
      have hlater := ih hplain fun node hnode => hnodes node (List.mem_cons_of_mem _ hnode)
      rw [Shaped.shapeFields, List.foldl_cons]
      by_cases htype : name = "__typename"
      · rw [if_pos htype, hlater, typed, if_pos htype]
      · rw [if_neg htype, hname]
        dsimp only
        rw [hkey]
        dsimp only
        rw [show (relationNode relation (responseKey name asName) references below).children = below
          from rfl, hshaped, typed, if_neg htype]
        exact hlater _

section Level

variable {foundBy : Option String} {query : Query} (hown : entity.OwnNames)
  (hapart : selected.Apart entity foundBy) (hloaded : Named.Distinct loaded)
  (hkeys : nodes.map RelationNode.key = selected.relationKeys entity)

include hown hapart hloaded hkeys

/-- **A row with relations shows the stored one**, whatever was attached and left out since. -/
theorem Reading.shows {reading : Reading} (hclear : entity.Clear) {stored : Row}
    (hstored : Named.Distinct stored)
    (hsame : ∀ name ∉ selected.relationKeys entity,
      Named.find? name loaded = Named.find? name stored)
    (hcovers : Covers entity (selected.reads entity) query reading.selects) :
    reading.Shows entity selected stored (project query nodes loaded) := by
  intro name hname hintrospection read hread hfree
  have hreads : read ∈ selected.reads entity :=
    List.mem_flatMap.mpr ⟨name, List.mem_filter.mpr ⟨hname, by simp [hintrospection]⟩, hread⟩
  unfold Reading.seen
  generalize reading.selects = selects at hcovers
  cases hcovers with
  | all hcolumns =>
      rw [Database.project_whole hcolumns]
      exact Normalized.find?_renameColumns_congr hown hapart.not_column hapart.not_stored hloaded
        hstored hsame hfree
  | nothing _ hnone => exact absurd hreads (by simp [hnone])
  | columns hcolumns hsub =>
      rw [if_pos rfl, Database.find?_renameColumns_project_apart hown hclear hcolumns hloaded
          (hsub hreads) (hkeys ▸ hfree),
        Database.find?_renameColumns_project_apart hown hclear rfl hstored hread (by simp)]
      unfold Database.storedValue
      cases hcolumn : entity.column? read with
      | none =>
          dsimp only
          rw [hsame read hfree]
      | some column =>
          refine hsame _ fun hkey => hapart.not_stored _ hkey ?_
          exact List.mem_map_of_mem (Named.mem_of_find? hcolumn)

/-- **A relation is answered from what was attached**, normalized as rows of its target. -/
theorem find?_normalized_relation (hnodup : (selected.relationKeys entity).Nodup)
    {node : RelationNode} (hnode : node ∈ nodes) {relation : Relation}
    (hrelation : entity.relation? node.name = some relation) {attached : Json}
    (hattached : Named.find? node.key loaded = some attached) :
    Named.find? node.key (normalizeRow registry entity nodes (project query nodes loaded))
      = some (changeRows (normalizeRow registry (registry.entity relation.target) node.children)
          attached) := by
  have hkey : node.key ∈ selected.relationKeys entity := hkeys ▸ List.mem_map_of_mem hnode
  have hvirtual : entity.virtual? node.key = none :=
    Named.find?_eq_none.mpr (hapart.not_virtual _ hkey)
  have hcolumn : entity.column? node.key = none :=
    Named.find?_eq_none.mpr (hapart.not_column _ hkey)
  have hproject : Named.find? node.key (project query nodes loaded) = some attached := by
    rw [Database.find?_project]
    split
    · exact hattached
    · rw [if_pos (List.mem_map_of_mem hnode), hattached, Option.some_or]
  have hrenamed : Named.find? node.key (renameColumns entity (project query nodes loaded))
      = some attached := by
    rw [Normalized.find?_renameColumns_undeclared hown (Database.Distinct.project nodes hloaded)
      hcolumn, if_neg (hapart.not_stored _ hkey), hproject]
  unfold normalizeRow
  rw [Normalized.find?_computeVirtuals_other hown hvirtual]
  exact Normalized.find?_normalizeNodes_key (hkeys ▸ hnodup) hnode hrelation hrenamed

/-- **A loaded row, projected, normalized and shaped, has the members of what is attached to it.**
-/
theorem Attached.shaped (hnodup : (selected.relationKeys entity).Nodup) {value : String → Json}
    {members : List (String × Json)}
    (h : Attached registry entity value loaded selected nodes members)
    (hvalue : ∀ name ∈ selected.plainNames entity,
      (Named.find? name
        (normalizeRow registry entity nodes (project query nodes loaded))).getD .null
        = value name) :
    Shaped.shapeFields registry entity
      (normalizeRow registry entity nodes (project query nodes loaded))
      [] selected = .ok (Named.ofList members) :=
  h.shapeFields hown hvalue (fun _ hnode _ _ hrelation hattached =>
    find?_normalized_relation hown hapart hloaded hkeys hnodup hnode hrelation hattached) []

end Level

/-! ### One relation of a load -/

namespace Database

/-- Lookups that agree give the same keys. -/
theorem ownerKeys_congr {column : String} {rows : List Row} {change : Row → Row}
    (h : ∀ row ∈ rows, Named.find? column (change row) = Named.find? column row) :
    ownerKeys column (rows.map change) = ownerKeys column rows := by
  unfold ownerKeys
  have hvalues : (rows.map change).filterMap (fun row => Named.find? column row)
      = rows.filterMap fun row => Named.find? column row := by
    rw [List.filterMap_map]
    exact List.filterMap_congr h
  rw [hvalues]

theorem partnersOf_congr {join : Join} {links : Option (List Link)} {owner other : Row}
    (h : Named.find? join.ownerColumn owner = Named.find? join.ownerColumn other) :
    partnersOf join links owner = partnersOf join links other := by
  unfold partnersOf
  rw [h]

theorem hasKey_congr {column : String} {keys : List Json} {row other : Row}
    (h : Named.find? column row = Named.find? column other) :
    hasKey column keys row = hasKey column keys other := by
  unfold hasKey
  rw [h]

end Database

section Relation

variable {reading : Reading} {modifiers : ModifierTable} {relation : Relation}
    {children : Selected} {arguments : List (String × Literal)}
  {projection filters : Option Edit} {references : List String}

theorem Reading.relationQuery_covers
    (hkeeps : (reading.database.registry.entity relation.target).FiltersKeep Query.columns)
    (hprojection : Plan.projectionModifier reading.context
      (reading.database.registry.entity relation.target) children = .ok projection)
    (hfilters : Plan.argumentModifier reading.context
      (reading.database.registry.entity relation.target) arguments = .ok filters) :
    Covers (reading.database.registry.entity relation.target)
      (children.reads (reading.database.registry.entity relation.target))
      (reading.relationQuery relation projection filters) reading.selects := by
  let start := { (reading.database.registry.entity relation.target).query with
    skipsUndefined := reading.skipsUndefined }
  have hcolumns : (reading.relationQuery relation projection filters).columns
      = (start.applyAll projection.toList).columns := by
    unfold Reading.relationQuery
    rw [Query.applyAll_append]
    exact Plan.argumentModifier_all (Keeps.composes Query.columns) hkeeps hfilters _
  exact (Plan.projectionModifier_covers hprojection rfl).of_columns hcolumns

/-- What a relation fetches are the rows related to its owners. -/
theorem Reading.related_eq
    (hprojection : Plan.projectionModifier reading.context
      (reading.database.registry.entity relation.target) children = .ok projection)
    (hfilters : Plan.argumentModifier reading.context
      (reading.database.registry.entity relation.target) arguments = .ok filters)
    (owners : List Row) :
    reading.related relation arguments children owners
      = (reading.database.select (keyedQuery (reading.relationQuery relation projection filters)
          relation.join (reading.database.wantedKeys relation.join
            (ownerKeys relation.join.ownerColumn owners)))).result.toOption := by
  unfold Reading.related
  dsimp only
  rw [hprojection, hfilters]
  rfl

theorem Reading.related_some {found owners : List Row} :
    reading.related relation arguments children owners = some found
      ↔ ∃ projection filters,
          Plan.projectionModifier reading.context
              (reading.database.registry.entity relation.target) children = .ok projection
          ∧ Plan.argumentModifier reading.context
              (reading.database.registry.entity relation.target) arguments = .ok filters
          ∧ (reading.database.select (keyedQuery
              (reading.relationQuery relation projection filters) relation.join
              (reading.database.wantedKeys relation.join
                (ownerKeys relation.join.ownerColumn owners)))).result = .ok found := by
  unfold Reading.related
  simp only [Option.bind_eq_bind, Option.bind_eq_some_iff, Outcome.toOption_some]
  constructor
  · rintro ⟨projection, hprojection, filters, hfilters, hfound⟩
    exact ⟨projection, filters, hprojection, hfilters, hfound⟩
  · rintro ⟨projection, filters, hprojection, hfilters, hfound⟩
    exact ⟨projection, hprojection, filters, hfilters, hfound⟩

theorem Reading.related_table {found : List Row} {owners : List Row}
    (h : reading.related relation arguments children owners = some found) :
    ∀ row ∈ found,
      row ∈ reading.database.table (reading.database.registry.entity relation.target).table := by
  intro row hrow
  obtain ⟨projection, filters, -, -, hfound⟩ := related_some.mp h
  have hrow := Database.mem_table_of_select hfound hrow
  rwa [keyedQuery, Query.apply_table, relationQuery, Query.applyAll_table] at hrow

variable (reading) in
/-- **The same rows are related whatever columns are fetched**, if no filter reads the projection.
-/
theorem Reading.related_blind
    (hblind : (reading.database.registry.entity relation.target).FiltersAll Blind)
    {settings : QuerySettings} {other : Selected} (hother : other.Whole) {found owners : List Row}
    (h : reading.related relation arguments children owners = some found) :
    { reading with settings }.related relation arguments other owners = some found := by
  obtain ⟨projection, filters, hprojection, hfilters, hfound⟩ := related_some.mp h
  let changed : Reading := { reading with settings }
  obtain ⟨projection', hprojection'⟩ : ∃ projection', Plan.projectionModifier changed.context
      (reading.database.registry.entity relation.target) other = .ok projection' :=
    Plan.projectionModifier_ok hother
  have hargued : Blind filters.toList :=
    Plan.argumentModifier_all (Carries.composes Query.SameRows.skipsUndefined) hblind hfilters
  have hquery : (reading.relationQuery relation projection' filters).SameRows
      (reading.relationQuery relation projection filters) := by
    unfold relationQuery
    rw [Query.applyAll_append, Query.applyAll_append]
    exact hargued _ _ ((Plan.projectionModifier_sameRows hprojection' _).trans
      (Plan.projectionModifier_sameRows hprojection _).symm)
  refine related_some.mpr ⟨projection', filters, hprojection', hfilters, ?_⟩
  refine (Database.select_sameRows _ ?_).trans hfound
  exact (Edit.Simple.filter _).blind _ _ hquery

/-- **What one relation of a compiled load does**: it fetches the related rows, loads what is below
them and deals them out, to owners that may carry other relations already. -/
theorem Reading.loadNode_ok {entity : Entity} {key : String} {below : List RelationNode}
    (hrelation : entity.relation? relation.name = some relation)
    (hprojection : Plan.projectionModifier reading.context
      (reading.database.registry.entity relation.target) children = .ok projection)
    (hfilters : Plan.argumentModifier reading.context
      (reading.database.registry.entity relation.target) arguments = .ok filters)
    (happlied : ∀ query, Database.modifiedQuery modifiers query references
      = .ok (query.applyAll (projection.toList ++ filters.toList)))
    {rows : List Row} {extra : Row → Row}
    (hextra : ∀ row ∈ rows, Named.find? relation.join.ownerColumn (extra row)
      = Named.find? relation.join.ownerColumn row) {out : List Row} :
    (Database.loadNode reading.database modifiers reading.skipsUndefined entity
        (relationNode relation key references below) (rows.map extra)).result = .ok out
      ↔ ∃ found related, reading.related relation arguments children rows = some found
        ∧ (Database.loadNodes reading.database modifiers reading.skipsUndefined
            (reading.database.registry.entity relation.target) below found).result = .ok related
        ∧ (rows.map fun row => Named.put key (relationValue relation.kind
            ((related.filter (hasKey relation.join.relatedColumn (partnersOf relation.join
              (reading.database.linked relation.join
                (ownerKeys relation.join.ownerColumn rows)) row))).map
              (project (reading.relationQuery relation projection filters) below))) (extra row))
          = out := by
  have hquery : Database.relationQuery reading.database modifiers reading.skipsUndefined relation
      (relationNode relation key references below)
      = .ok (reading.relationQuery relation projection filters) := happlied _
  have hattach : ∀ links related, (rows.map extra).map
      (Database.attach (reading.relationQuery relation projection filters)
        (relationNode relation key references below) relation links related)
      = rows.map fun row => Named.put key (relationValue relation.kind
          ((related.filter (hasKey relation.join.relatedColumn
            (partnersOf relation.join links row))).map
            (project (reading.relationQuery relation projection filters) below))) (extra row) := by
    intro links related
    rw [List.map_map]
    refine List.map_congr_left fun row hrow => ?_
    rw [Function.comp_apply, Database.attach, relationNode_key,
      Database.partnersOf_congr (hextra row hrow)]
    rfl
  have hkeys := Database.ownerKeys_congr hextra
  simp only [Database.loadNode_ok, Reading.related_eq hprojection hfilters, Outcome.toOption_some]
  constructor
  · rintro ⟨other, query, found, related, hother, hquery', hfound, hrelated, hout⟩
    obtain rfl : relation = other := Option.some.inj (hrelation.symm.trans hother)
    obtain rfl := Except.ok.inj (hquery.symm.trans hquery')
    rw [hkeys] at hfound hout
    exact ⟨found, related, hfound, hrelated, by rw [← hattach, hout]⟩
  · rintro ⟨found, related, hfound, hrelated, hout⟩
    refine ⟨relation, _, found, related, hrelation, hquery, ?_, hrelated, ?_⟩
    · rw [hkeys]
      exact hfound
    · rw [hkeys, hattach, hout]

end Relation

end GraphFetch
