/-
What root fields are answered from.

The query of a root field is put together from the hook, the arguments, the projection, the
modifier and the compiled load.  Which rows it selects is decided by all but the load, which
says what is attached to them, and if no filter and no modifier reads the projection, it has
no part in that either.  So a root field is answered exactly if its selection can be
compiled, its rows can be selected and everything below can be fetched for them, and what it
is answered is told of those rows.
-/
import GraphFetch.Blog.Basic
import GraphFetch.Proofs.Engine.Loaded
import GraphFetch.Proofs.Engine.Uncached
import GraphFetch.Proofs.Plan.ReadBack

namespace GraphFetch

open Database (relationValue project)
open Normalized (normalizeRow)
open Plan (Mirrors)

/-! ### Values of root fields -/

/-- A root field answers as a relation of its cardinality does. -/
def Cardinality.kind : Cardinality → RelationKind
  | single => .one
  | list => .many

namespace Normalized

theorem ofRows_eq (registry : Registry) (entity : Entity) (relations : List RelationNode)
    (cardinality : Cardinality) (rows : List Row) :
    ofRows registry entity relations cardinality rows
      = relationValue cardinality.kind (rows.map (normalizeRow registry entity relations)) := by
  cases cardinality with
  | single => cases rows <;> rfl
  | list =>
      show Json.arr (rows.map _) = .arr ((rows.map _).map Json.obj)
      rw [List.map_map]
      rfl

end Normalized

/-! ### Planning -/

namespace Engine

variable (engine : Engine)

/-- The query for the rows of a root field, without the relations of its selection. -/
def rowQuery (root : BoundRootField) (input : ResolveInput) (filters projection : Option Edit) :
    Query :=
  let settings := engine.settings.query
  let start := { (engine.registry.entity root.entity).query with
    skipsUndefined := settings.skipUndefined }
  (start.applyAll (engine.hook input.context)).applyAll
    (filters.toList ++ projection.toList ++ root.modifier.toList)

/-- What the rows of a root field and everything below them are read with. -/
def reading (database : Database) (root : BoundRootField) (input : ResolveInput)
    (filters projection : Option Edit) : Reading where
  database
  bindings := input.bindings
  settings := engine.settings.query
  skipsUndefined := (engine.rowQuery root input filters projection).skipsUndefined

/-- What the selection of a root field is compiled with. -/
def planContext (input : ResolveInput) : PlanContext :=
  ⟨engine.registry, input.bindings, engine.settings.query⟩

/-- What a root field is compiled to: the load, the arguments, the projection, and the query that is
made of them. -/
structure Planned (root : BoundRootField) (input : ResolveInput) (load : EagerLoad)
    (filters projection : Option Edit) (query : Query) : Prop where
  compiled : Plan.compile (engine.planContext input) (engine.registry.entity root.entity)
    (input.selection.children ()) = .ok load
  arguments : Plan.argumentModifier (engine.planContext input) (engine.registry.entity root.entity)
    input.selection.arguments = .ok filters
  projected : Plan.projectionModifier (engine.planContext input)
    (engine.registry.entity root.entity) (input.selection.children ()) = .ok projection
  query : (engine.rowQuery root input filters projection).applyAll
    (if load.isEmpty then [] else [.load load.relations load.modifiers]) = query

variable {engine} {root : BoundRootField} {input : ResolveInput}

theorem rowQuery_entity (filters projection : Option Edit) :
    (engine.rowQuery root input filters projection).entity
      = (engine.registry.entity root.entity).id := by
  unfold rowQuery
  rw [Query.applyAll_entity, Query.applyAll_entity]
  rfl

/-- The rows of a root field are those of the table of its entity. -/
theorem rowQuery_table {database : Database} {filters projection : Option Edit} {rows : List Row}
    (h : (database.select (engine.rowQuery root input filters projection)).result = .ok rows) :
    ∀ row ∈ rows, row ∈ database.table (engine.registry.entity root.entity).table := by
  intro row hrow
  have hmem := Database.mem_table_of_select h hrow
  unfold rowQuery at hmem
  rwa [Query.applyAll_table, Query.applyAll_table] at hmem

/-- **The query of a root field** is made of what it is compiled to. -/
theorem plan_ok {query : Query} {relations : List RelationNode} :
    engine.plan root input = .ok (query, relations)
      ↔ ∃ load filters projection, load.relations = relations
        ∧ engine.Planned root input load filters projection query := by
  unfold plan
  simp only [Outcome.bind_ok, Outcome.pure_ok, Prod.mk.injEq, Query.applyAll_append]
  constructor
  · rintro ⟨load, hload, filters, hfilters, projection, hprojection, hquery, hrelations⟩
    refine ⟨load, filters, projection, hrelations, hload, hfilters, hprojection, ?_⟩
    unfold rowQuery
    simpa only [Query.applyAll_append] using hquery
  · rintro ⟨load, filters, projection, hrelations, hload, hfilters, hprojection, hquery⟩
    refine ⟨load, hload, filters, hfilters, projection, hprojection, ?_, hrelations⟩
    unfold rowQuery at hquery
    simpa only [Query.applyAll_append] using hquery

namespace Planned

variable {load : EagerLoad} {filters projection : Option Edit} {query : Query}
  (h : engine.Planned root input load filters projection query)

include h

/-- A load is all that is added to the query for the rows, and it sets nothing but what is attached.
-/
theorem eq : query = { engine.rowQuery root input filters projection with
    eager := if load.isEmpty then (engine.rowQuery root input filters projection).eager
      else some load } := by
  rw [← h.query]
  cases load.isEmpty <;> rfl

theorem rows (database : Database) : (database.select query).result
    = (database.select (engine.rowQuery root input filters projection)).result := by
  rw [h.eq]
  rfl

theorem skips : query.skipsUndefined
    = (engine.rowQuery root input filters projection).skipsUndefined := by
  rw [h.eq]

theorem entity : query.entity = (engine.registry.entity root.entity).id := by
  rw [h.eq]
  exact rowQuery_entity filters projection

theorem eager : query.eager
    = if load.isEmpty then (engine.rowQuery root input filters projection).eager
      else some load := by
  rw [h.eq]

end Planned

/-- An engine that answers from tables, with readable names for modifiers, and whose hook and root
modifiers set no projection.  They may read one, as filters may: what that asks of an engine for
its answers not to depend on the columns that are fetched is `IgnoresColumns`. -/
structure Over (engine : Engine) (database : Database) : Prop where
  registry : engine.registry = database.registry
  executor : engine.executor = database.execute
  clear : database.Clear
  roots : ∀ name root, engine.rootField? name = some root →
    database.registry.entity root.entity ∈ database.registry.entities
  prefixes : Settings.checkPrefixes engine.settings.query.filterPrefixes = .ok ()
  readable : Plan.Readable engine.settings.query.filterPrefixes
  hook : ∀ context, Keeps Query.columns (engine.hook context)
  modifier : ∀ name root, engine.rootField? name = some root →
    Keeps Query.columns root.modifier.toList

/-- Whether filters and root modifiers do the same to queries whatever columns these have.  Hooks
come before any projection, so they may read it. -/
structure IgnoresColumns (engine : Engine) : Prop where
  filters : ∀ entity ∈ engine.registry.entities, entity.FiltersAll Blind
  modifier : ∀ name root, engine.rootField? name = some root → Blind root.modifier.toList

/-- Then the rows of a root field are selected whatever columns of them are. -/
theorem IgnoresColumns.rowQuery (h : engine.IgnoresColumns)
    (hroot : engine.rootField? input.selection.name = some root) (filters : Option Edit)
    {context context' : PlanContext} {entity : Entity} {selected other : Selected}
    {projection projection' : Option Edit}
    (hprojection : Plan.projectionModifier context entity selected = .ok projection)
    (hprojection' : Plan.projectionModifier context' entity other = .ok projection') :
    (engine.rowQuery root input filters projection).SameRows
      (engine.rowQuery root input filters projection') := by
  unfold Engine.rowQuery
  dsimp only
  rw [Query.applyAll_append, Query.applyAll_append, Query.applyAll_append, Query.applyAll_append]
  exact h.modifier _ root hroot _ _ ((Plan.projectionModifier_sameRows hprojection _).trans
    (Plan.projectionModifier_sameRows hprojection' _).symm)

/-- Whether nothing but selections says what is attached to the rows of root fields. -/
structure LoadsSelected (engine : Engine) : Prop where
  hook : ∀ context, Keeps Query.eager (engine.hook context)
  modifier : ∀ name root, engine.rootField? name = some root →
    Keeps Query.eager root.modifier.toList
  filters : ∀ name root, engine.rootField? name = some root →
    (engine.registry.entity root.entity).FiltersKeep Query.eager

theorem LoadsSelected.rowQuery_eager (h : engine.LoadsSelected)
    (hroot : engine.rootField? input.selection.name = some root) {filters projection : Option Edit}
    (hfilters : Plan.argumentModifier (engine.planContext input)
      (engine.registry.entity root.entity) input.selection.arguments = .ok filters)
    (hprojection : Plan.projectionModifier (engine.planContext input)
      (engine.registry.entity root.entity) (input.selection.children ()) = .ok projection) :
    (engine.rowQuery root input filters projection).eager = none := by
  have hargued : Keeps Query.eager filters.toList :=
    Plan.argumentModifier_all (Keeps.composes Query.eager) (h.filters _ root hroot) hfilters
  have hprojected : Keeps Query.eager projection.toList :=
    Plan.projectionModifier_keeps_eager hprojection
  unfold rowQuery
  dsimp only
  rw [Query.applyAll_append, Query.applyAll_append, h.modifier _ root hroot, hprojected, hargued,
    h.hook]
  rfl

theorem bind_ok {registry : Registry} {field : RootField} :
    field.bind registry = .ok root
      ↔ ∃ entity, registry.find? field.entity = some entity
        ∧ ⟨field.name, entity.id, field.cardinality, field.modifier⟩ = root := by
  unfold RootField.bind
  cases registry.find? field.entity with
  | none => simp
  | some entity => simp

/-- The root fields of an engine that is built are declared ones, bound to its registry under their
own names. -/
theorem bind_of_rootField? {registry : Registry} {settings : Settings} {executor : Executor}
    {fields : List RootField} {hook : QueryHook} {hasCache : Bool}
    (h : build registry settings executor fields hook hasCache = .ok engine) {name : String}
    (hroot : engine.rootField? name = some root) :
    root.name = name ∧ ∃ field ∈ fields, field.bind registry = .ok root := by
  unfold build RootField.bindAll at h
  obtain ⟨bindings, hbindings, h⟩ := Outcome.bind_ok.mp h
  obtain rfl := Outcome.pure_ok.mp h
  obtain ⟨bound, hbound, h⟩ := Outcome.bind_ok.mp hbindings
  obtain rfl := Outcome.pure_ok.mp h
  obtain ⟨field, hfield, heq⟩ := List.mem_map.mp (Named.mem_ofList (Named.mem_of_find? hroot))
  obtain ⟨hname, rfl⟩ := Prod.mk.inj heq
  exact ⟨hname, Outcome.mem_mapM hbound hfield⟩

/-- What an engine that is built was built of. -/
theorem build_parts {registry : Registry} {settings : Settings} {executor : Executor}
    {fields : List RootField} {hook : QueryHook} {hasCache : Bool}
    (h : build registry settings executor fields hook hasCache = .ok engine) :
    engine.registry = registry ∧ engine.executor = executor ∧ engine.settings = settings
      ∧ engine.hook = hook ∧ engine.hasCache = hasCache := by
  obtain ⟨bindings, -, h⟩ := Outcome.bind_ok.mp h
  obtain rfl := Outcome.pure_ok.mp h
  exact ⟨rfl, rfl, rfl, rfl, rfl⟩

/-- The root fields of an engine that is built have registered entities and the modifiers of
declared fields. -/
theorem build_roots {registry : Registry} (hbuilt : registry.Built) {settings : Settings}
    {executor : Executor} {fields : List RootField} {hook : QueryHook} {hasCache : Bool}
    (h : build registry settings executor fields hook hasCache = .ok engine) {name : String}
    (hroot : engine.rootField? name = some root) :
    registry.entity root.entity ∈ registry.entities
      ∧ ∃ field ∈ fields, field.modifier = root.modifier := by
  obtain ⟨-, field, hfield, hbind⟩ := bind_of_rootField? h hroot
  obtain ⟨entity, hfind, rfl⟩ := bind_ok.mp hbind
  have hentity := Registry.mem_of_find? hfind
  refine ⟨?_, field, hfield, rfl⟩
  rw [(hbuilt entity hentity).entity_id]
  exact hentity

/-- **An engine that is built over tables is one.** -/
theorem build_over {database : Database} {settings : Settings} {fields : List RootField}
    {hook : QueryHook} {hasCache : Bool} (hclear : database.Clear)
    (hengine : build database.registry settings database.execute fields hook hasCache = .ok engine)
    (hprefixes : Settings.checkPrefixes settings.query.filterPrefixes = .ok ())
    (hreadable : Plan.Readable settings.query.filterPrefixes)
    (hhook : ∀ context, Keeps Query.columns (hook context))
    (hfields : ∀ field ∈ fields, Keeps Query.columns field.modifier.toList) :
    engine.Over database := by
  obtain ⟨hregistry, hexecutor, rfl, rfl, -⟩ := build_parts hengine
  refine ⟨hregistry, hexecutor, hclear, ?_, hprefixes, hreadable, hhook, ?_⟩
  · intro name root hroot
    exact (build_roots hclear.built hengine hroot).1
  · intro name root hroot
    obtain ⟨-, field, hfield, hmodifier⟩ := build_roots hclear.built hengine hroot
    exact hmodifier ▸ hfields field hfield

/-- The columns that a selection reads are fetched, since nothing but it sets a projection. -/
theorem Planned.covers {database : Database} (hover : engine.Over database)
    (hroot : engine.rootField? input.selection.name = some root) {load : EagerLoad}
    {filters projection : Option Edit} {query : Query}
    (h : engine.Planned root input load filters projection query) :
    Database.Covers (engine.registry.entity root.entity)
      ((input.selection.children ()).reads (engine.registry.entity root.entity)) query
      engine.settings.query.selectOptimization := by
  have hentity : engine.registry.entity root.entity ∈ database.registry.entities :=
    hover.registry ▸ hover.roots _ root hroot
  let start : Query := { (engine.registry.entity root.entity).query with
    skipsUndefined := engine.settings.query.skipUndefined }
  let hooked := start.applyAll (engine.hook input.context)
  have hargued : Keeps Query.columns filters.toList :=
    Plan.argumentModifier_all (Keeps.composes Query.columns) (hover.clear.filters _ hentity)
      h.arguments
  have hcolumns : (hooked.applyAll filters.toList).columns = none :=
    (hargued hooked).trans (hover.hook _ start)
  refine (Plan.projectionModifier_covers h.projected hcolumns).of_columns ?_
  rw [h.eq]
  show (hooked.applyAll _).columns = _
  rw [Query.applyAll_append, Query.applyAll_append]
  exact hover.modifier _ root hroot _

/-- A root field can be planned if its selection can be compiled and its arguments resolve. -/
theorem planned_exists
    (hcompilable : (input.selection.children ()).Compilable engine.registry input.bindings
      (engine.registry.entity root.entity)) {filters : Option Edit}
    (hfilters : Plan.argumentModifier (engine.planContext input)
      (engine.registry.entity root.entity) input.selection.arguments = .ok filters)
    {projection : Option Edit}
    (hprojection : Plan.projectionModifier (engine.planContext input)
      (engine.registry.entity root.entity) (input.selection.children ()) = .ok projection) :
    ∃ query load, engine.plan root input = .ok (query, load.relations)
      ∧ engine.Planned root input load filters projection query := by
  obtain ⟨load, hload⟩ : ∃ load, Plan.compile (engine.planContext input)
      (engine.registry.entity root.entity) (input.selection.children ()) = .ok load :=
    Plan.compile_ok_iff.mpr hcompilable
  have hplanned : engine.Planned root input load filters projection _ :=
    ⟨hload, hfilters, hprojection, rfl⟩
  exact ⟨_, load, plan_ok.mpr ⟨load, filters, projection, rfl, hplanned⟩, hplanned⟩

/-! ### Answering -/

/-- **What a root field without a fetch of its own is answered**: the rows of its query, normalized
and shaped. -/
theorem plain_ok (hroot : engine.rootField? input.selection.name = some root)
    (hcustom : (engine.registry.entity root.entity).customFetch? root.cardinality = none)
    {value : Json} :
    engine.plain input = .ok value
      ↔ ∃ query relations rows, engine.plan root input = .ok (query, relations)
        ∧ (engine.executor query).result = .ok rows
        ∧ Shaped.ofValue engine.registry (engine.registry.entity root.entity)
            input.selection.children (relationValue root.cardinality.kind
              (rows.map (normalizeRow engine.registry (engine.registry.entity root.entity)
                relations))) = .ok value := by
  rw [plain_eq]
  unfold plainResolve fetch
  simp only [hroot, hcustom]
  cases hplan : engine.plan root input with
  | error error =>
      refine ⟨nofun, ?_⟩
      rintro ⟨query, relations, rows, h, -⟩
      cases h
  | ok planned =>
      obtain ⟨query, relations⟩ := planned
      dsimp only
      cases hrun : (engine.executor query).result with
      | error error =>
          refine ⟨nofun, ?_⟩
          rintro ⟨other, relations', rows, h, hrows, -⟩
          cases h
          rw [hrun] at hrows
          cases hrows
      | ok rows =>
          show engine.shape input.selection (Normalized.ofRows _ _ _ _ rows) = _ ↔ _
          unfold shape
          rw [hroot]
          dsimp only
          rw [Outcome.mapError_ok, Normalized.ofRows_eq]
          constructor
          · intro h
            exact ⟨query, relations, rows, rfl, hrun, h⟩
          · rintro ⟨other, relations', others, h, hrows, hshaped⟩
            cases h
            rw [hrun] at hrows
            cases hrows
            exact hshaped

/-- A root field is answered with the rows of its row query, loaded and projected. -/
theorem Planned.executed {database : Database} (hover : engine.Over database)
    (hroot : engine.rootField? input.selection.name = some root) {load : EagerLoad}
    {filters projection : Option Edit} {query : Query}
    (hplanned : engine.Planned root input load filters projection query) {rows : List Row} :
    (engine.executor query).result = .ok rows
      ↔ ∃ nodes selected loaded, query.attached = .ok nodes
          ∧ (database.select (engine.rowQuery root input filters projection)).result = .ok selected
          ∧ (Database.loadNodes database query.loadModifiers
              (engine.rowQuery root input filters projection).skipsUndefined
              (engine.registry.entity root.entity) nodes selected).result = .ok loaded
          ∧ loaded.map (project query nodes) = rows := by
  have hentity : engine.registry.entity root.entity ∈ engine.registry.entities :=
    hover.registry ▸ hover.roots _ root hroot
  have hbuilt : engine.registry.Built := hover.registry ▸ hover.clear.built
  rw [hover.executor, Database.execute_ok, hplanned.rows database, hplanned.skips, ← hover.registry,
    hplanned.entity, (hbuilt _ hentity).entity_id]

section Own

variable {database : Database} (hover : engine.Over database)
  (hroot : engine.rootField? input.selection.name = some root) {load : EagerLoad}
  {filters projection : Option Edit} {query : Query}
  (hplanned : engine.Planned root input load filters projection query)
  (hnamed : (input.selection.children ()).WellNamed)
  (hown : load.relations = [] → (engine.rowQuery root input filters projection).eager = none)

include hover hroot hplanned hnamed hown

/-- A root field whose relations are the only ones is answered with the rows of its row query, each
with the relations attached. -/
theorem Planned.execute_ok {rows : List Row} :
    (engine.executor query).result = .ok rows
      ↔ ∃ selected loaded,
          (database.select (engine.rowQuery root input filters projection)).result = .ok selected
          ∧ (Database.loadNodes database load.modifiers
              (engine.rowQuery root input filters projection).skipsUndefined
              (engine.registry.entity root.entity) load.relations selected).result = .ok loaded
          ∧ loaded.map (project query load.relations) = rows := by
  have hentity : engine.registry.entity root.entity ∈ engine.registry.entities :=
    hover.registry ▸ hover.roots _ root hroot
  have hbuilt : engine.registry.Built := hover.registry ▸ hover.clear.built
  rw [hplanned.executed hover hroot]
  unfold Query.attached Query.loadModifiers
  rw [hplanned.eager, EagerLoad.isEmpty]
  by_cases hempty : load.relations = []
  · rw [hempty, hown hempty]
    simp only [List.isEmpty_nil, if_true, Database.loadNodes_nil_ok]
    constructor
    · rintro ⟨nodes, selected, loaded, hnodes, hselected, hloaded, h⟩
      cases hnodes
      exact ⟨selected, loaded, hselected, Database.loadNodes_nil_ok.mp hloaded, h⟩
    · rintro ⟨selected, loaded, hselected, hloaded, h⟩
      exact ⟨[], selected, loaded, rfl, hselected, Database.loadNodes_nil_ok.mpr hloaded, h⟩
  · rw [if_neg (by simpa using hempty)]
    dsimp only
    have hparsed : Expression.parse load.expression = .ok load.relations :=
      Plan.compile_parse hbuilt hover.prefixes hover.readable hentity hnamed hplanned.compiled
    rw [hparsed]
    constructor
    · rintro ⟨nodes, selected, loaded, hnodes, hselected, hloaded, h⟩
      cases hnodes
      exact ⟨selected, loaded, hselected, hloaded, h⟩
    · rintro ⟨selected, loaded, hselected, hloaded, h⟩
      exact ⟨_, selected, loaded, rfl, hselected, hloaded, h⟩

variable {telling : (engine.reading database root input filters projection).Telling}
  (hadmits : telling.admits (engine.registry.entity root.entity) none
    (input.selection.children ()))
  (hbelow : (input.selection.children ()).Below engine.registry telling.admits
    (engine.registry.entity root.entity))

include hadmits hbelow

/-- **What a root field is answered is told of the rows of its row query.** -/
theorem Planned.told {rows : List Row} (hrows : (engine.executor query).result = .ok rows) :
    ∃ selected members,
      (database.select (engine.rowQuery root input filters projection)).result = .ok selected
      ∧ (engine.reading database root input filters projection).Tells telling.tells
          (engine.registry.entity root.entity) selected (input.selection.children ()) members
      ∧ Shaped.ofValue engine.registry (engine.registry.entity root.entity)
          input.selection.children (relationValue root.cardinality.kind
            (rows.map (normalizeRow engine.registry (engine.registry.entity root.entity)
              load.relations)))
          = .ok (relationValue root.cardinality.kind
              (selected.map fun row => Named.ofList (members row))) := by
  obtain ⟨selected, loaded, hselected, hloaded, rfl⟩ :=
    (hplanned.execute_ok hover hroot hnamed hown).mp hrows
  have hregistry := hover.registry
  have hentity := hover.roots _ root hroot
  have hcompilable := Plan.compile_ok_iff.mp ⟨load, hplanned.compiled⟩
  obtain ⟨-, -, hmirrors⟩ := Plan.compile_references hover.prefixes hplanned.compiled
  have htable := rowQuery_table hselected
  unfold planContext at hmirrors hcompilable
  rw [hregistry] at hmirrors hcompilable htable hadmits hbelow hloaded ⊢
  have hdistinct : ∀ row ∈ selected, Named.Distinct (id row) := fun row hrow =>
    hover.clear.rows _ hentity row (htable row hrow)
  let reading := engine.reading database root input filters projection
  have hloadedRows : (Database.loadNodes reading.database load.modifiers reading.skipsUndefined
      (database.registry.entity root.entity) load.relations (selected.map id)).result
      = .ok loaded := by
    rw [List.map_id]
    exact hloaded
  have hattachable := Reading.Attachable.fetched hentity hadmits hbelow selected
  have hmirrorsOf : Mirrors reading.context load.modifiers (database.registry.entity root.entity)
      (input.selection.children ()) load.relations := hmirrors
  obtain ⟨attached, rfl, hattached⟩ := Reading.loadNodes_loaded hover.clear hmirrorsOf
    hcompilable hattachable hdistinct hloadedRows
  have hcovers := hplanned.covers hover hroot
  rw [hregistry] at hcovers
  obtain ⟨members, htells, hshaped⟩ := hattached.shaped hover.clear hentity hadmits
    hcompilable.keys_nodup htable hmirrors.keys hcovers
  refine ⟨selected, members, hselected, htells, ?_⟩
  rw [List.map_map, List.map_map]
  refine Shaped.shapeRows_relationValue _ ?_
  intro row hrow
  exact Outcome.map_ok.mpr ⟨_, hshaped row hrow, rfl⟩

/-- **A root field is answered if all its rows and relations can be fetched.** -/
theorem Planned.exists_rows {selected : List Row}
    (hselected : (database.select (engine.rowQuery root input filters projection)).result
      = .ok selected)
    (hloads : (engine.reading database root input filters projection).Loads
      (engine.registry.entity root.entity) selected (input.selection.children ())) :
    ∃ rows, (engine.executor query).result = .ok rows := by
  obtain ⟨-, -, hmirrors⟩ := Plan.compile_references hover.prefixes hplanned.compiled
  have hregistry := hover.registry
  have hentity := hover.roots _ root hroot
  unfold planContext at hmirrors
  obtain ⟨loaded, hloaded⟩ : ∃ loaded, (Database.loadNodes database load.modifiers
      (engine.rowQuery root input filters projection).skipsUndefined
      (engine.registry.entity root.entity)
      load.relations selected).result = .ok loaded := by
    rw [hregistry] at hmirrors hadmits hbelow hloads ⊢
    let reading := engine.reading database root input filters projection
    have hmirrorsOf : Mirrors reading.context load.modifiers (database.registry.entity root.entity)
        (input.selection.children ()) load.relations := hmirrors
    rw [← List.map_id selected]
    exact Reading.loadNodes_exists hover.clear hmirrorsOf
      (Reading.Attachable.fetched hentity hadmits hbelow selected) hloads
  exact ⟨_, (hplanned.execute_ok hover hroot hnamed hown).mpr
    ⟨selected, loaded, hselected, hloaded, rfl⟩⟩

end Own

end Engine

/-! ### The blog -/

namespace Blog

/-- The tables of the blog with its registry. -/
def tables : Database := database ((registry.toOption).getD default)

/-- The engine of the blog under some settings. -/
def answering (settings : Settings) : Engine where
  registry := tables.registry
  settings
  executor := tables.execute
  rootFields := ((RootField.bindAll tables.registry rootFields).toOption).getD []
  hook := fun _ => []
  hasCache := true

theorem tables_built : Registry.build [author, post, comment, tag] = .ok tables.registry := rfl

theorem engine_eq (settings : Settings) :
    Engine.build tables.registry settings tables.execute rootFields (fun _ => []) true
      = .ok (answering settings) := rfl

/-- No filter is added to the built-in ones. -/
theorem no_filters : ∀ registration ∈ [author, post, comment, tag], registration.filters = [] := by
  simp [author, post, comment, tag, Registration.column, Registration.columnAs,
    Registration.relation, Registration.virtual]

/-- What composes and holds of simple edits holds of all filters. -/
theorem filters_all {holds : List Edit → Prop} (hcomposes : Composes holds)
    (hsimple : ∀ edit : Edit, edit.Simple → holds [edit]) :
    ∀ entity ∈ tables.registry.entities, entity.FiltersAll holds := by
  refine Registry.filters_all hcomposes hsimple tables_built ?_
  intro registration hregistration name filter hfilter
  rw [no_filters registration hregistration] at hfilter
  exact absurd hfilter (by simp)

theorem tables_clear : tables.Clear where
  built := Registry.build_built tables_built
  clear := by
    have hvirtuals : ∀ entity ∈ tables.registry.entities, ∀ name ∈ Named.names entity.columns,
        name ∉ Named.names entity.virtuals := by decide +kernel
    have hcomputed : ∀ entity ∈ tables.registry.entities, ∀ entry ∈ entity.columns,
        entry.2.computed = true → entry.2.storageName = entry.2.name := by decide +kernel
    have hmoved : ∀ entity ∈ tables.registry.entities, ∀ entry ∈ entity.columns,
        entry.2.storageName ≠ entry.2.name →
          entry.2.storageName ∉ Named.names entity.columns := by decide +kernel
    intro entity hentity
    exact ⟨hvirtuals entity hentity, hcomputed entity hentity, hmoved entity hentity⟩
  filters := filters_all (Keeps.composes _) fun _ h => h.keeps_columns
  rows := by
    have hrows : ∀ entity ∈ tables.registry.entities, ∀ row ∈ tables.table entity.table,
        (Named.names row).Nodup := by decide +kernel
    exact hrows

theorem root_unmodified : ∀ field ∈ rootFields, field.modifier = none := by
  simp [rootFields]

/-- The engine of the blog answers from its tables, whatever settings it has for the columns that it
fetches. -/
theorem answering_over {settings : Settings} (hprefixes : settings.query.filterPrefixes = {}) :
    (answering settings).Over tables := by
  refine Engine.build_over tables_clear (engine_eq settings) ?_ ?_ (fun _ => .nil) ?_
  · rw [hprefixes]
    exact Plan.checkPrefixes_default
  · rw [hprefixes]
    exact Plan.readable_default
  · intro field hfield
    rw [root_unmodified field hfield]
    exact .nil

theorem answering_loadsSelected (settings : Settings) : (answering settings).LoadsSelected := by
  refine ⟨fun _ => .nil, ?_, ?_⟩
  · intro name root hroot
    obtain ⟨-, field, hfield, hmodifier⟩ :=
      Engine.build_roots tables_clear.built (engine_eq settings) hroot
    rw [← hmodifier, root_unmodified field hfield]
    exact .nil
  · intro name root hroot
    exact filters_all (Keeps.composes _) (fun _ h => h.keeps_eager) _
      (Engine.build_roots tables_clear.built (engine_eq settings) hroot).1

theorem answering_ignoresColumns (settings : Settings) : (answering settings).IgnoresColumns := by
  refine ⟨filters_all (Carries.composes Query.SameRows.skipsUndefined) fun _ h => h.blind, ?_⟩
  intro name root hroot
  obtain ⟨-, field, hfield, hmodifier⟩ :=
    Engine.build_roots tables_clear.built (engine_eq settings) hroot
  rw [← hmodifier, root_unmodified field hfield]
  exact .nil

end Blog

end GraphFetch
