/-
Select optimization, which changes no answers.

With it on, what a set reads of its rows are projected rows that already have the names of
clients; with it off, whole rows in the words of storage.  What a field tells of a stored row
is the same by either way, so whole answers are, level by level.  Where a root field selects
no relation, its rows may still carry what a hook attaches to them; then the two ways are
compared on the very rows that are projected or not.
-/
import GraphFetch.Proofs.Engine.Siblings

namespace GraphFetch

open Database (relationValue project Unshadowed Covers)
open Normalized (normalizeRow renameColumns computeVirtuals readNames)

/-! ### What is told -/

/-- Tables whose columns are stored under names of their own and whose attributes are computed from
columns, without a member where a column is moved to. -/
structure Database.Projectable (database : Database) : Prop where
  stored : ∀ entity ∈ database.registry.entities, entity.StoredApart
  computable : ∀ entity ∈ database.registry.entities, entity.Computable
  rows : ∀ entity ∈ database.registry.entities, ∀ row ∈ database.table entity.table,
    Unshadowed entity [] row

namespace Reading

variable {reading : Reading}

/-- The same tables read with other columns fetched. -/
def selecting (reading : Reading) (selects : Bool) : Reading :=
  { reading with settings := { reading.settings with selectOptimization := selects } }

/-- **What a field tells of a stored row does not depend on the columns that are fetched.** -/
theorem plainValue_selecting (hclear : reading.database.Clear)
    (hprojectable : reading.database.Projectable) {entity : Entity}
    (hentity : entity ∈ reading.database.registry.entities) {stored : Row}
    (hstored : stored ∈ reading.database.table entity.table) (name : String) (selects : Bool) :
    (reading.selecting selects).plainValue entity name stored
      = (Named.find? name (computeVirtuals entity (renameColumns entity stored))).getD .null := by
  have hown := (hclear.built entity hentity).toOwnNames
  have hnames := hclear.clear entity hentity
  unfold plainValue seen
  cases selects with
  | false => rfl
  | true =>
      refine congrArg (fun value : Option Json => value.getD .null) ?_
      refine Normalized.find?_computeVirtuals_congr hown hnames
        (hprojectable.computable entity hentity)
        fun read hread => ?_
      have hrow : Unshadowed entity (([] : List RelationNode).map RelationNode.key) stored :=
        hprojectable.rows entity hentity stored hstored
      let query : Query :=
        { entity.query with
          columns := some ((readNames entity name).map (Plan.columnRef entity false)) }
      show Named.find? read (renameColumns entity (project query [] stored)) = _
      exact Database.find?_renameColumns_project hown hnames
        (hprojectable.stored entity hentity) rfl
        hrow hread

/-- What is told exactly of rows is told of them with other columns fetched, if no filter reads the
projection. -/
theorem Tells.selecting (hclear : reading.database.Clear)
    (hprojectable : reading.database.Projectable)
    (hblind : ∀ id, (reading.database.registry.entity id).FiltersAll Blind)
    {selects other : Bool} {entity : Entity}
    {rows : List Row} {selected : Selected} {members : Row → List (String × Json)}
    (h : (reading.selecting selects).Tells (reading.selecting selects).TellsExactly entity rows
      selected members) (hentity : entity ∈ reading.database.registry.entities)
    (hrows : ∀ row ∈ rows, row ∈ reading.database.table entity.table) :
    (reading.selecting other).Tells (reading.selecting other).TellsExactly entity rows selected
      members := by
  induction h with
  | none => exact .none
  | plain hname hvalue _ ih =>
      refine .plain hname ?_ (ih hentity hrows)
      intro htype row hrow
      have hsame := plainValue_selecting hclear hprojectable hentity (hrows row hrow)
      exact (hvalue htype row hrow).trans ((hsame _ selects).trans (hsame _ other).symm)
  | relation hname hfound hbelow _ ihBelow ihRest =>
      have htarget := (hclear.built _ hentity).target_mem _ _ (Named.mem_of_find? hname)
      have hrowsBelow := @related_table (reading.selecting selects) _ _ _ _ _ hfound
      exact .relation hname
        (related_blind (reading.selecting selects) (hblind _) hbelow.whole hfound)
        (ihBelow htarget hrowsBelow) (ihRest hentity hrows)

end Reading

/-! ### What is attached besides -/

namespace Database

variable {database : Database} {modifiers : ModifierTable} {skipsUndefined : Bool}
  {entity : Entity}

/-- Rows that nothing stands in where a column is moved to are so when loaded, what is attached
excepted. -/
theorem loadNodes_unshadowed {nodes : List RelationNode} {rows loaded : List Row}
    (h : (loadNodes database modifiers skipsUndefined entity nodes rows).result = .ok loaded)
    (hrows : ∀ row ∈ rows, Unshadowed entity [] row) :
    ∀ row ∈ loaded, Unshadowed entity (nodes.map RelationNode.key) row := by
  obtain ⟨load, rfl, hload⟩ := loadNodes_same h
  intro row hrow
  obtain ⟨source, hsource, rfl⟩ := List.mem_map.mp hrow
  obtain ⟨hdistinct, hsame⟩ := hload source
  refine ⟨hdistinct (hrows source hsource).distinct, ?_⟩
  intro name column hcolumn hmoved hname
  rw [hsame name hname]
  exact (hrows source hsource).unshadowed name column hcolumn hmoved (by simp)

end Database

namespace Shaped

/-- A set without relations is answered from what its row has under the names of its fields. -/
theorem shapeFields_plain {registry : Registry} {entity : Entity} {selected : Selected}
    (hkeys : selected.relationKeys entity = []) {row other : Row}
    (h : ∀ name ∈ selected.plainNames entity,
      (Named.find? name row).getD .null = (Named.find? name other).getD .null)
    (output : List (String × Json)) :
    shapeFields registry entity row output selected
      = shapeFields registry entity other output selected := by
  induction selected generalizing output with
  | none => rfl
  | missing fragment rest _ => rfl
  | field name asName arguments children rest _ ih =>
      have hrest := fun output => ih
        (by
          unfold Selected.relationKeys at hkeys
          split at hkeys
          · exact absurd hkeys (by simp)
          · exact hkeys)
        (fun name hname => h name (Selected.plainNames_rest hname)) output
      have hname : entity.relation? name = none := by
        cases hrelation : entity.relation? name with
        | none => rfl
        | some relation =>
            rw [Selected.relationKeys_relation hrelation] at hkeys
            exact absurd hkeys (by simp)
      rw [shapeFields, shapeFields]
      by_cases htype : name = "__typename"
      · rw [if_pos htype, if_pos htype, hrest]
      · rw [if_neg htype, if_neg htype, hname]
        dsimp only
        rw [h name (Selected.mem_plainNames hname htype _ _ _ _), hrest]

/-- Rows that are shaped alike are as values of relations. -/
theorem shapeRows_congr {shape : Row → Except PlanError Json} {source other : Row → Row}
    {rows : List Row} (h : ∀ row ∈ rows, shape (source row) = shape (other row))
    (kind : RelationKind) :
    shapeRows shape (relationValue kind (rows.map source))
      = shapeRows shape (relationValue kind (rows.map other)) := by
  have hitems : shapeItems shape ((rows.map source).map Json.obj)
      = shapeItems shape ((rows.map other).map Json.obj) := by
    induction rows with
    | nil => rfl
    | cons row rest ih =>
        simp only [List.map_cons, shapeItems, shapeRows]
        rw [h row List.mem_cons_self,
          ih fun later hlater => h later (List.mem_cons_of_mem _ hlater)]
  cases kind with
  | one =>
      cases rows with
      | nil => rfl
      | cons row rest => exact h row List.mem_cons_self
  | many =>
      show shapeRows shape (.arr _) = shapeRows shape (.arr _)
      rw [shapeRows, shapeRows, hitems]

end Shaped

namespace Normalized

variable {registry : Registry} {entity : Entity}

/-- **A row that is projected is answered like the whole row**, whatever is attached to it, by a set
that reads nothing but what is covered. -/
theorem find?_normalizeRow_project (hown : entity.OwnNames) (hclear : entity.Clear)
    (hstored : entity.StoredApart) (hcomputable : entity.Computable) {selected : Selected}
    (hnames : ∀ name ∈ selected.plainNames entity, Plan.isIntrospection name = false)
    {query : Query}
    {selects : Bool} (hcovers : Covers entity (selected.reads entity) query selects)
    {nodes : List RelationNode} {row : Row}
    (hrow : Unshadowed entity (nodes.map RelationNode.key) row) {name : String}
    (hname : name ∈ selected.plainNames entity) :
    Named.find? name (normalizeRow registry entity [] (project query nodes row))
      = Named.find? name (normalizeRow registry entity [] row) := by
  have hnone : ∀ row : Row, normalizeRow registry entity [] row
      = computeVirtuals entity (renameColumns entity row) := by
    intro row
    unfold normalizeRow
    rw [normalizeNodes]
  rw [hnone, hnone]
  refine find?_computeVirtuals_congr hown hclear hcomputable fun read hread => ?_
  have hreads : read ∈ selected.reads entity := List.mem_flatMap.mpr
    ⟨name, List.mem_filter.mpr ⟨hname, by simp [hnames name hname]⟩, hread⟩
  cases hcovers with
  | all hcolumns => rw [Database.project_whole hcolumns]
  | nothing hcolumns _ => rw [Database.project_whole hcolumns]
  | columns hcolumns hsub =>
      exact Database.find?_renameColumns_project hown hclear hstored hcolumns hrow (hsub hreads)

end Normalized

/-! ### Root fields -/

namespace Engine

variable {engine : Engine} {database : Database} {root : BoundRootField}

/-- The same rows are selected and the same is attached to them without the projection, if nothing
reads it. -/
theorem Planned.sameRows {input : ResolveInput} (hblind : engine.IgnoresColumns)
    (hroot : engine.rootField? input.selection.name = some root) {load : EagerLoad}
    {filters projection : Option Edit} {query : Query}
    (h : engine.Planned root input load filters projection query) :
    (engine.rowQuery root input filters projection).SameRows
      (engine.rowQuery root input filters none) := by
  let settings : QuerySettings := { engine.settings.query with selectOptimization := false }
  have hnone : Plan.projectionModifier ⟨engine.registry, input.bindings, settings⟩
      (engine.registry.entity root.entity) (input.selection.children ()) = .ok none := rfl
  exact hblind.rowQuery hroot filters h.projected hnone

/-- The query of a root field without relations attaches what its row query does. -/
theorem Planned.unrelated {input : ResolveInput} (hover : engine.Over database)
    (hblind : engine.IgnoresColumns)
    (hroot : engine.rootField? input.selection.name = some root) {load : EagerLoad}
    {filters projection : Option Edit} {query : Query}
    (h : engine.Planned root input load filters projection query)
    (hkeys : (input.selection.children ()).relationKeys (engine.registry.entity root.entity) = []) :
    load.relations = [] ∧ query.attached = (engine.rowQuery root input filters none).attached
      ∧ query.loadModifiers = (engine.rowQuery root input filters none).loadModifiers := by
  obtain ⟨-, -, hmirrors⟩ := Plan.compile_references hover.prefixes h.compiled
  have hempty : load.relations = [] := List.map_eq_nil_iff.mp (hmirrors.keys.trans hkeys)
  have heager : query.eager = (engine.rowQuery root input filters none).eager := by
    rw [h.eager, EagerLoad.isEmpty, hempty]
    exact (h.sameRows hblind hroot).eager
  unfold Query.attached Query.loadModifiers
  rw [heager]
  exact ⟨hempty, rfl, rfl⟩

section Unrelated

variable (input : ResolveInput) (hover : engine.Over database) (hprojectable : database.Projectable)
  (hroot : engine.rootField? input.selection.name = some root)
  (hkeys : (input.selection.children ()).relationKeys (engine.registry.entity root.entity) = [])
  (hnames : ∀ name ∈ (input.selection.children ()).plainNames (engine.registry.entity root.entity),
    Plan.isIntrospection name = false)

include hover hprojectable hroot hkeys hnames

/-- The rows of a root field without relations are shaped as they would be if they were whole. -/
theorem Planned.shaped_whole {load : EagerLoad} {filters projection : Option Edit} {query : Query}
    (h : engine.Planned root input load filters projection query) {nodes : List RelationNode}
    {modifiers : ModifierTable} {skipsUndefined : Bool} {selected loaded : List Row}
    (hselected : ∀ row ∈ selected,
      row ∈ database.table (engine.registry.entity root.entity).table)
    (hloaded : (Database.loadNodes database modifiers skipsUndefined
      (engine.registry.entity root.entity) nodes selected).result = .ok loaded) :
    Shaped.ofValue engine.registry (engine.registry.entity root.entity) input.selection.children
        (relationValue root.cardinality.kind ((loaded.map (project query nodes)).map
          (normalizeRow engine.registry (engine.registry.entity root.entity) [])))
      = Shaped.ofValue engine.registry (engine.registry.entity root.entity) input.selection.children
          (relationValue root.cardinality.kind (loaded.map
            (normalizeRow engine.registry (engine.registry.entity root.entity) []))) := by
  have hentity : engine.registry.entity root.entity ∈ database.registry.entities :=
    hover.registry ▸ hover.roots _ root hroot
  have hrows : ∀ row ∈ selected, Unshadowed (engine.registry.entity root.entity) [] row :=
    fun row hrow => hprojectable.rows _ hentity row (hselected row hrow)
  rw [List.map_map]
  refine Shaped.shapeRows_congr (fun row hrow => ?_) _
  refine congrArg (Except.map Json.obj) (Shaped.shapeFields_plain hkeys (fun name hname => ?_) [])
  refine congrArg (fun value : Option Json => value.getD .null) ?_
  exact Normalized.find?_normalizeRow_project (hover.clear.built _ hentity).toOwnNames
    (hover.clear.clear _ hentity) (hprojectable.stored _ hentity)
    (hprojectable.computable _ hentity)
    hnames (h.covers hover hroot) (Database.loadNodes_unshadowed hloaded hrows row hrow) hname

/-- **What a root field without relations is answered**: its rows with whatever else is attached to
them, normalized and shaped, whether or not they are projected. -/
theorem plain_unrelated (hblind : engine.IgnoresColumns)
    (hcustom : (engine.registry.entity root.entity).customFetch? root.cardinality = none)
    {value : Json} :
    engine.plain input = .ok value
      ↔ (input.selection.children ()).Compilable engine.registry input.bindings
          (engine.registry.entity root.entity)
        ∧ ∃ filters nodes selected loaded,
          Plan.argumentModifier (engine.planContext input) (engine.registry.entity root.entity)
              input.selection.arguments = .ok filters
          ∧ (engine.rowQuery root input filters none).attached = .ok nodes
          ∧ (database.select (engine.rowQuery root input filters none)).result = .ok selected
          ∧ (Database.loadNodes database (engine.rowQuery root input filters none).loadModifiers
              (engine.rowQuery root input filters none).skipsUndefined
              (engine.registry.entity root.entity) nodes selected).result = .ok loaded
          ∧ Shaped.ofValue engine.registry (engine.registry.entity root.entity)
              input.selection.children (relationValue root.cardinality.kind (loaded.map
                (normalizeRow engine.registry (engine.registry.entity root.entity) [])))
          = .ok value := by
  rw [plain_ok hroot hcustom]
  constructor
  · rintro ⟨query, relations, answered, hplan, hrows, hshaped⟩
    obtain ⟨load, filters, projection, rfl, hplanned⟩ := plan_ok.mp hplan
    obtain ⟨hempty, hattached, hmodifiers⟩ := hplanned.unrelated hover hblind hroot hkeys
    have hsame := hplanned.sameRows hblind hroot
    obtain ⟨nodes, selected, loaded, hnodes, hselected, hloaded, rfl⟩ :=
      (hplanned.executed hover hroot).mp hrows
    rw [hempty, hplanned.shaped_whole input hover hprojectable hroot hkeys hnames
      (rowQuery_table hselected) hloaded] at hshaped
    rw [hmodifiers, hsame.skipsUndefined] at hloaded
    exact ⟨Plan.compile_ok_iff.mp ⟨load, hplanned.compiled⟩, filters, nodes, selected, loaded,
      hplanned.arguments, hattached ▸ hnodes, (database.select_sameRows hsame).symm.trans hselected,
      hloaded, hshaped⟩
  · rintro ⟨hcompilable, filters, nodes, selected, loaded, hfilters, hnodes, hselected, hloaded,
      hshaped⟩
    obtain ⟨projection, hprojection⟩ : ∃ projection, Plan.projectionModifier
        (engine.planContext input) (engine.registry.entity root.entity)
        (input.selection.children ()) = .ok projection :=
      Plan.projectionModifier_ok hcompilable.whole
    obtain ⟨query, load, hplan, hplanned⟩ := planned_exists hcompilable hfilters hprojection
    obtain ⟨hempty, hattached, hmodifiers⟩ := hplanned.unrelated hover hblind hroot hkeys
    have hsame := hplanned.sameRows hblind hroot
    have htable := rowQuery_table hselected
    rw [← hmodifiers, ← hsame.skipsUndefined] at hloaded
    refine ⟨query, load.relations, _, hplan, (hplanned.executed hover hroot).mpr
      ⟨nodes, selected, loaded, hattached ▸ hnodes,
        (database.select_sameRows hsame).trans hselected, hloaded, rfl⟩, ?_⟩
    rw [hempty, hplanned.shaped_whole input hover hprojectable hroot hkeys hnames htable hloaded]
    exact hshaped

end Unrelated

/-! ### Answers -/

/-- The engine with select optimization on or off. -/
def selecting (engine : Engine) (selects : Bool) : Engine :=
  { engine with settings :=
    { engine.settings with query := { engine.settings.query with selectOptimization := selects } } }

theorem Over.selecting (h : engine.Over database) (selects : Bool) :
    (engine.selecting selects).Over database where
  registry := h.registry
  executor := h.executor
  clear := h.clear
  roots := h.roots
  prefixes := h.prefixes
  readable := h.readable
  hook := h.hook
  modifier := h.modifier

theorem IgnoresColumns.selecting (h : engine.IgnoresColumns) (selects : Bool) :
    (engine.selecting selects).IgnoresColumns where
  filters := h.filters
  modifier := h.modifier

/-- Whether the root fields of a request that are fetched from tables have clean selections. -/
def CleanFields (engine : Engine) (fields : List RootSelection) : Prop :=
  ∀ selection ∈ fields, ∀ root, engine.rootField? selection.name = some root →
    (engine.registry.entity root.entity).customFetch? root.cardinality = none →
      (selection.children ()).Clean engine.registry (engine.registry.entity root.entity)

/-- A root field with relations is answered the same with select optimization and without it. -/
theorem plain_related {input : ResolveInput} (hover : engine.Over database)
    (hblind : engine.IgnoresColumns) (hprojectable : database.Projectable)
    (hroot : engine.rootField? input.selection.name = some root)
    (hkeys : (input.selection.children ()).relationKeys (engine.registry.entity root.entity) ≠ [])
    (hcustom : (engine.registry.entity root.entity).customFetch? root.cardinality = none)
    (hnamed : (input.selection.children ()).WellNamed)
    (hclean : (input.selection.children ()).Clean engine.registry
      (engine.registry.entity root.entity)) {selects other : Bool} {value : Json}
    (h : (engine.selecting selects).plain input = .ok value) :
    (engine.selecting other).plain input = .ok value := by
  have hattaches : ∀ selects, (engine.selecting selects).AttachesSelected root input :=
    fun _ _ _ _ _ hempty => absurd hempty hkeys
  obtain ⟨hcompilable, filters, projection, rows, members, hfilters, hprojection, hrows, htells,
      hvalue⟩ :=
    (plain_exactly input (hover.selecting selects) hprojectable.computable hroot (hattaches selects)
      hcustom hnamed hclean).mp h
  have hentity : engine.registry.entity root.entity ∈ database.registry.entities :=
    hover.registry ▸ hover.roots _ root hroot
  obtain ⟨projection', hprojection'⟩ : ∃ projection', Plan.projectionModifier
      ((engine.selecting other).planContext input) (engine.registry.entity root.entity)
      (input.selection.children ()) = .ok projection' :=
    Plan.projectionModifier_ok hcompilable.whole
  have hsame : (engine.rowQuery root input filters projection').SameRows
      (engine.rowQuery root input filters projection) :=
    hblind.rowQuery hroot filters hprojection' hprojection
  have hfiltersBlind := Registry.entity_all (hover.registry ▸ hblind.filters)
    fun _ _ hfilter => absurd hfilter List.not_mem_nil
  let reading := engine.reading database root input filters projection
  have htellsOf : (reading.selecting selects).Tells (reading.selecting selects).TellsExactly
      (engine.registry.entity root.entity) rows (input.selection.children ()) members := htells
  have hreading : (engine.selecting other).reading database root input filters projection'
      = reading.selecting other := by
    show Reading.mk _ _ _ (engine.rowQuery root input filters projection').skipsUndefined = _
    rw [hsame.skipsUndefined]
    rfl
  refine (plain_exactly input (hover.selecting other) hprojectable.computable hroot
    (hattaches other)
    hcustom hnamed hclean).mpr ⟨hcompilable, filters, projection', rows, members, hfilters,
      hprojection', (database.select_sameRows hsame).trans hrows, ?_, hvalue⟩
  rw [hreading]
  exact htellsOf.selecting hover.clear hprojectable hfiltersBlind hentity (rowQuery_table hrows)

/-- **A root field is answered the same with select optimization and without it.** -/
theorem plain_selecting (input : ResolveInput) (hover : engine.Over database)
    (hblind : engine.IgnoresColumns) (hprojectable : database.Projectable)
    (hnamed : (input.selection.children ()).WellNamed)
    (hclean : engine.CleanFields [input.selection]) (selects other : Bool) :
    ((engine.selecting selects).plain input).toOption
      = ((engine.selecting other).plain input).toOption := by
  have hsame : (engine.selecting selects).shape input.selection
      = (engine.selecting other).shape input.selection := rfl
  cases hroot : engine.rootField? input.selection.name with
  | none =>
      have hrootOf : ∀ selects, (engine.selecting selects).rootField? input.selection.name = none :=
        fun _ => hroot
      rw [plain_eq, plain_eq, hsame]
      unfold plainResolve
      rw [hrootOf, hrootOf]
  | some root =>
      have hrootOf : ∀ selects,
          (engine.selecting selects).rootField? input.selection.name = some root := fun _ => hroot
      cases hcustom : (engine.registry.entity root.entity).customFetch? root.cardinality with
      | some custom =>
          have hcustomOf : ∀ selects, ((engine.selecting selects).registry.entity
              root.entity).customFetch? root.cardinality = some custom := fun _ => hcustom
          rw [plain_eq, plain_eq, hsame]
          unfold plainResolve
          simp only [hrootOf, hcustomOf]
      | none =>
          have hselection := hclean _ (List.mem_singleton_self _) root hroot hcustom
          refine Outcome.toOption_congr fun value => ?_
          by_cases hkeys : (input.selection.children ()).relationKeys
              (engine.registry.entity root.entity) = []
          · exact (plain_unrelated input (hover.selecting selects) hprojectable hroot hkeys
              hselection.own.2.no_introspection (hblind.selecting selects) hcustom).trans
              (plain_unrelated input (hover.selecting other) hprojectable hroot hkeys
                hselection.own.2.no_introspection (hblind.selecting other) hcustom).symm
          · exact ⟨plain_related hover hblind hprojectable hroot hkeys hcustom hnamed hselection,
              plain_related hover hblind hprojectable hroot hkeys hcustom hnamed hselection⟩

/-- **Select optimization changes no answers** where nothing reads the projection: with it and
without it a request has the same data, and the same of its root fields fail. -/
theorem execute_selecting (hover : engine.Over database) (hblind : engine.IgnoresColumns)
    (hprojectable : database.Projectable) {payload : Json}
    (hclean : ∀ request, AcceptedRequest.ofJson payload = .ok request →
      engine.CleanFields request.fields) (context : RequestContext) :
    let optimized := ((engine.selecting true).uncached.execute payload context .fresh).1.response
    let whole := ((engine.selecting false).uncached.execute payload context .fresh).1.response
    optimized.data = whole.data
      ∧ optimized.errors.map ResponseError.path = whole.errors.map ResponseError.path := by
  dsimp only
  have hshown := fun selects => (engine.selecting selects).execute_uncached payload context .fresh
  cases haccepted : AcceptedRequest.ofJson payload with
  | error error =>
      simp only [haccepted] at hshown
      rw [hshown, hshown]
      exact ⟨rfl, rfl⟩
  | ok request =>
      simp only [haccepted] at hshown
      have hfields : ∀ selection ∈ request.fields,
          ((engine.selecting true).plain
              ⟨selection, request.bindings, payload, context⟩).toOption
            = ((engine.selecting false).plain
              ⟨selection, request.bindings, payload, context⟩).toOption := by
        intro selection hselection
        have hnamed := (AcceptedRequest.ofJson_wellNamed haccepted _ hselection).2.2
        refine plain_selecting _ hover hblind hprojectable hnamed ?_ true false
        intro other hother
        obtain rfl := List.mem_singleton.mp hother
        exact hclean request haccepted _ hselection
      let view (selects : Bool) : View := (engine.selecting selects).plainFields payload
        request.bindings (fun _ => context) request.fields ([], [])
      have hview : (view true).1 = (view false).1
          ∧ (view true).2.map ResponseError.path = (view false).2.map ResponseError.path :=
        plainFields_values (engine.selecting true) (engine.selecting false) hfields rfl rfl
      have hdata : ∀ selects,
          ((engine.selecting selects).uncached.execute payload context .fresh).1.response.data
            = .obj (view selects).1 := fun selects => congrArg Prod.fst (hshown selects)
      have herrors : ∀ selects,
          ((engine.selecting selects).uncached.execute payload context .fresh).1.response.errors
            = (view selects).2 := fun selects => congrArg Prod.snd (hshown selects)
      rw [hdata, hdata, herrors, herrors]
      exact ⟨congrArg Json.obj hview.1, hview.2⟩

end Engine

/-! ### Authors and their posts -/

namespace Blog

theorem tables_projectable : tables.Projectable :=
  ⟨tables_storedApart, tables_computable, tables_unshadowed⟩

theorem authorSelection_clean : (answering {}).CleanFields [authorSelection] := by
  intro selection hselection root hroot _
  obtain rfl := List.mem_singleton.mp hselection
  obtain rfl : authorsRoot = root := Option.some.inj hroot
  exact authorFields_clean

end Blog

namespace Engine

/-- Authors are answered the same whether or not their columns are selected. -/
theorem execute_selecting_blog :
    let optimized := (((Blog.answering {}).selecting true).uncached.execute Blog.payload .empty
      .fresh).1.response
    let whole := (((Blog.answering {}).selecting false).uncached.execute Blog.payload .empty
      .fresh).1.response
    optimized.data = whole.data
      ∧ optimized.errors.map ResponseError.path = whole.errors.map ResponseError.path
      ∧ ∃ value, whole.data.member? "authors" = some value
        ∧ value.same Blog.authorsAnswer = true := by
  have hplain : (((Blog.answering {}).selecting false).plain
      ⟨Blog.authorSelection, [], Blog.payload, .empty⟩).toOption.any
        (fun value => value.same Blog.authorsAnswer) = true := by decide +kernel
  obtain ⟨value, hvalue, hsame⟩ := Outcome.ok_of_any hplain
  have htype : Blog.authorSelection.name ≠ "__typename" := by decide
  obtain ⟨hdata, -⟩ := ((Blog.answering {}).selecting false).execute_own_ok Blog.accepted
    (List.nodup_singleton _) (List.mem_singleton_self _) htype hvalue .fresh
  have hclean : ∀ request, AcceptedRequest.ofJson Blog.payload = .ok request →
      (Blog.answering {}).CleanFields request.fields := by
    intro request hrequest
    obtain rfl := Except.ok.inj (Blog.accepted.symm.trans hrequest)
    exact Blog.authorSelection_clean
  obtain ⟨hsameData, hpaths⟩ := execute_selecting (Blog.answering_over rfl)
    (Blog.answering_ignoresColumns {}) Blog.tables_projectable hclean .empty
  exact ⟨hsameData, hpaths, value, hdata, hsame⟩

end Engine

/-! ### What is attached, read as it was fetched -/

namespace Pages

/-- Pages link to others and are followed by one, by columns that clients know nothing of. -/
def page : Registration :=
  let start : Registration := { name := "Page", table := "pages" }
  start
    |>.column "id"
    |>.relation "links" .many "Page" (Blog.join "id" "from")
    |>.relation "next" .one "Page" (Blog.join "to" "id")

def pages : List Row := [
  [("id", Blog.number 1), ("from", Blog.number 1), ("to", Blog.number 0)],
  [("id", .arr [.obj [("id", Blog.number 1)]])],
  [("id", .obj [("id", Blog.number 1)])],
  [("id", Blog.number 4), ("from", .obj [("id", Blog.number 1)]), ("to", Blog.number 1)]]

def database : Database := ⟨((Registry.build [page]).toOption).getD default, [("pages", pages)]⟩

/-- An engine over pages, whose root field has a modifier or none. -/
def answering (modifier : Option Edit) : Engine where
  registry := database.registry
  settings := {}
  executor := database.execute
  rootFields := [("pages", ⟨"pages", 0, .list, modifier⟩)]
  hook := fun _ => []
  hasCache := false

/-- A payload with a document, and what it selects of pages. -/
structure Asked where
  document : String
  selections : List Selection

def Asked.payload (asked : Asked) : Json := .obj [("query", .str asked.document)]

def Asked.selection (asked : Asked) : RootSelection :=
  WrittenField.root [] ⟨"pages", none, [], [], asked.selections⟩

/-- A field without a relation that is named like what a relation attaches. -/
def copied : Asked where
  document := "\x7b pages \x7b recent: links \x7b id \x7d copy: recent \x7d \x7d"
  selections := [.field "links" (some "recent") [] [] [.leaf "id"],
    .field "recent" (some "copy") [] [] []]

/-- A relation in the place of a key that its sibling joins by. -/
def joined : Asked where
  document := "\x7b pages \x7b to: links \x7b id \x7d next \x7b id \x7d \x7d \x7d"
  selections := [.field "links" (some "to") [] [] [.leaf "id"],
    .field "next" none [] [] [.leaf "id"]]

/-- A relation in the place of the key by which its owner was found. -/
def found : Asked where
  document := "\x7b pages \x7b links \x7b from: next \x7b id \x7d \x7d \x7d \x7d"
  selections := [.field "links" none [] [] [.field "next" (some "from") [] [] [.leaf "id"]]]

/-- A plain field, whatever is done to its rows. -/
def listed : Asked where
  document := "\x7b pages \x7b id \x7d \x7d"
  selections := [.leaf "id"]

/-- Asks for one row only where it finds a projection. -/
def shortened : Edit := .look fun seen => if seen.columns.isSome then [.limit 1] else []

/-- It sets no projection itself. -/
theorem shortened_keeps : Keeps Query.columns [shortened] := by
  refine .single fun query => ?_
  unfold shortened
  rw [Query.apply]
  split <;> rfl

theorem listed_accepted : AcceptedRequest.ofJson listed.payload = .ok ⟨[], [listed.selection]⟩ :=
  (AcceptedRequest.ofJson_query _).trans rfl

theorem copied_accepted : AcceptedRequest.ofJson copied.payload = .ok ⟨[], [copied.selection]⟩ :=
  (AcceptedRequest.ofJson_query _).trans rfl

theorem joined_accepted : AcceptedRequest.ofJson joined.payload = .ok ⟨[], [joined.selection]⟩ :=
  (AcceptedRequest.ofJson_query _).trans rfl

theorem found_accepted : AcceptedRequest.ofJson found.payload = .ok ⟨[], [found.selection]⟩ :=
  (AcceptedRequest.ofJson_query _).trans rfl

/-- Whether something asked of pages is answered, but not the same without select optimization. -/
def Differs (modifier : Option Edit) (asked : Asked) : Prop :=
  let input : ResolveInput := ⟨asked.selection, [], asked.payload, .empty⟩
  ∃ optimized whole, ((answering modifier).selecting true).plain input = .ok optimized
    ∧ ((answering modifier).selecting false).plain input = .ok whole ∧ optimized.same whole = false

theorem differs_of_any {modifier : Option Edit} {asked : Asked}
    (h : (((answering modifier).selecting true).plain
        ⟨asked.selection, [], asked.payload, .empty⟩).toOption.any (fun optimized =>
      (((answering modifier).selecting false).plain
        ⟨asked.selection, [], asked.payload, .empty⟩).toOption.any fun whole =>
          !optimized.same whole) = true) : Differs modifier asked := by
  obtain ⟨optimized, hoptimized, h⟩ := Outcome.ok_of_any h
  obtain ⟨whole, hwhole, h⟩ := Outcome.ok_of_any h
  exact ⟨optimized, whole, hoptimized, hwhole, by simpa using h⟩

end Pages

/-- **Select optimization changes what is read of attached rows**: of pages with one column and no
attributes, whose relations answer under keys that are no columns, a field that is named like such
a key is answered otherwise, and so are relations that are joined by a column of that name.  It
changes what is read of queries as well: a modifier of the root field that sets no projection, but
reads one, has fewer rows fetched. -/
theorem Engine.selecting_differs :
    (Pages.database.registry.entity 0).columns = [("id", ⟨"id", "id", false⟩)]
      ∧ (Pages.database.registry.entity 0).virtuals = []
      ∧ (AcceptedRequest.ofJson Pages.copied.payload = .ok ⟨[], [Pages.copied.selection]⟩
        ∧ Pages.Differs none Pages.copied)
      ∧ (AcceptedRequest.ofJson Pages.joined.payload = .ok ⟨[], [Pages.joined.selection]⟩
        ∧ Pages.Differs none Pages.joined)
      ∧ (AcceptedRequest.ofJson Pages.found.payload = .ok ⟨[], [Pages.found.selection]⟩
        ∧ Pages.Differs none Pages.found)
      ∧ AcceptedRequest.ofJson Pages.listed.payload = .ok ⟨[], [Pages.listed.selection]⟩
        ∧ Keeps Query.columns [Pages.shortened]
        ∧ Pages.Differs (some Pages.shortened) Pages.listed := by
  refine ⟨rfl, rfl, ⟨Pages.copied_accepted, ?_⟩, ⟨Pages.joined_accepted, ?_⟩,
    ⟨Pages.found_accepted, ?_⟩, Pages.listed_accepted, Pages.shortened_keeps, ?_⟩
  · exact Pages.differs_of_any (by decide +kernel)
  · exact Pages.differs_of_any (by decide +kernel)
  · exact Pages.differs_of_any (by decide +kernel)
  · exact Pages.differs_of_any (by decide +kernel)

end GraphFetch
