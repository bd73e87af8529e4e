/-
Places that are looked up.

Entities refer to each other by places, and a place is looked up without asking whether there is
an entity.  In a built registry there always is: a root field is bound to the place of an entity,
and from an entity every relation leads to one.  So whatever stood behind the last entity would
not be seen, by any pass over any selection.
-/
import GraphFetch.Proofs.Engine.RootFields
import GraphFetch.Proofs.Schema.Closed

namespace GraphFetch

/-! ### Entities behind the last -/

namespace Registry

/-- The registry with more entities behind its own. -/
def extend (registry : Registry) (more : List Entity) : Registry := ⟨registry.entities ++ more⟩

/-- Whether the relations of entities lead to places where there is an entity. -/
def InBounds (registry : Registry) : Prop :=
  ∀ entity ∈ registry.entities, ∀ name relation, entity.relation? name = some relation →
    relation.target < registry.entities.length

variable {registry : Registry}

theorem extend_entity {id : EntityId} (h : id < registry.entities.length) (more : List Entity) :
    (registry.extend more).entity id = registry.entity id := by
  simp [Registry.entity, extend, List.getElem?_append_left h]

theorem entity_mem {id : EntityId} (h : id < registry.entities.length) :
    registry.entity id ∈ registry.entities := by
  rw [entity_of_lt h]
  exact List.getElem_mem h

/-- A relation leads to an entity that is there, and to the same one with more behind it. -/
theorem InBounds.target (h : registry.InBounds) (more : List Entity) {entity : Entity}
    (hentity : entity ∈ registry.entities) {name : String} {relation : Relation}
    (hrelation : entity.relation? name = some relation) :
    (registry.extend more).entity relation.target = registry.entity relation.target
      ∧ registry.entity relation.target ∈ registry.entities :=
  have hlt := h entity hentity name relation hrelation
  ⟨extend_entity hlt more, entity_mem hlt⟩

theorem Follows.length {registrations : List Registration} (h : registry.Follows registrations) :
    registry.entities.length = registrations.length := by
  rw [← List.length_map Entity.name, h.names, List.length_map]

theorem Follows.inBounds {registrations : List Registration} (h : registry.Follows registrations) :
    registry.InBounds := by
  intro entity hentity name relation hrelation
  obtain ⟨hlt, heq⟩ := h.entity_id entity hentity
  rw [← heq, h.relation? _ _ (List.getElem?_eq_getElem hlt)] at hrelation
  obtain ⟨pending, hpending, rfl⟩ := Option.map_eq_some_iff.mp hrelation
  rw [h.length]
  exact (h.target _ (List.getElem_mem hlt) pending
    (List.mem_reverse.mp (List.mem_of_find?_eq_some hpending))).1

end Registry

/-! ### Passes -/

namespace Plan

variable {registry : Registry}

theorem compileFields_extend (hbounds : registry.InBounds) (more : List Entity)
    (bindings : Variables) (settings : QuerySettings) {selected : Selected} {entity : Entity}
    (hentity : entity ∈ registry.entities)
    (taken : List String) (naming : Naming) :
    compileFields ⟨registry.extend more, bindings, settings⟩ entity taken selected naming
      = compileFields ⟨registry, bindings, settings⟩ entity taken selected naming := by
  induction selected generalizing entity taken naming with
  | none => rfl
  | missing fragment rest => rfl
  | field name asName arguments children rest ihChildren ihRest =>
      rw [compileFields, compileFields]
      cases hrelation : entity.relation? name with
      | none => exact ihRest hentity taken naming
      | some relation =>
          obtain ⟨htarget, hmem⟩ := hbounds.target more hentity hrelation
          have hown : ∀ target naming, nameModifiers ⟨registry.extend more, bindings, settings⟩
              target arguments (children ()) naming
                = nameModifiers ⟨registry, bindings, settings⟩ target arguments (children ())
                    naming := fun _ _ => rfl
          simp only [htarget, hown, ihRest hentity, ihChildren () hmem]

theorem compile_extend (hbounds : registry.InBounds) (more : List Entity) (bindings : Variables)
    (settings : QuerySettings) (selected : Selected) {entity : Entity}
    (hentity : entity ∈ registry.entities) :
    compile ⟨registry.extend more, bindings, settings⟩ entity selected
      = compile ⟨registry, bindings, settings⟩ entity selected := by
  unfold compile
  rw [compileFields_extend hbounds more bindings settings hentity]

end Plan

namespace Normalized

variable {registry : Registry}

mutual

theorem normalizeNode_extend (hbounds : registry.InBounds) (more : List Entity) :
    ∀ (node : RelationNode) {entity : Entity} (row : Row), entity ∈ registry.entities →
      normalizeNode (registry.extend more) entity row node = normalizeNode registry entity row node
  | ⟨name, asName, modifiers, children⟩, entity, row, hentity => by
    rw [normalizeNode, normalizeNode]
    cases hrelation : entity.relation? name with
    | none => rfl
    | some relation =>
        obtain ⟨htarget, hmem⟩ := hbounds.target more hentity hrelation
        cases Named.find? (asName.getD name) row with
        | none => rfl
        | some value =>
            simp only [htarget, normalizeNodes_extend hbounds more children _ hmem]

theorem normalizeNodes_extend (hbounds : registry.InBounds) (more : List Entity) :
    ∀ (nodes : List RelationNode) {entity : Entity} (row : Row), entity ∈ registry.entities →
      normalizeNodes (registry.extend more) entity row nodes
        = normalizeNodes registry entity row nodes
  | [], _, _, _ => by rw [normalizeNodes, normalizeNodes]
  | node :: rest, _, row, hentity => by
    rw [normalizeNodes, normalizeNodes, normalizeNode_extend hbounds more node row hentity]
    exact normalizeNodes_extend hbounds more rest _ hentity

end

theorem ofRows_extend (hbounds : registry.InBounds) (more : List Entity) {entity : Entity}
    (hentity : entity ∈ registry.entities)
    (relations : List RelationNode) (cardinality : Cardinality) (rows : List Row) :
    ofRows (registry.extend more) entity relations cardinality rows
      = ofRows registry entity relations cardinality rows := by
  unfold ofRows normalizeRow
  simp only [normalizeNodes_extend hbounds more relations _ hentity]

end Normalized

namespace Shaped

variable {registry : Registry}

theorem shapeFields_extend (hbounds : registry.InBounds) (more : List Entity)
    {selected : Selected} {entity : Entity} (hentity : entity ∈ registry.entities) (row : Row)
    (output : List (String × Json)) :
    shapeFields (registry.extend more) entity row output selected
      = shapeFields registry entity row output selected := by
  induction selected generalizing entity row output with
  | none => rfl
  | missing fragment rest => rfl
  | field name asName arguments children rest ihChildren ihRest =>
      rw [shapeFields, shapeFields]
      cases hrelation : entity.relation? name with
      | none => simp only [ihRest hentity]
      | some relation =>
          obtain ⟨htarget, hmem⟩ := hbounds.target more hentity hrelation
          simp only [htarget, ihRest hentity, ihChildren () hmem]

theorem ofValue_extend (hbounds : registry.InBounds) (more : List Entity) {entity : Entity}
    (hentity : entity ∈ registry.entities) (selected : Unit → Selected) (value : Json) :
    ofValue (registry.extend more) entity selected value
      = ofValue registry entity selected value := by
  unfold ofValue ofRow
  simp only [shapeFields_extend hbounds more hentity]

end Shaped

namespace Database

/-- The database with more entities behind those it knows. -/
def extend (database : Database) (more : List Entity) : Database :=
  { database with registry := database.registry.extend more }

variable {database : Database}

mutual

theorem loadNode_extend (hbounds : database.registry.InBounds) (more : List Entity)
    (modifiers : ModifierTable) (skipsUndefined : Bool) :
    ∀ (node : RelationNode) {entity : Entity} (rows : List Row),
      entity ∈ database.registry.entities →
        (database.extend more).loadNode modifiers skipsUndefined entity node rows
          = database.loadNode modifiers skipsUndefined entity node rows
  | ⟨name, asName, references, children⟩, entity, rows, hentity => by
    rw [loadNode, loadNode]
    cases hrelation : entity.relation? name with
    | none => rfl
    | some relation =>
        obtain ⟨htarget, hmem⟩ := hbounds.target more hentity hrelation
        simp only [show (database.extend more).registry.entity relation.target = _ from htarget,
          loadNodes_extend hbounds more modifiers skipsUndefined children _ hmem]
        rfl

theorem loadNodes_extend (hbounds : database.registry.InBounds) (more : List Entity)
    (modifiers : ModifierTable) (skipsUndefined : Bool) :
    ∀ (nodes : List RelationNode) {entity : Entity} (rows : List Row),
      entity ∈ database.registry.entities →
        (database.extend more).loadNodes modifiers skipsUndefined entity nodes rows
          = database.loadNodes modifiers skipsUndefined entity nodes rows
  | [], _, _, _ => by rw [loadNodes, loadNodes]
  | node :: rest, _, rows, hentity => by
    rw [loadNodes, loadNodes,
      loadNode_extend hbounds more modifiers skipsUndefined node rows hentity]
    simp only [loadNodes_extend hbounds more modifiers skipsUndefined rest _ hentity]

end

theorem execute_extend (hbounds : database.registry.InBounds) (more : List Entity) {query : Query}
    (hentity : query.entity < database.registry.entities.length) :
    (database.extend more).execute query = database.execute query := by
  unfold execute
  have htarget : (database.extend more).registry.entity query.entity
      = database.registry.entity query.entity := Registry.extend_entity hentity more
  simp only [htarget, loadNodes_extend hbounds more _ _ _ _ (Registry.entity_mem hentity)]
  rfl

end Database

/-! ### Engines -/

namespace Engine

/-- The engine over a database, with more entities behind those that both know. -/
def extend (engine : Engine) (database : Database) (more : List Entity) : Engine :=
  { engine with
    registry := engine.registry.extend more
    executor := (database.extend more).execute }

/-- Whether an engine answers from a database whose relations, like its own root fields, lead to
places where there is an entity. -/
structure InBounds (engine : Engine) (database : Database) : Prop where
  registry : engine.registry = database.registry
  executor : engine.executor = database.execute
  relations : engine.registry.InBounds
  root : ∀ name root, engine.rootField? name = some root →
    root.entity < engine.registry.entities.length
      ∧ (engine.registry.entity root.entity).id = root.entity

variable {engine : Engine} {database : Database} {root : BoundRootField} {input : ResolveInput}

/-- A root field is bound to an entity that is there, and to the same one with more behind it. -/
theorem InBounds.root_entity (h : engine.InBounds database) (more : List Entity) {name : String}
    (hroot : engine.rootField? name = some root) :
    (engine.extend database more).registry.entity root.entity = engine.registry.entity root.entity
      ∧ engine.registry.entity root.entity ∈ engine.registry.entities :=
  have hlt := (h.root name root hroot).1
  ⟨Registry.extend_entity hlt more, Registry.entity_mem hlt⟩

theorem plan_extend (hbounds : engine.InBounds database) (more : List Entity)
    (hroot : engine.rootField? input.selection.name = some root) :
    (engine.extend database more).plan root input = engine.plan root input := by
  obtain ⟨hentity, hmem⟩ := hbounds.root_entity more hroot
  have hcompile : ∀ selected,
      Plan.compile ((engine.extend database more).planContext input)
          (engine.registry.entity root.entity) selected
        = Plan.compile (engine.planContext input) (engine.registry.entity root.entity) selected :=
    fun selected => Plan.compile_extend hbounds.relations more _ _ selected hmem
  unfold planContext at hcompile
  unfold plan
  simp only [hentity, hcompile]
  rfl

theorem plan_entity {query : Query} {relations : List RelationNode}
    (h : engine.plan root input = .ok (query, relations)) :
    query.entity = (engine.registry.entity root.entity).id := by
  obtain ⟨load, filters, projection, -, hplanned⟩ := plan_ok.mp h
  exact hplanned.entity

theorem fetch_extend (hbounds : engine.InBounds database) (more : List Entity)
    (hroot : engine.rootField? input.selection.name = some root) :
    (engine.extend database more).fetch root input = engine.fetch root input := by
  obtain ⟨hlt, hid⟩ := hbounds.root _ root hroot
  obtain ⟨hentity, hmem⟩ := hbounds.root_entity more hroot
  unfold fetch
  rw [plan_extend hbounds more hroot, hentity]
  cases hplan : engine.plan root input with
  | error error => rfl
  | ok planned =>
      obtain ⟨query, relations⟩ := planned
      have hquery : query.entity < database.registry.entities.length := by
        rw [plan_entity hplan, hid, ← hbounds.registry]
        exact hlt
      have hrun : (engine.extend database more).executor query = engine.executor query := by
        rw [hbounds.executor]
        exact Database.execute_extend (hbounds.registry ▸ hbounds.relations) more hquery
      have hrows : ∀ rows, Normalized.ofRows (engine.extend database more).registry
          (engine.registry.entity root.entity) relations root.cardinality rows
            = Normalized.ofRows engine.registry (engine.registry.entity root.entity) relations
                root.cardinality rows :=
        Normalized.ofRows_extend hbounds.relations more hmem _ _
      simp only [hrun, hrows]

theorem resolve_extend (hbounds : engine.InBounds database) (more : List Entity)
    (input : ResolveInput) :
    (engine.extend database more).resolve input = engine.resolve input := by
  unfold resolve
  rw [show (engine.extend database more).rootField? input.selection.name
    = engine.rootField? input.selection.name from rfl]
  cases hroot : engine.rootField? input.selection.name with
  | none => rfl
  | some root =>
      dsimp only
      unfold resolveBound
      rw [(hbounds.root_entity more hroot).1, fetch_extend hbounds more hroot]
      rfl

theorem shape_extend (hbounds : engine.InBounds database) (more : List Entity)
    (selection : RootSelection) (value : Json) :
    (engine.extend database more).shape selection value = engine.shape selection value := by
  unfold shape
  rw [show (engine.extend database more).rootField? selection.name
    = engine.rootField? selection.name from rfl]
  cases hroot : engine.rootField? selection.name with
  | none => rfl
  | some root =>
      obtain ⟨hentity, hmem⟩ := hbounds.root_entity more hroot
      dsimp only
      rw [hentity]
      exact congrArg _ (Shaped.ofValue_extend hbounds.relations more hmem _ _)

theorem addAnswer_extend (hbounds : engine.InBounds database) (more : List Entity)
    (input : ResolveInput) (answers : Answers) :
    (engine.extend database more).addAnswer input answers = engine.addAnswer input answers := by
  have hanswer : (engine.extend database more).answer input = engine.answer input := by
    unfold answer
    simp only [resolve_extend hbounds more input, shape_extend hbounds more]
  unfold addAnswer
  rw [hanswer]

theorem addAnswers_extend (hbounds : engine.InBounds database) (more : List Entity) (payload : Json)
    (context : RequestContext) (bindings : Variables) (fields : List RootSelection)
    (answers : Answers) :
    (engine.extend database more).addAnswers payload context bindings fields answers
      = engine.addAnswers payload context bindings fields answers := by
  induction fields generalizing answers with
  | nil => rfl
  | cons selection rest ih =>
      rw [addAnswers, addAnswers, addAnswer_extend hbounds more]
      exact congrArg _ (funext ih)

/-- Requests are answered without a look behind the last entity. -/
theorem execute_extend (hbounds : engine.InBounds database) (more : List Entity) (payload : Json)
    (context : RequestContext) :
    (engine.extend database more).execute payload context = engine.execute payload context := by
  unfold execute
  cases AcceptedRequest.ofJson payload with
  | error error => rfl
  | ok request => simp only [addAnswers_extend hbounds more]

/-- An engine that was built over the registry of its database stays within it. -/
theorem build_inBounds {registrations : List Registration}
    (hfollows : database.registry.Follows registrations)
    {settings : Settings} {fields : List RootField} {hook : QueryHook} {hasCache : Bool}
    (h : build database.registry settings database.execute fields hook hasCache = .ok engine) :
    engine.InBounds database := by
  obtain ⟨hregistry, hexecutor, -⟩ := build_parts h
  refine ⟨hregistry, hexecutor, hregistry ▸ hfollows.inBounds, fun name root hroot => ?_⟩
  obtain ⟨-, field, -, hbind⟩ := bind_of_rootField? h hroot
  obtain ⟨entity, hfind, rfl⟩ := bind_ok.mp hbind
  obtain ⟨hlt, heq⟩ := hfollows.entity_id entity (Registry.mem_of_find? hfind)
  rw [hregistry, heq, hfollows.length]
  exact ⟨hlt, rfl⟩

end Engine

/-! ### Built registries -/

namespace Registry

/-- Whether no pass that starts at an entity of a registry, over any selection or load, can tell
that there are more entities behind the last. -/
structure Hides (registry : Registry) (more : List Entity) : Prop where
  compile : ∀ entity ∈ registry.entities, ∀ bindings settings selected,
    Plan.compile ⟨registry.extend more, bindings, settings⟩ entity selected
      = Plan.compile ⟨registry, bindings, settings⟩ entity selected
  load : ∀ entity ∈ registry.entities, ∀ database : Database, database.registry = registry →
    ∀ modifiers skipsUndefined nodes rows,
      (database.extend more).loadNodes modifiers skipsUndefined entity nodes rows
        = database.loadNodes modifiers skipsUndefined entity nodes rows
  normalize : ∀ entity ∈ registry.entities, ∀ relations cardinality rows,
    Normalized.ofRows (registry.extend more) entity relations cardinality rows
      = Normalized.ofRows registry entity relations cardinality rows
  shape : ∀ entity ∈ registry.entities, ∀ selected value,
    Shaped.ofValue (registry.extend more) entity selected value
      = Shaped.ofValue registry entity selected value

theorem InBounds.hides {registry : Registry} (h : registry.InBounds) (more : List Entity) :
    registry.Hides more where
  compile _ hentity bindings settings selected :=
    Plan.compile_extend h more bindings settings selected hentity
  load _ hentity database hdatabase modifiers skipsUndefined nodes rows := by
    subst hdatabase
    exact Database.loadNodes_extend h more modifiers skipsUndefined nodes rows hentity
  normalize _ hentity relations cardinality rows :=
    Normalized.ofRows_extend h more hentity relations cardinality rows
  shape _ hentity selected value := Shaped.ofValue_extend h more hentity selected value

/-- **A built registry is closed.**  Registrations make a registry exactly if their names are
distinct and every relation that is declared has a target with one of them; of names that repeat
the first repeated one is reported, and else the first target that is missing.  The registry has
every entity at its own place and finds it by its name, relations lead to the entities that were
declared for them, and root fields are bound to the entities that they name.  So no pass over a
selection, and no request to an engine that was built over the registry, ever looks behind the last
entity. -/
theorem build_closed (registrations : List Registration) :
    let names := registrations.map (·.name)
    ((∃ registry, build registrations = .ok registry)
        ↔ names.Nodup ∧ ∀ registration ∈ registrations, registration.Known names)
      ∧ (¬ names.Nodup → ∃ name, FirstRepeated names name
          ∧ build registrations = .error (.duplicateEntity name))
      ∧ (names.Nodup → ¬ (∀ registration ∈ registrations, registration.Known names) →
          ∃ before registration after pending, registrations = before ++ registration :: after
            ∧ (∀ earlier ∈ before, earlier.Known names) ∧ registration.FirstMissing names pending
            ∧ build registrations
              = .error (.missingTarget registration.name pending.name pending.target))
      ∧ ∀ registry, build registrations = .ok registry →
          registry.Follows registrations ∧ registry.Built ∧ registry.InBounds
            ∧ (∀ (field : RootField) root, field.bind registry = .ok root →
                root.entity < registrations.length
                  ∧ (registry.entity root.entity).name = field.entity)
            ∧ ∀ more, registry.Hides more
                ∧ ∀ database : Database, database.registry = registry →
                    ∀ settings fields hook hasCache engine,
                      Engine.build registry settings database.execute fields hook hasCache
                          = .ok engine →
                        ∀ payload context, (engine.extend database more).execute payload context
                          = engine.execute payload context := by
  intro names
  refine ⟨⟨?_, ?_⟩, build_repeated, build_missing, ?_⟩
  · rintro ⟨registry, hbuild⟩
    obtain ⟨hnodup, hknown, -⟩ := build_known hbuild
    exact ⟨hnodup, hknown⟩
  · rintro ⟨hnodup, hknown⟩
    obtain ⟨entities, hentities⟩ := buildFrom_known hknown 0
    refine ⟨⟨entities⟩, ?_⟩
    rw [build_distinct hnodup, hentities]
    rfl
  · intro registry hbuild
    have hfollows := build_follows hbuild
    refine ⟨hfollows, build_built hbuild, hfollows.inBounds, ?_, fun more =>
      ⟨hfollows.inBounds.hides more, ?_⟩⟩
    · intro field root hbind
      obtain ⟨entity, hfind, rfl⟩ := Engine.bind_ok.mp hbind
      obtain ⟨hlt, heq⟩ := hfollows.entity_id entity (mem_of_find? hfind)
      rw [heq]
      exact ⟨hlt, name_of_find? hfind⟩
    · rintro database rfl settings fields hook hasCache engine hengine payload context
      exact Engine.execute_extend (Engine.build_inBounds hfollows hengine) more payload context

end Registry

/-! ### People and pets -/

namespace Kin

/-- People have friends among people and pets; where they live first stood for their pets. -/
def person : Registration :=
  { name := "Person", table := "people" : Registration }.column "id"
    |>.relation "friend" .one "Person" ⟨"friend_id", "id", none⟩
    |>.relation "pets" .one "Person" ⟨"home_id", "id", none⟩
    |>.relation "pets" .many "Pet" ⟨"id", "owner_id", none⟩

def pet : Registration :=
  { name := "Pet", table := "pets" : Registration }.column "id"
    |>.relation "owner" .one "Person" ⟨"owner_id", "id", none⟩

/-- A house is nowhere registered. -/
def lodger : Registration :=
  { name := "Lodger", table := "lodgers" : Registration }.relation "house" .one "House"
    ⟨"house_id", "id", none⟩

def registry : Registry := ((Registry.build [person, pet]).toOption).getD default

def database : Database := ⟨registry, [("people", [[("id", .num (.int 1))]])]⟩

def rootFields : List RootField := [⟨"people", "Person", .list, none⟩]

def house : Engine where
  registry := database.registry
  settings := {}
  executor := database.execute
  rootFields := ((RootField.bindAll database.registry rootFields).toOption).getD []
  hook := fun _ => []
  hasCache := false

theorem registry_built : Registry.build [person, pet] = .ok registry := rfl

theorem house_built : Engine.build registry {} database.execute rootFields (fun _ => []) false
    = .ok house := rfl

end Kin

namespace Registry

/-- A relation to the entity itself, two back and forth, and one that is declared twice. -/
theorem build_closed_kin :
    let names := ["Person", "Pet", "Person", "Lodger"]
    [Kin.person, Kin.pet, Kin.person, Kin.lodger].map (·.name) = names
      ∧ (∃ name, FirstRepeated names name ∧ build [Kin.person, Kin.pet, Kin.person, Kin.lodger]
          = .error (.duplicateEntity name))
      ∧ build [Kin.person, Kin.pet] = .ok Kin.registry
      ∧ Kin.registry.Follows [Kin.person, Kin.pet] ∧ Kin.registry.InBounds
      ∧ (Kin.registry.entity 0).relation? "friend"
          = some ⟨"friend", .one, 0, ⟨"friend_id", "id", none⟩⟩
      ∧ (Kin.registry.entity 0).relation? "pets"
          = some ⟨"pets", .many, 1, ⟨"id", "owner_id", none⟩⟩
      ∧ ∀ more payload context, (Kin.house.extend Kin.database more).execute payload context
          = Kin.house.execute payload context := by
  obtain ⟨-, hrepeated, -, -⟩ := build_closed [Kin.person, Kin.pet, Kin.person, Kin.lodger]
  obtain ⟨-, -, -, hbuilt⟩ := build_closed [Kin.person, Kin.pet]
  obtain ⟨hfollows, -, hbounds, -, hmore⟩ := hbuilt Kin.registry Kin.registry_built
  refine ⟨rfl, hrepeated (by decide), Kin.registry_built, hfollows, hbounds, by decide,
    by decide, ?_⟩
  intro more payload context
  exact (hmore more).2 Kin.database rfl _ _ _ _ _ Kin.house_built payload context

end Registry

end GraphFetch
