/-
What a built registry holds.

Every entity is found at its own place and every relation leads to an entity of the
registry, so the default that `Registry.entity` gives at an unknown place is never
met.  Columns, relations and attributes stand under their own names, each once.
-/
import GraphFetch.Schema.Builder
import GraphFetch.Proofs.Json.Named
import GraphFetch.Proofs.Outcome

namespace GraphFetch

/-- Entries of an entity stand under their own names, each once. -/
structure Entity.OwnNames (entity : Entity) : Prop where
  columns_distinct : Named.Distinct entity.columns
  relations_distinct : Named.Distinct entity.relations
  virtuals_distinct : Named.Distinct entity.virtuals
  column_name : ∀ name column, (name, column) ∈ entity.columns → column.name = name
  relation_name : ∀ name relation, (name, relation) ∈ entity.relations → relation.name = name
  virtual_name : ∀ name virtual, (name, virtual) ∈ entity.virtuals → virtual.name = name

/-- What building guarantees of an entity of a registry. -/
structure Entity.Registered (registry : Registry) (entity : Entity) : Prop
    extends entity.OwnNames where
  entity_id : registry.entity entity.id = entity
  target_mem : ∀ name relation, (name, relation) ∈ entity.relations →
    registry.entity relation.target ∈ registry.entities

/-- Whether a registry is one that building gives. -/
def Registry.Built (registry : Registry) : Prop :=
  ∀ entity ∈ registry.entities, entity.Registered registry

/-! ### One entity -/

namespace Registration

/-- Entries that are listed under their own names stand under them. -/
theorem name_ofList {α : Type} {nameOf : α → String} {items : List α} {name : String} {item : α}
    (h : (name, item) ∈ Named.ofList (items.map fun item => (nameOf item, item))) :
    nameOf item = name := by
  obtain ⟨other, -, heq⟩ := List.mem_map.mp (Named.mem_ofList h)
  cases heq
  rfl

theorem resolveRelation_ok {names : List String} {entity : String} {pending : PendingRelation}
    {name : String} {relation : Relation}
    (h : resolveRelation names entity pending = .ok (name, relation)) :
    relation.name = name ∧ relation.target < names.length := by
  unfold resolveRelation at h
  cases hfind : names.idxOf? pending.target with
  | none => simp [hfind] at h
  | some target =>
      rw [hfind] at h
      cases h
      obtain ⟨hlt, -⟩ := List.findIdx?_eq_some_iff_getElem.mp hfind
      exact ⟨rfl, hlt⟩

theorem build_ok {names : List String} {id : EntityId} {registration : Registration}
    {entity : Entity} (h : registration.build names id = .ok entity) :
    entity.id = id ∧ entity.OwnNames
      ∧ ∀ name relation, (name, relation) ∈ entity.relations →
          relation.target < names.length := by
  unfold build at h
  obtain ⟨relations, hrelations, heq⟩ := Outcome.bind_ok.mp h
  obtain rfl := Outcome.pure_ok.mp heq
  have hresolved : ∀ name relation, (name, relation) ∈ Named.ofList relations →
      relation.name = name ∧ relation.target < names.length := by
    intro name relation hmem
    obtain ⟨pending, -, hpending⟩ := Outcome.mem_mapM hrelations (Named.mem_ofList hmem)
    exact resolveRelation_ok hpending
  refine ⟨rfl, ⟨Named.distinct_ofList _, Named.distinct_ofList _, Named.distinct_ofList _,
    ?_, ?_, ?_⟩, ?_⟩
  · intro name column hmem
    exact name_ofList hmem
  · intro name relation hmem
    exact (hresolved name relation hmem).1
  · intro name virtual hmem
    exact name_ofList hmem
  · intro name relation hmem
    exact (hresolved name relation hmem).2

end Registration

/-! ### The registry -/

namespace Registry

/-- Registrations are built in order, each at its own place. -/
theorem buildFrom_places {names : List String} {id : EntityId} {registrations : List Registration}
    {entities : List Entity} (h : buildFrom names id registrations = .ok entities) :
    entities.length = registrations.length
      ∧ ∀ place (hplace : place < entities.length), ∃ registration ∈ registrations,
          registrations[place]? = some registration
            ∧ registration.build names (id + place) = .ok entities[place] := by
  induction registrations generalizing id entities with
  | nil =>
      cases h
      simp
  | cons registration rest ih =>
      unfold buildFrom at h
      obtain ⟨first, hfirst, h⟩ := Outcome.bind_ok.mp h
      obtain ⟨others, hothers, heq⟩ := Outcome.bind_ok.mp h
      obtain rfl := Outcome.pure_ok.mp heq
      obtain ⟨hlength, hplaces⟩ := ih hothers
      refine ⟨by simp [hlength], ?_⟩
      intro place hplace
      cases place with
      | zero => exact ⟨registration, List.mem_cons_self, rfl, hfirst⟩
      | succ place =>
          obtain ⟨other, hother, hget, hbuild⟩ := hplaces place (by simpa using hplace)
          refine ⟨other, List.mem_cons_of_mem _ hother, by simpa using hget, ?_⟩
          rw [List.getElem_cons_succ, ← hbuild, Nat.succ_add_eq_add_succ id place]

/-- Entities stand at their own places, and their relations lead to places among names. -/
theorem buildFrom_ok {names : List String} {id : EntityId} {registrations : List Registration}
    {entities : List Entity} (h : buildFrom names id registrations = .ok entities) :
    entities.length = registrations.length
      ∧ ∀ place (hplace : place < entities.length),
          entities[place].id = id + place ∧ entities[place].OwnNames
            ∧ ∀ name relation, (name, relation) ∈ entities[place].relations →
                relation.target < names.length := by
  obtain ⟨hlength, hplaces⟩ := buildFrom_places h
  refine ⟨hlength, fun place hplace => ?_⟩
  obtain ⟨registration, -, -, hbuild⟩ := hplaces place hplace
  exact Registration.build_ok hbuild

theorem entity_of_lt {registry : Registry} {id : EntityId} (h : id < registry.entities.length) :
    registry.entity id = registry.entities[id] := by
  simp [Registry.entity, h]

/-- **A registry that is built is one.** -/
theorem build_built {registrations : List Registration} {registry : Registry}
    (h : Registry.build registrations = .ok registry) : registry.Built := by
  unfold Registry.build at h
  dsimp only at h
  split at h
  · exact absurd h (by simp)
  · obtain ⟨entities, hentities, rfl⟩ := Outcome.map_ok.mp h
    obtain ⟨hlength, hplaces⟩ := buildFrom_ok hentities
    intro entity hentity
    obtain ⟨place, hplace, rfl⟩ := List.getElem_of_mem hentity
    obtain ⟨hid, hnames, htargets⟩ := hplaces place hplace
    rw [Nat.zero_add] at hid
    refine ⟨hnames, ?_, ?_⟩
    · rw [hid]
      exact entity_of_lt hplace
    · intro name relation hmem
      have htarget := htargets name relation hmem
      rw [List.length_map, ← hlength] at htarget
      rw [entity_of_lt htarget]
      exact List.getElem_mem _

/-- The filters of every entity are those of its registration. -/
theorem filters_of_build {registrations : List Registration} {registry : Registry}
    (h : Registry.build registrations = .ok registry) :
    ∀ entity ∈ registry.entities, ∃ registration ∈ registrations,
      entity.filters = registration.allFilters := by
  unfold Registry.build at h
  dsimp only at h
  split at h
  · exact absurd h (by simp)
  · obtain ⟨entities, hentities, rfl⟩ := Outcome.map_ok.mp h
    intro entity hentity
    obtain ⟨place, hplace, rfl⟩ := List.getElem_of_mem hentity
    obtain ⟨registration, hregistration, -, hbuild⟩ := (buildFrom_places hentities).2 place hplace
    unfold Registration.build at hbuild
    obtain ⟨relations, -, heq⟩ := Outcome.bind_ok.mp hbuild
    exact ⟨registration, hregistration, by rw [← Outcome.pure_ok.mp heq]⟩

/-- Every filter of an entity is built in or one that its registration adds. -/
theorem filters_cases {registrations : List Registration} {registry : Registry}
    (h : Registry.build registrations = .ok registry) {entity : Entity}
    (hentity : entity ∈ registry.entities) {name : String} {filter : ArgumentFilter}
    (hfilter : (name, filter) ∈ entity.filters) :
    (∃ columns, (name, filter) ∈ ArgumentFilter.defaults columns)
      ∨ ∃ registration ∈ registrations, (name, filter) ∈ registration.filters := by
  obtain ⟨registration, hregistration, hfilters⟩ := filters_of_build h entity hentity
  rw [hfilters] at hfilter
  rcases List.mem_append.mp (Named.mem_ofList hfilter) with hdefault | hown
  · split at hdefault
    · exact Or.inl ⟨_, hdefault⟩
    · exact absurd hdefault (by simp)
  · exact Or.inr ⟨registration, hregistration, hown⟩

/-- What holds of the entities of a registry and of one without anything holds at every place. -/
theorem entity_all {holds : Entity → Prop} {registry : Registry}
    (h : ∀ entity ∈ registry.entities, holds entity) (hdefault : holds default) (id : EntityId) :
    holds (registry.entity id) := by
  unfold Registry.entity
  rw [List.getD_eq_getElem?_getD]
  cases hget : registry.entities[id]? with
  | none => exact hdefault
  | some entity => exact h entity (List.mem_of_getElem? hget)

theorem mem_of_find? {registry : Registry} {name : String} {entity : Entity}
    (h : registry.find? name = some entity) : entity ∈ registry.entities :=
  List.mem_of_find?_eq_some h

end Registry

/-! ### Built-in filters -/

namespace ArgumentFilter

/-- What holds of the filters of each kind holds of all that are built in. -/
theorem defaults_all (holds : ArgumentFilter → Prop)
    (hcondition : ∀ column operator, holds (condition column operator))
    (hisNull : ∀ column, holds (isNull column))
    (horderBy : ∀ storageName? direction, holds (orderBy storageName? direction))
    (hrange : holds range) (hlimit : holds limit) (hoffset : holds offset) {columns : List Column}
    {name : String} {filter : ArgumentFilter} (h : (name, filter) ∈ defaults columns) :
    holds filter := by
  unfold defaults at h
  rcases List.mem_append.mp h with hcolumn | hwindow
  · obtain ⟨column, -, hfilter⟩ := List.mem_flatMap.mp hcolumn
    unfold ofColumn at hfilter
    rcases List.mem_append.mp hfilter with hvalue | hnull
    · rcases List.mem_cons.mp hvalue with heq | hsuffix
      · cases heq
        exact hcondition _ _
      · obtain ⟨entry, -, heq⟩ := List.mem_map.mp hsuffix
        cases heq
        exact hcondition _ _
    · cases List.mem_singleton.mp hnull
      exact hisNull _
  · simp only [ofWindow, List.mem_cons, List.not_mem_nil, or_false, Prod.mk.injEq] at hwindow
    rcases hwindow with ⟨-, rfl⟩ | ⟨-, rfl⟩ | ⟨-, rfl⟩ | ⟨-, rfl⟩ | ⟨-, rfl⟩
    · exact horderBy _ _
    · exact horderBy _ _
    · exact hrange
    · exact hlimit
    · exact hoffset

end ArgumentFilter

/-! ### Lookups -/

namespace Entity.Registered

variable {registry : Registry} {entity : Entity}

theorem name_of_relation? (h : entity.Registered registry) {name : String} {relation : Relation}
    (hfind : entity.relation? name = some relation) : relation.name = name :=
  h.relation_name name relation (Named.mem_of_find? hfind)

theorem target (h : entity.Registered registry) (hbuilt : registry.Built) {name : String}
    {relation : Relation} (hfind : entity.relation? name = some relation) :
    (registry.entity relation.target).Registered registry :=
  hbuilt _ (h.target_mem name relation (Named.mem_of_find? hfind))

end Entity.Registered

end GraphFetch
