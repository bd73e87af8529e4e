/-
Which registrations make a registry, and what it leads to.

Registering can go wrong in two ways.  Of names that repeat the first repeated one is reported,
and only where none repeats the first relation whose target is not registered.  Otherwise there is
a registry: the entity of each registration stands at its place, is found by its name, and each of
its relations leads to the place of the entity that the relation was declared to have for its
target.  Of relations that were declared under one name the last one counts.
-/
import GraphFetch.Proofs.Schema.Registered
import Mathlib.Data.List.Basic

namespace GraphFetch

/-! ### Names that repeat -/

/-- Whether a name is the first among names that equals an earlier one. -/
def FirstRepeated (names : List String) (name : String) : Prop :=
  ∃ before rest, names = before ++ name :: rest ∧ before.Nodup ∧ name ∈ before

namespace Registry

theorem repeated?_none {seen names : List String} :
    repeated? seen names = none ↔ names.Nodup ∧ ∀ name ∈ names, name ∉ seen := by
  induction names generalizing seen with
  | nil => simp [repeated?]
  | cons name rest ih =>
      rw [repeated?]
      by_cases hseen : name ∈ seen
      · simp [hseen]
      · rw [if_neg (by simpa using hseen), ih, List.nodup_cons]
        constructor
        · rintro ⟨hnodup, hrest⟩
          refine ⟨⟨fun hmem => hrest name hmem List.mem_cons_self, hnodup⟩, ?_⟩
          intro other hother
          rcases List.mem_cons.mp hother with rfl | hmem
          · exact hseen
          · exact fun hold => hrest other hmem (List.mem_cons_of_mem _ hold)
        · rintro ⟨⟨hname, hnodup⟩, hall⟩
          refine ⟨hnodup, fun other hother hold => ?_⟩
          rcases List.mem_cons.mp hold with rfl | hold
          · exact hname hother
          · exact hall other (List.mem_cons_of_mem _ hother) hold

theorem repeated?_some {seen names : List String} {name : String}
    (h : repeated? seen names = some name) :
    ∃ before rest, names = before ++ name :: rest ∧ before.Nodup
      ∧ (∀ other ∈ before, other ∉ seen) ∧ (name ∈ seen ∨ name ∈ before) := by
  induction names generalizing seen with
  | nil => exact absurd h (by simp [repeated?])
  | cons first rest ih =>
      rw [repeated?] at h
      split at h
      · rename_i hseen
        cases h
        exact ⟨[], rest, rfl, List.nodup_nil, by simp, Or.inl (List.contains_iff_mem.mp hseen)⟩
      · rename_i hseen
        have hfirst : first ∉ seen := fun hmem => hseen (List.contains_iff_mem.mpr hmem)
        obtain ⟨before, after, rfl, hnodup, hnew, hname⟩ := ih h
        refine ⟨first :: before, after, rfl, List.nodup_cons.mpr ⟨?_, hnodup⟩, ?_, ?_⟩
        · exact fun hmem => hnew first hmem List.mem_cons_self
        · intro other hother
          rcases List.mem_cons.mp hother with rfl | hother
          · exact hfirst
          · exact fun hold => hnew other hother (List.mem_cons_of_mem _ hold)
        · rcases hname with hold | hmem
          · rcases List.mem_cons.mp hold with rfl | hold
            · exact Or.inr List.mem_cons_self
            · exact Or.inl hold
          · exact Or.inr (List.mem_cons_of_mem _ hmem)

end Registry

/-! ### Targets that are missing -/

theorem idxOf?_of_mem {names : List String} {name : String} (h : name ∈ names) :
    names.idxOf? name = some (names.idxOf name) := by
  cases hplace : names.idxOf? name with
  | none => exact absurd h (List.idxOf?_eq_none_iff.mp hplace)
  | some place => rw [List.idxOf_eq_getD_idxOf?, hplace, Option.getD_some]

/-- The relation that a declared one is among names, if its target is one of them. -/
def PendingRelation.resolved (names : List String) (pending : PendingRelation) : Relation :=
  ⟨pending.name, pending.kind, names.idxOf pending.target, pending.join⟩

namespace Registration

/-- Whether the targets of all relations that are declared are among names. -/
def Known (names : List String) (registration : Registration) : Prop :=
  ∀ pending ∈ registration.relations, pending.target ∈ names

/-- Whether a relation is the first one that is declared whose target is not among names. -/
def FirstMissing (names : List String) (registration : Registration) (pending : PendingRelation) :
    Prop :=
  ∃ earlier later, registration.relations = earlier ++ pending :: later
    ∧ (∀ other ∈ earlier, other.target ∈ names) ∧ pending.target ∉ names

/-- The relation that a name stands for: the last one that is declared under it. -/
def declared? (registration : Registration) (name : String) : Option PendingRelation :=
  registration.relations.reverse.find? fun pending => pending.name == name

variable {names : List String} {registration : Registration}

/-- Targets are all known, or there is a first one that is missing. -/
theorem known_or_missing (names : List String) (registration : Registration) :
    registration.Known names ∨ ∃ pending, registration.FirstMissing names pending := by
  cases hfind : registration.relations.find? fun pending => !names.contains pending.target with
  | none =>
      refine Or.inl fun pending hpending => ?_
      simpa using List.find?_eq_none.mp hfind pending hpending
  | some pending =>
      obtain ⟨hmissing, earlier, later, hrelations, hearlier⟩ :=
        List.find?_eq_some_iff_append.mp hfind
      refine Or.inr ⟨pending, earlier, later, hrelations, fun other hother => ?_, ?_⟩
      · simpa using hearlier other hother
      · simpa using hmissing

theorem resolveRelation_known {pending : PendingRelation} (h : pending.target ∈ names)
    (entity : String) :
    resolveRelation names entity pending = .ok (pending.name, pending.resolved names) := by
  unfold resolveRelation PendingRelation.resolved
  rw [idxOf?_of_mem h]

theorem resolveRelation_missing {pending : PendingRelation} (h : pending.target ∉ names)
    (entity : String) : resolveRelation names entity pending
      = .error (.missingTarget entity pending.name pending.target) := by
  unfold resolveRelation
  rw [List.idxOf?_eq_none_iff.mpr h]

theorem resolveAll_known {relations : List PendingRelation}
    (h : ∀ pending ∈ relations, pending.target ∈ names) (entity : String) :
    relations.mapM (resolveRelation names entity)
      = .ok (relations.map fun pending => (pending.name, pending.resolved names)) := by
  induction relations with
  | nil => rfl
  | cons pending rest ih =>
      rw [List.mapM_cons, resolveRelation_known (h pending List.mem_cons_self),
        ih fun other hother => h other (List.mem_cons_of_mem _ hother)]
      rfl

/-- A registration whose targets are all known makes an entity. -/
theorem build_known (h : registration.Known names) (id : EntityId) :
    ∃ entity, registration.build names id = .ok entity := by
  unfold build
  rw [resolveAll_known h]
  exact ⟨_, rfl⟩

/-- A registration with a target that is missing makes none. -/
theorem build_missing {pending : PendingRelation} (h : registration.FirstMissing names pending)
    (id : EntityId) : registration.build names id
      = .error (.missingTarget registration.name pending.name pending.target) := by
  obtain ⟨earlier, later, hrelations, hearlier, hmissing⟩ := h
  unfold build
  rw [hrelations, Outcome.mapM_error
    (fun other hother => ⟨_, resolveRelation_known (hearlier other hother) _⟩)
    (resolveRelation_missing hmissing registration.name)]
  rfl

/-- Each name of a relation stands for what was declared under it last. -/
theorem build_relation? (h : registration.Known names) {id : EntityId} {entity : Entity}
    (hbuild : registration.build names id = .ok entity) (name : String) :
    entity.name = registration.name
      ∧ entity.relation? name = (registration.declared? name).map (·.resolved names) := by
  unfold build at hbuild
  rw [resolveAll_known h] at hbuild
  cases hbuild
  refine ⟨rfl, ?_⟩
  unfold Entity.relation? declared?
  rw [Named.find?_ofList, ← List.map_reverse]
  induction registration.relations.reverse with
  | nil => rfl
  | cons pending rest ih =>
      rw [List.map_cons, Named.find?, List.find?_cons]
      by_cases hname : pending.name = name
      · simp [hname]
      · rw [if_neg hname, ih, beq_eq_false_iff_ne.mpr hname]

end Registration

namespace Registry

variable {names : List String} {registrations : List Registration}

/-- **Registrations are built as the first of them that cannot be is.** -/
theorem buildFrom_missing {before after : List Registration} {registration : Registration}
    (hbefore : ∀ earlier ∈ before, earlier.Known names) {pending : PendingRelation}
    (hmissing : registration.FirstMissing names pending) (id : EntityId) :
    buildFrom names id (before ++ registration :: after)
      = .error (.missingTarget registration.name pending.name pending.target) := by
  induction before generalizing id with
  | nil =>
      rw [List.nil_append, buildFrom, Registration.build_missing hmissing]
      rfl
  | cons first rest ih =>
      obtain ⟨entity, hentity⟩ := Registration.build_known (hbefore first List.mem_cons_self) id
      rw [List.cons_append, buildFrom, hentity,
        ih fun earlier hearlier => hbefore earlier (List.mem_cons_of_mem _ hearlier)]
      rfl

theorem buildFrom_known (h : ∀ registration ∈ registrations, registration.Known names)
    (id : EntityId) : ∃ entities, buildFrom names id registrations = .ok entities := by
  induction registrations generalizing id with
  | nil => exact ⟨[], rfl⟩
  | cons first rest ih =>
      obtain ⟨entity, hentity⟩ := Registration.build_known (h first List.mem_cons_self) id
      obtain ⟨entities, hentities⟩ :=
        ih (fun other hother => h other (List.mem_cons_of_mem _ hother)) (id + 1)
      rw [buildFrom, hentity, hentities]
      exact ⟨entity :: entities, rfl⟩

/-- Registrations all have known targets, or there is a first one that has not. -/
theorem known_or_missing (names : List String) (registrations : List Registration) :
    (∀ registration ∈ registrations, registration.Known names)
      ∨ ∃ before registration after pending, registrations = before ++ registration :: after
        ∧ (∀ earlier ∈ before, earlier.Known names) ∧ registration.FirstMissing names pending := by
  induction registrations with
  | nil => exact Or.inl (by simp)
  | cons first rest ih =>
      rcases first.known_or_missing names with hknown | ⟨pending, hmissing⟩
      · rcases ih with hall | ⟨before, registration, after, pending, rfl, hbefore, hmissing⟩
        · refine Or.inl fun registration hregistration => ?_
          rcases List.mem_cons.mp hregistration with rfl | hmem
          · exact hknown
          · exact hall registration hmem
        · refine Or.inr ⟨first :: before, registration, after, pending, rfl, ?_, hmissing⟩
          intro earlier hearlier
          rcases List.mem_cons.mp hearlier with rfl | hmem
          · exact hknown
          · exact hbefore earlier hmem
      · exact Or.inr ⟨[], first, rest, pending, rfl, by simp, hmissing⟩

/-! ### What building comes to -/

theorem build_repeated (h : ¬ (registrations.map (·.name)).Nodup) :
    ∃ name, FirstRepeated (registrations.map (·.name)) name
      ∧ build registrations = .error (.duplicateEntity name) := by
  unfold build
  dsimp only
  cases hrepeated : repeated? [] (registrations.map (·.name)) with
  | none => exact absurd (repeated?_none.mp hrepeated).1 h
  | some name =>
      obtain ⟨before, rest, hnames, hnodup, -, hname⟩ := repeated?_some hrepeated
      exact ⟨name, ⟨before, rest, hnames, hnodup, hname.resolve_left (by simp)⟩, rfl⟩

theorem build_distinct (h : (registrations.map (·.name)).Nodup) : build registrations
    = (buildFrom (registrations.map (·.name)) 0 registrations).map Registry.mk := by
  unfold build
  dsimp only
  rw [repeated?_none.mpr ⟨h, by simp⟩]

theorem build_missing (hdistinct : (registrations.map (·.name)).Nodup)
    (h : ¬ ∀ registration ∈ registrations, registration.Known (registrations.map (·.name))) :
    ∃ before registration after pending, registrations = before ++ registration :: after
      ∧ (∀ earlier ∈ before, earlier.Known (registrations.map (·.name)))
      ∧ registration.FirstMissing (registrations.map (·.name)) pending
      ∧ build registrations
        = .error (.missingTarget registration.name pending.name pending.target) := by
  rcases known_or_missing (registrations.map (·.name)) registrations with
    hknown | ⟨before, registration, after, pending, heq, hbefore, hmissing⟩
  · exact absurd hknown h
  · refine ⟨before, registration, after, pending, heq, hbefore, hmissing, ?_⟩
    have herror := @buildFrom_missing _ before after _ hbefore _ hmissing 0
    rw [← heq] at herror
    rw [build_distinct hdistinct, herror]
    rfl

theorem name_of_find? {registry : Registry} {name : String} {entity : Entity}
    (h : registry.find? name = some entity) : entity.name = name := by
  unfold find? at h
  have hname := List.find?_some h
  exact eq_of_beq hname

/-- A look-up by name is one of the place that the name has. -/
theorem find?_eq_idxOf? (registry : Registry) (name : String) : registry.find? name
    = ((registry.entities.map Entity.name).idxOf? name).map registry.entity := by
  obtain ⟨entities⟩ := registry
  unfold find? entity
  dsimp only
  induction entities with
  | nil => rfl
  | cons first rest ih =>
      rw [List.find?_cons, List.map_cons, List.idxOf?_cons]
      cases first.name == name with
      | true => rfl
      | false =>
          dsimp only
          rw [ih, if_neg Bool.false_ne_true, Option.map_map]
          rfl

/-- What a registry of registrations is like. -/
structure Follows (registry : Registry) (registrations : List Registration) : Prop where
  names : registry.entities.map Entity.name = registrations.map (·.name)
  ids : registry.entities.map Entity.id = List.range registrations.length
  entity_id : ∀ entity ∈ registry.entities,
    entity.id < registrations.length ∧ registry.entity entity.id = entity
  find?_name : ∀ entity ∈ registry.entities, registry.find? entity.name = some entity
  find?_place : ∀ name,
    registry.find? name = ((registrations.map (·.name)).idxOf? name).map registry.entity
  relation? : ∀ (place : Nat) registration, registrations[place]? = some registration → ∀ name,
    (registry.entity place).relation? name
      = (registration.declared? name).map (·.resolved (registrations.map (·.name)))
  target : ∀ registration ∈ registrations, ∀ pending ∈ registration.relations,
    let relation := pending.resolved (registrations.map (·.name))
    relation.target < registrations.length
      ∧ (registry.entity relation.target).name = pending.target

theorem build_known {registry : Registry} (h : build registrations = .ok registry) :
    (registrations.map (·.name)).Nodup
      ∧ (∀ registration ∈ registrations, registration.Known (registrations.map (·.name)))
      ∧ buildFrom (registrations.map (·.name)) 0 registrations = .ok registry.entities := by
  have hnames : (registrations.map (·.name)).Nodup := by
    by_contra hrepeated
    obtain ⟨name, -, herror⟩ := build_repeated hrepeated
    exact nomatch herror.symm.trans h
  have hknown : ∀ registration ∈ registrations,
      registration.Known (registrations.map (·.name)) := by
    by_contra hunknown
    obtain ⟨_, _, _, _, -, -, -, herror⟩ := build_missing hnames hunknown
    exact nomatch herror.symm.trans h
  rw [build_distinct hnames] at h
  obtain ⟨entities, hentities, rfl⟩ := Outcome.map_ok.mp h
  exact ⟨hnames, hknown, hentities⟩

/-- The entity at each place is that of the registration there. -/
theorem build_place {registry : Registry} (h : build registrations = .ok registry) {place : Nat}
    {registration : Registration} (hplace : registrations[place]? = some registration) :
    registry.entity place ∈ registry.entities ∧ (registry.entity place).id = place
      ∧ registration.build (registrations.map (·.name)) place = .ok (registry.entity place) := by
  obtain ⟨-, -, hentities⟩ := build_known h
  obtain ⟨hlength, hplaces⟩ := buildFrom_places hentities
  have hlt : place < registry.entities.length := by
    rw [hlength]
    exact (List.getElem?_eq_some_iff.mp hplace).1
  obtain ⟨other, -, hother, hbuild⟩ := hplaces place hlt
  obtain rfl := Option.some.inj (hplace.symm.trans hother)
  rw [Nat.zero_add] at hbuild
  rw [entity_of_lt hlt]
  exact ⟨List.getElem_mem _, (Registration.build_ok hbuild).1, hbuild⟩

/-- Names and places of entities are those of their registrations. -/
theorem build_names {registry : Registry} (h : build registrations = .ok registry) :
    registry.entities.map Entity.name = registrations.map (·.name)
      ∧ registry.entities.map Entity.id = List.range registrations.length := by
  obtain ⟨-, hknown, hentities⟩ := build_known h
  obtain ⟨hlength, -⟩ := buildFrom_places hentities
  have hat : ∀ place (hplace : place < registrations.length),
      (registry.entity place).id = place
        ∧ (registry.entity place).name = registrations[place].name := by
    intro place hplace
    obtain ⟨-, hid, hbuild⟩ := build_place h (List.getElem?_eq_getElem hplace)
    exact ⟨hid, (Registration.build_relation? (hknown _ (List.getElem_mem _)) hbuild "").1⟩
  constructor
  · refine List.ext_getElem (by simp [hlength]) fun place hplace _ => ?_
    rw [List.length_map] at hplace
    rw [List.getElem_map, List.getElem_map, ← entity_of_lt hplace]
    exact (hat place (hlength ▸ hplace)).2
  · refine List.ext_getElem (by simp [hlength]) fun place hplace _ => ?_
    rw [List.length_map] at hplace
    rw [List.getElem_map, List.getElem_range, ← entity_of_lt hplace]
    exact (hat place (hlength ▸ hplace)).1

/-- **A registry that is built follows its registrations.** -/
theorem build_follows {registry : Registry} (h : build registrations = .ok registry) :
    registry.Follows registrations := by
  obtain ⟨hdistinct, hknown, hentities⟩ := build_known h
  obtain ⟨hnames, hids⟩ := build_names h
  have hlength : registry.entities.length = registrations.length := by
    rw [← List.length_map Entity.name, hnames, List.length_map]
  refine ⟨hnames, hids, ?_, ?_, ?_, ?_, ?_⟩
  · intro entity hentity
    have hid : entity.id ∈ registry.entities.map Entity.id := List.mem_map_of_mem hentity
    rw [hids, List.mem_range] at hid
    exact ⟨hid, (build_built h entity hentity).entity_id⟩
  · -- no earlier entity has the name, since no name repeats
    intro entity hentity
    obtain ⟨place, hplace, rfl⟩ := List.getElem_of_mem hentity
    have hidx : (registry.entities.map Entity.name).idxOf registry.entities[place].name
        = place := by
      have hplace' : place < (registry.entities.map Entity.name).length := by simpa using hplace
      have hat := (hnames ▸ hdistinct).idxOf_getElem place hplace'
      rwa [List.getElem_map] at hat
    rw [registry.find?_eq_idxOf?, idxOf?_of_mem (List.mem_map_of_mem hentity), hidx,
      Option.map_some, entity_of_lt hplace]
  · intro name
    rw [registry.find?_eq_idxOf?, hnames]
  · intro place registration hplace name
    obtain ⟨-, -, hbuild⟩ := build_place h hplace
    exact (Registration.build_relation?
      (hknown registration (List.mem_of_getElem? hplace)) hbuild name).2
  · intro registration hregistration pending hpending
    have hmem := hknown registration hregistration pending hpending
    have hlt := List.idxOf_lt_length_iff.mpr hmem
    have hplace := hlt
    rw [List.length_map] at hplace
    refine ⟨hplace, ?_⟩
    obtain ⟨-, -, hbuild⟩ := build_place h (List.getElem?_eq_getElem hplace)
    have hname := (Registration.build_relation? (hknown _ (List.getElem_mem _)) hbuild "").1
    have hget := List.getElem_idxOf hlt
    rw [List.getElem_map] at hget
    exact hname.trans hget

end Registry

end GraphFetch
