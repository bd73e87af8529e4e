/-
What filters do to a query, and what arguments do with them.

Every argument with a filter does to the query what its filter does with the value, and
nothing without one or, where what is undefined is skipped, without a value.  Whatever
composes of the filters of an entity therefore holds of the arguments of its fields.  The
built-in filters add conditions and orderings and set windows, and look at nothing.
-/
import GraphFetch.Plan.Arguments
import GraphFetch.Proofs.Outcome
import GraphFetch.Proofs.Query.Edits
import GraphFetch.Proofs.Schema.Registered
import GraphFetch.Schema.Filters

namespace GraphFetch

/-- Whether something holds of what the filters of an entity do with any value. -/
def Entity.FiltersAll (holds : List Edit → Prop) (entity : Entity) : Prop :=
  ∀ name filter, (name, filter) ∈ entity.filters → ∀ value, holds (filter value)

/-- Whether the filters of an entity leave a part of queries as it is. -/
def Entity.FiltersKeep {α : Type} (part : Query → α) (entity : Entity) : Prop :=
  entity.FiltersAll (Keeps part)

/-! ### Built-in filters -/

namespace ArgumentFilter

/-- Whether a filter adds conditions and orderings and sets windows only, whatever the value. -/
def Simple (filter : ArgumentFilter) : Prop := ∀ value, ∀ edit ∈ filter value, edit.Simple

theorem condition_simple (column : String) (operator : Operator) :
    (condition column operator).Simple := by
  intro value edit hedit
  obtain rfl := List.mem_singleton.mp hedit
  exact .filter _

theorem isNull_simple (column : String) : (isNull column).Simple := by
  intro value edit hedit
  obtain rfl := List.mem_singleton.mp hedit
  exact .filter _

theorem orderBy_simple (storageName? : String → Option String) (direction : Direction) :
    (orderBy storageName? direction).Simple := by
  intro value edit hedit
  unfold orderBy at hedit
  split at hedit
  · obtain rfl := List.mem_singleton.mp hedit
    exact .orderBy _
  · exact absurd hedit List.not_mem_nil

theorem limit_simple : limit.Simple := by
  intro value edit hedit
  unfold limit at hedit
  split at hedit
  · obtain rfl := List.mem_singleton.mp hedit
    exact .limit _
  · exact absurd hedit List.not_mem_nil

theorem offset_simple : offset.Simple := by
  intro value edit hedit
  unfold offset at hedit
  split at hedit
  · obtain rfl := List.mem_singleton.mp hedit
    exact .offset _
  · exact absurd hedit List.not_mem_nil

theorem window_simple (first last : Nat) : ∀ edit ∈ window first last, edit.Simple := by
  have hboth : ∀ count, ∀ edit ∈ [Edit.offset first, .limit count], edit.Simple := by
    intro count edit hedit
    rcases List.mem_cons.mp hedit with rfl | hlimit
    · exact .offset first
    · obtain rfl := List.mem_singleton.mp hlimit
      exact .limit count
  intro edit hedit
  unfold window at hedit
  split at hedit
  · exact hboth _ edit hedit
  · split at hedit
    · exact hboth _ edit hedit
    · obtain rfl := List.mem_singleton.mp hedit
      exact .offset first

theorem range_simple : range.Simple := by
  intro value edit hedit
  unfold range at hedit
  split at hedit
  · split at hedit
    · exact window_simple _ _ edit hedit
    · exact absurd hedit List.not_mem_nil
  · exact absurd hedit List.not_mem_nil

/-- **Built-in filters set conditions, orderings and windows only.** -/
theorem defaults_simple {columns : List Column} {name : String} {filter : ArgumentFilter}
    (h : (name, filter) ∈ defaults columns) : filter.Simple :=
  defaults_all Simple condition_simple isNull_simple orderBy_simple range_simple limit_simple
    offset_simple h

end ArgumentFilter

/-- **What composes of simple edits and holds of the filters added to the built-in ones** holds of
all filters of a built registry. -/
theorem Registry.filters_all {holds : List Edit → Prop} (hcomposes : Composes holds)
    (hsimple : ∀ edit : Edit, edit.Simple → holds [edit]) {registrations : List Registration}
    {registry : Registry} (h : Registry.build registrations = .ok registry)
    (hadded : ∀ registration ∈ registrations, ∀ name filter,
      (name, filter) ∈ registration.filters → ∀ value, holds (filter value)) :
    ∀ entity ∈ registry.entities, entity.FiltersAll holds := by
  intro entity hentity name filter hfilter value
  rcases filters_cases h hentity hfilter with
    ⟨columns, hdefault⟩ | ⟨registration, hregistration, hown⟩
  · exact hcomposes.of_simple hsimple (ArgumentFilter.defaults_simple hdefault value)
  · exact hadded registration hregistration name filter hown value

namespace Plan

/-! ### Arguments -/

/-- The query after an argument with a value, or without one. -/
def argued (entity : Entity) (name : String) (value : Option Const) (query : Query) : Query :=
  match entity.filter? name with
  | none => query
  | some filter =>
    if value.isNone && query.skipsUndefined then query else query.applyAll (filter value)

/-- **An argument does to a query what its filter does with the value**, and nothing without a
filter, or without a value where the query skips what is undefined. -/
theorem applyAll_argumentEdits (entity : Entity) (name : String) (value : Option Const)
    (query : Query) :
    query.applyAll (argumentEdits entity name value) = argued entity name value query := by
  unfold argumentEdits argued
  cases entity.filter? name with
  | none => cases value <;> rfl
  | some filter =>
      cases value with
      | some value => rfl
      | none =>
          show query.apply (.unlessSkipping (filter none)) = _
          rw [Query.apply]
          rfl

/-- **The arguments of a field act on its query one after the other**, each with the value that its
literal resolves to. -/
theorem applyAll_argumentModifier {context : PlanContext} {entity : Entity}
    {arguments : List (String × Literal)} {filters : Option Edit}
    (h : argumentModifier context entity arguments = .ok filters) :
    ∃ values, arguments.mapM (fun argument => argumentValue context.bindings argument.2)
      = .ok values
      ∧ ∀ query : Query, query.applyAll filters.toList
        = ((arguments.map Prod.fst).zip values).foldl
            (fun query (name, value) => argued entity name value query) query := by
  have hedits : ∀ {arguments : List (String × Literal)} {edits : List Edit},
      allArgumentEdits context.bindings entity arguments = .ok edits →
      ∃ values, arguments.mapM (fun argument => argumentValue context.bindings argument.2)
          = .ok values
        ∧ ∀ query : Query, query.applyAll edits = ((arguments.map Prod.fst).zip values).foldl
            (fun query (name, value) => argued entity name value query) query := by
    intro arguments
    induction arguments with
    | nil =>
        intro edits h
        cases h
        exact ⟨[], rfl, fun _ => rfl⟩
    | cons argument rest ih =>
        intro edits h
        obtain ⟨name, literal⟩ := argument
        obtain ⟨value, hvalue, h⟩ := Outcome.bind_ok.mp h
        obtain ⟨more, hmore, heq⟩ := Outcome.bind_ok.mp h
        obtain rfl := Outcome.pure_ok.mp heq
        obtain ⟨values, hvalues, hrest⟩ := ih hmore
        refine ⟨value :: values, ?_, fun query => ?_⟩
        · rw [List.mapM_cons]
          simp only [hvalue, hvalues]
          rfl
        · rw [Query.applyAll_append, applyAll_argumentEdits, hrest]
          rfl
  unfold argumentModifier at h
  split at h
  · rename_i hempty
    cases h
    rw [List.isEmpty_iff.mp hempty]
    exact ⟨[], rfl, fun _ => rfl⟩
  · obtain ⟨edits, hok, heq⟩ := Outcome.bind_ok.mp h
    obtain rfl := Outcome.pure_ok.mp heq
    obtain ⟨values, hvalues, happlied⟩ := hedits hok
    refine ⟨values, hvalues, fun query => ?_⟩
    show query.apply (.all edits) = _
    rw [Query.apply, happlied]

variable {holds : List Edit → Prop} (hcomposes : Composes holds) {entity : Entity}
  (hfilters : entity.FiltersAll holds)

include hcomposes hfilters

theorem argumentEdits_all (name : String) (value : Option Const) :
    holds (argumentEdits entity name value) := by
  unfold argumentEdits
  cases hfilter : entity.filter? name with
  | none => cases value <;> exact hcomposes.nil
  | some filter =>
      have hfilter := hfilters name filter (Named.mem_of_find? hfilter)
      cases value with
      | none => exact hcomposes.unlessSkipping (hfilter none)
      | some value => exact hfilter (some value)

theorem allArgumentEdits_all {bindings : Variables} {arguments : List (String × Literal)}
    {edits : List Edit} (h : allArgumentEdits bindings entity arguments = .ok edits) :
    holds edits := by
  induction arguments generalizing edits with
  | nil =>
      cases h
      exact hcomposes.nil
  | cons argument rest ih =>
      obtain ⟨name, literal⟩ := argument
      obtain ⟨value, -, h⟩ := Outcome.bind_ok.mp h
      obtain ⟨more, hmore, heq⟩ := Outcome.bind_ok.mp h
      obtain rfl := Outcome.pure_ok.mp heq
      exact hcomposes.append (argumentEdits_all hcomposes hfilters name value) (ih hmore)

/-- **What composes of the filters of an entity holds of the arguments of its fields.** -/
theorem argumentModifier_all {context : PlanContext} {arguments : List (String × Literal)}
    {filters : Option Edit} (h : argumentModifier context entity arguments = .ok filters) :
    holds filters.toList := by
  unfold argumentModifier at h
  split at h
  · cases h
    exact hcomposes.nil
  · obtain ⟨edits, hedits, heq⟩ := Outcome.bind_ok.mp h
    obtain rfl := Outcome.pure_ok.mp heq
    exact hcomposes.all (allArgumentEdits_all hcomposes hfilters hedits)

end Plan

end GraphFetch
