/-
Engines on documents with other arguments.

Where root fields are planned so that the executor is asked for the same rows, the rows are
normalized and shaped the same, and nothing else is done for a request.  So without a cache, and
unless an entity has a fetch of its own, a document and a rewritten one are answered the same;
and by the same statements, where the queries show the same constants.

A root query takes its edits one after the other.  It is planned the same if each of them keeps
two queries in one relation, whatever that is, in which queries are alike.
-/
import GraphFetch.Proofs.Engine.Inlined
import GraphFetch.Proofs.Plan.Rewritten

namespace GraphFetch

open Outcome (Both)
open Document (AllHold IsField IsRead)

variable {change stronger : ArgumentChange} {texts : Prop}

/-! ### What is accepted -/

/-- What is left to do for a document that was read, and for a rewritten one. -/
structure AcceptedRequest.Rewrites (change : ArgumentChange) (bound bound' : Variables)
    (request other : AcceptedRequest) : Prop where
  bindings : request.bindings = bound
  others : other.bindings = bound'
  fields : List.Forall₂ (RootSelection.Rewrites change) request.fields other.fields
  named : ∀ selection ∈ request.fields, (selection.children ()).WellNamed

/-- A root field that was read and a rewritten one have rewritten fields below them. -/
theorem WrittenField.Rewrites.root {field other : WrittenField} (h : field.Rewrites change other)
    {fragments fragments' : Fragments}
    (hfragments : Named.Related (Selection.Rewrites change) fragments fragments')
    (hread : ∀ fragment ∈ fragments, AllHold IsField fragment.2)
    (hstronger : ∀ {arguments others}, (∀ argument ∈ arguments, argument.2.Written) →
      change arguments others → stronger arguments others)
    (hholds : Document.Holds IsField field.selection) :
    (field.root fragments).Rewrites stronger (other.root fragments') := by
  rw [WrittenField.selection, Document.Holds] at hholds
  refine ⟨h.name, h.asName, hstronger hholds.1.2.2 h.arguments, ?_⟩
  exact (Fragments.expand_rewrites hfragments h.selections).strengthen
    (fun hfield => hstronger hfield.2.2) (Fragments.expand_holds hread hholds.2)

/-- **A document that was read and a rewritten one are accepted alike**, and of the change may be
asked what holds of the arguments that were read. -/
theorem AcceptedRequest.ofDocument_rewrites {document other : Document} (hread : document.IsRead)
    (h : document.Rewrites change other)
    (hstronger : ∀ {arguments others}, (∀ argument ∈ arguments, argument.2.Written) →
      change arguments others → stronger arguments others)
    (operationName : Option String) (bindings bindings' : Variables) :
    Both (AcceptedRequest.Rewrites stronger (document.bound operationName bindings)
        (other.bound operationName bindings'))
      (ofDocument document operationName bindings) (ofDocument other operationName bindings') := by
  have hoperations : Both (Operation.Rewrites change) (document.selectOperation operationName)
      (other.selectOperation operationName) :=
    Document.selectOperation_both (fun _ _ h => h.name) h.operations operationName
  unfold ofDocument
  refine (hoperations.mapError EngineError.request).bind
    fun operation operation' hok hok' hboth => ?_
  have hselected := Outcome.mapError_ok.mp hok
  have hselected' := Outcome.mapError_ok.mp hok'
  rw [← hboth.kind]
  split
  · exact .error _
  · have hfields := (hread.operations operation (Document.selectOperation_mem hselected)).fields
    have hroots := Fragments.rootFields_rewrites h.fragments hboth.selections
    refine (hroots.mapError EngineError.plan).bind fun fields others hok _ hrewrites =>
      .pure ⟨?_, ?_, ?_, ?_⟩
    · unfold Document.bound
      rw [hselected]
    · unfold Document.bound
      rw [hselected']
    · have hgathered := Fragments.rootFields_gathers (Outcome.mapError_ok.mp hok)
      have hholds : ∀ field ∈ fields, Document.Holds IsField field.selection :=
        fun field hfield => (hgathered.mem_iff.mp hfield).holds hread.fragments hfields
      rw [List.forall₂_map_left_iff, List.forall₂_map_right_iff]
      refine ((List.forall₂_and_left _ _).mpr ⟨hholds, hrewrites⟩).imp fun field other hboth => ?_
      exact hboth.2.root h.fragments hread.fragments hstronger hboth.1
    · have hnamed := fun fragment hfragment =>
        Document.wellNamed_of_fields (hread.fragments fragment hfragment)
      have hroots := Fragments.rootFields_wellNamed hnamed (Document.wellNamed_of_fields hfields)
        (Outcome.mapError_ok.mp hok)
      exact fun selection hselection => (hroots selection hselection).2.2

/-- Whether responses are the same and, if that counts, took the same statements. -/
structure Execution.Agrees (texts : Prop) (execution other : Execution) : Prop where
  response : execution.response = other.response
  statements : texts → execution.activity.statements = other.activity.statements

namespace Engine

variable {engine : Engine}

/-! ### Root fields that are planned the same -/

/-- Whether the executor is asked for the same rows for a root field with two inputs. -/
def PlansAgree (engine : Engine) (texts : Prop) (root : BoundRootField)
    (input input' : ResolveInput) :
    Prop :=
  Both (fun planned planned' => planned.1.unloaded.Alike texts planned'.1.unloaded
      ∧ Both (SameNodes (Database.Refers texts planned.1.skipsUndefined planned.1.loadModifiers
          planned'.1.loadModifiers)) planned.1.attached planned'.1.attached
      ∧ SameNodes (fun _ _ => True) planned.2 planned'.2)
    (engine.plan root input) (engine.plan root input')

/-- A relation of queries in which they are alike, in which every query is to itself once the hook
has run, and which the edits keep that come neither from arguments nor from the load. -/
structure Carrying (engine : Engine) (texts : Prop) (related : Query → Query → Prop) : Prop where
  alike : ∀ {query other}, related query other → query.Alike texts other
  hooked : ∀ (entity : Entity) (context : RequestContext),
    let start := { entity.query with skipsUndefined := engine.settings.query.skipUndefined }
    related (start.applyAll (engine.hook context)) (start.applyAll (engine.hook context))
  select : ∀ columns, Carries related [.select columns] [.select columns]
  modifier : ∀ name root, engine.rootField? name = some root →
    Carries related root.modifier.toList root.modifier.toList

/-- Whether loads attach the same relations, and alike, to queries in a relation. -/
structure LoadsAgree (texts : Prop) (related : Query → Query → Prop) (load other : EagerLoad) :
    Prop where
  relations : SameNodes (fun _ _ => True) load.relations other.relations
  attached : ∀ query query', related query query' →
    Both (SameNodes (Database.Refers texts query.skipsUndefined load.modifiers other.modifiers))
      (Expression.parse load.expression) (Expression.parse other.expression)

/-- Queries in the relation are alike once a load is put on top of them. -/
theorem LoadsAgree.loaded {related : Query → Query → Prop} {load other : EagerLoad}
    (h : LoadsAgree texts related load other)
    (halike : ∀ {query query'}, related query query' → query.Alike texts query')
    {query query' : Query} (hrelated : related query query') :
    let loaded := query.applyAll
      (if load.isEmpty then [] else [.load load.relations load.modifiers])
    let loaded' := query'.applyAll
      (if other.isEmpty then [] else [.load other.relations other.modifiers])
    loaded.unloaded.Alike texts loaded'.unloaded
      ∧ Both (SameNodes (Database.Refers texts loaded.skipsUndefined loaded.loadModifiers
          loaded'.loadModifiers)) loaded.attached loaded'.attached := by
  have hsame := halike hrelated
  rw [EagerLoad.isEmpty, EagerLoad.isEmpty, ← h.relations.isEmpty]
  cases load.relations.isEmpty with
  | true =>
      refine ⟨hsame.unloaded, ?_⟩
      show Both (SameNodes (Database.Refers texts query.skipsUndefined query.loadModifiers
        query'.loadModifiers)) query.attached query'.attached
      unfold Query.attached Query.loadModifiers
      rw [hsame.eager]
      exact .same _ fun nodes _ => .refl (fun _ => .same _ _ _) nodes
  | false =>
      exact ⟨hsame.unloaded, h.attached query query' hrelated⟩

/-- **A root field is planned the same** if its arguments keep queries in the relation, and its load
attaches the same. -/
theorem Carrying.plansAgree {related : Query → Query → Prop}
    (hcarrying : engine.Carrying texts related) {root : BoundRootField}
    {input input' : ResolveInput}
    (hroot : engine.rootField? input.selection.name = some root)
    (hcontext : input.context = input'.context)
    (hchildren : (input.selection.children ()).Rewrites change (input'.selection.children ()))
    (hload : Both (LoadsAgree texts related)
      (Plan.compile (engine.planContext input) (engine.registry.entity root.entity)
        (input.selection.children ()))
      (Plan.compile (engine.planContext input') (engine.registry.entity root.entity)
        (input'.selection.children ())))
    (harguments : Both (fun filters others => Carries related filters.toList others.toList)
      (Plan.argumentModifier (engine.planContext input) (engine.registry.entity root.entity)
        input.selection.arguments)
      (Plan.argumentModifier (engine.planContext input') (engine.registry.entity root.entity)
        input'.selection.arguments)) :
    engine.PlansAgree texts root input input' := by
  have hprojection : Both (fun projection other => Carries related projection.toList other.toList)
      (Plan.projectionModifier (engine.planContext input) (engine.registry.entity root.entity)
        (input.selection.children ()))
      (Plan.projectionModifier (engine.planContext input') (engine.registry.entity root.entity)
        (input'.selection.children ())) := by
    rw [← Plan.projectionModifier_rewrites rfl _ hchildren]
    exact .same _ fun projection hok => Plan.projectionModifier_carries hcarrying.select hok
  unfold PlansAgree plan
  refine hload.bind fun load other _ _ hload => harguments.bind fun filters others _ _ hfilters =>
    hprojection.bind fun projection projection' _ _ hprojection => .pure ?_
  rw [← hcontext]
  have hhooked := hcarrying.hooked (engine.registry.entity root.entity) input.context
  have hedited :=
    ((hfilters.append hprojection).append (hcarrying.modifier _ root hroot)) _ _ hhooked
  obtain ⟨hquery, hattached⟩ := hload.loaded hcarrying.alike hedited
  simp only [Query.applyAll_append] at hquery hattached ⊢
  exact ⟨hquery, hattached, hload.relations⟩

theorem fetch_agrees {database : Database} (hexecutor : engine.executor = database.execute)
    {root : BoundRootField} {input input' : ResolveInput}
    (h : engine.PlansAgree texts root input input') :
    (engine.fetch root input).2 = (engine.fetch root input').2
      ∧ (texts → (engine.fetch root input).1.statements
        = (engine.fetch root input').1.statements) := by
  unfold fetch
  rcases h.elim with
    ⟨error, herror, herror'⟩ | ⟨⟨query, relations⟩, ⟨query', relations'⟩, hok, hok',
    hquery, hattached, hnodes⟩
  · rw [herror, herror']
    exact ⟨rfl, fun _ => rfl⟩
  · have hrun := database.execute_agrees hquery hattached
    rw [hok, hok', hexecutor]
    dsimp only
    rw [← hrun.result]
    cases (database.execute query).result with
    | error error => exact ⟨rfl, hrun.statements⟩
    | ok rows =>
        dsimp only
        rw [hnodes.ofRows engine.registry]
        exact ⟨rfl, hrun.statements⟩

/-! ### Answers -/

/-- What two inputs for root fields have in common that are answered the same. -/
structure InputsAgree (engine : Engine) (texts : Prop) (change : ArgumentChange)
    (input input' : ResolveInput) : Prop where
  selection : input.selection.Rewrites change input'.selection
  fetches : engine.Fetches input.selection
  plans : ∀ root, engine.rootField? input.selection.name = some root →
    engine.PlansAgree texts root input input'

/-- Whether root fields came to the same and, if that counts, by the same statements. -/
structure ResolvedAgree (texts : Prop) (resolved other : Resolved) : Prop where
  result : resolved.result = other.result
  statements : texts → resolved.activity.statements = other.activity.statements

/-- Whether answers are the same and, if that counts, took the same statements. -/
structure AnswersAgree (texts : Prop) (answers other : Answers) : Prop where
  data : answers.data = other.data
  errors : answers.errors = other.errors
  cache : answers.cache = other.cache
  statements : texts → answers.activity.statements = other.activity.statements

variable {database : Database} (hexecutor : engine.executor = database.execute)
  (hcache : engine.hasCache = false)

include hexecutor hcache

theorem resolve_agrees {input input' : ResolveInput}
    (h : engine.InputsAgree texts change input input') (backend backend' : Backend) :
    ResolvedAgree texts (engine.resolve input backend).1 (engine.resolve input' backend').1 := by
  have hname := h.selection.name
  cases hroot : engine.rootField? input.selection.name with
  | none =>
      rw [resolve_none hroot, resolve_none (hname ▸ hroot), hname]
      exact ⟨rfl, fun _ => rfl⟩
  | some root =>
      have hcustom := h.fetches root hroot
      obtain ⟨hresult, hstatements⟩ := fetch_agrees hexecutor (h.plans root hroot)
      rw [resolve_fetch hroot hcustom, resolve_fetch (hname ▸ hroot) hcustom, slot?_none hcache,
        slot?_none hcache]
      dsimp only
      rw [Backend.fetch_none, Backend.fetch_none, hresult]
      exact ⟨rfl, hstatements⟩

theorem answer_agrees {input input' : ResolveInput}
    (h : engine.InputsAgree texts change input input') (backend backend' : Backend) :
    ResolvedAgree texts (engine.answer input backend).1 (engine.answer input' backend').1 := by
  have hresolved := resolve_agrees hexecutor hcache h backend backend'
  have hshape : engine.shape input.selection = engine.shape input'.selection := by
    funext value
    unfold shape
    rw [h.selection.name]
    cases engine.rootField? input'.selection.name with
    | none => rfl
    | some root =>
        dsimp only
        rw [Shaped.ofValue_rewrites _ _ h.selection.children]
  rw [answer_eq, answer_eq]
  refine ⟨?_, hresolved.statements⟩
  dsimp only
  rw [hresolved.result, hshape]

theorem addAnswer_agrees {input input' : ResolveInput}
    (h : engine.InputsAgree texts change input input') {answers answers' : Answers}
    (hanswers : AnswersAgree texts answers answers') (backend backend' : Backend) :
    AnswersAgree texts (engine.addAnswer input answers backend).1
      (engine.addAnswer input' answers' backend').1 := by
  have hanswer := answer_agrees hexecutor hcache h backend backend'
  obtain ⟨data, errors, cache, activity⟩ := answers
  obtain ⟨data', errors', cache', activity'⟩ := answers'
  obtain ⟨rfl, rfl, rfl, hstatements⟩ := hanswers
  unfold addAnswer
  rw [← h.selection.key, ← h.selection.name]
  by_cases hname : input.selection.name = "__typename"
  · simp only [hname, if_true]
    exact ⟨rfl, rfl, rfl, hstatements⟩
  · simp only [hname, if_false, bind, StateT.bind]
    rcases hfirst : engine.answer input backend with ⟨⟨done, result⟩, after⟩
    rcases hsecond : engine.answer input' backend' with ⟨⟨done', result'⟩, after'⟩
    rw [hfirst, hsecond] at hanswer
    obtain ⟨rfl, hdone⟩ := hanswer
    have hboth : texts →
        (activity.append done).statements = (activity'.append done').statements := by
      intro htexts
      show activity.statements ++ done.statements = activity'.statements ++ done'.statements
      rw [show activity.statements = activity'.statements from hstatements htexts,
        show done.statements = done'.statements from hdone htexts]
    cases result with
    | error error => exact ⟨rfl, rfl, rfl, hboth⟩
    | ok pair => exact ⟨rfl, rfl, rfl, hboth⟩

theorem addAnswers_agrees {bound bound' : Variables} {context : RequestContext}
    {fields fields' : List RootSelection}
    (h : List.Forall₂ (fun selection selection' => ∀ payload payload',
      engine.InputsAgree texts change ⟨selection, bound, payload, context⟩
        ⟨selection', bound', payload', context⟩) fields fields')
    (payload payload' : Json) {answers answers' : Answers}
    (hanswers : AnswersAgree texts answers answers') (backend backend' : Backend) :
    AnswersAgree texts
      (engine.addAnswers payload context bound fields answers backend).1
      (engine.addAnswers payload' context bound' fields' answers' backend').1 := by
  induction h generalizing answers answers' backend backend' with
  | nil => exact hanswers
  | cons hfirst _ ih =>
      rw [addAnswers, addAnswers]
      simp only [bind, StateT.bind]
      exact ih (addAnswer_agrees hexecutor hcache (hfirst payload payload') hanswers _ _) _ _

omit hexecutor hcache in
theorem AnswersAgree.execution {answers answers' : Answers}
    (h : AnswersAgree texts answers answers') :
    Execution.Agrees texts ⟨answers.toResponse, answers.activity⟩
      ⟨answers'.toResponse, answers'.activity⟩ where
  response := by
    unfold Answers.toResponse
    rw [h.data, h.errors, h.cache]
  statements := h.statements

/-- **A document that was read and a rewritten one are answered the same**, if their root fields are
planned the same. -/
theorem executeDocument_agrees (stronger : ArgumentChange) {document other : Document}
    (hread : document.IsRead) (hrewrites : document.Rewrites change other)
    (hstronger : ∀ {arguments others}, (∀ argument ∈ arguments, argument.2.Written) →
      change arguments others → stronger arguments others)
    {operationName : Option String} {bindings bindings' : Variables}
    (hfetches : engine.FetchesAll document operationName bindings)
    (hplans : ∀ {selection selection' : RootSelection} {root : BoundRootField},
      selection.Rewrites stronger selection' → (selection.children ()).WellNamed →
      engine.rootField? selection.name = some root → ∀ context payload payload',
      engine.PlansAgree texts root
        ⟨selection, document.bound operationName bindings, payload, context⟩
        ⟨selection', other.bound operationName bindings', payload', context⟩)
    (context : RequestContext) (payload payload' : Json) (backend backend' : Backend) :
    Execution.Agrees texts
        (engine.executeDocument document operationName bindings payload context backend).1
        (engine.executeDocument other operationName bindings' payload' context backend').1
      ∧ (Asks payload document operationName bindings →
          Asks payload' other operationName bindings' →
          Execution.Agrees texts (engine.execute payload context backend).1
            (engine.execute payload' context backend').1) := by
  suffices hexecuted : Execution.Agrees texts
      (engine.executeDocument document operationName bindings payload context backend).1
      (engine.executeDocument other operationName bindings' payload' context backend').1 by
    refine ⟨hexecuted, fun hasks hasks' => ?_⟩
    rw [execute_asks hasks, execute_asks hasks']
    exact hexecuted
  have haccepted := AcceptedRequest.ofDocument_rewrites hread hrewrites hstronger operationName
    bindings bindings'
  unfold executeDocument executeAccepted
  rcases haccepted.elim with ⟨error, herror, herror'⟩ | ⟨request, request', hok, hok', hboth⟩
  · rw [herror, herror']
    exact ⟨rfl, fun _ => rfl⟩
  · rw [hok, hok']
    dsimp only
    rw [hboth.bindings, hboth.others]
    have hknown : ∀ selection ∈ request.fields,
        engine.Fetches selection ∧ (selection.children ()).WellNamed := fun selection hselection =>
      ⟨hfetches request hok selection hselection, hboth.named selection hselection⟩
    have hfields := (List.forall₂_and_left _ _).mpr ⟨hknown, hboth.fields⟩
    have hinputs : List.Forall₂ (fun selection selection' => ∀ payload payload',
        engine.InputsAgree texts stronger
          ⟨selection, document.bound operationName bindings, payload, context⟩
          ⟨selection', other.bound operationName bindings', payload', context⟩)
        request.fields request'.fields := by
      refine hfields.imp ?_
      rintro selection selection' ⟨⟨hfetches, hnamed⟩, hselection⟩ payload payload'
      exact ⟨hselection, hfetches, fun root hroot =>
        hplans hselection hnamed hroot context payload payload'⟩
    exact (addAnswers_agrees hexecutor hcache hinputs payload payload' ⟨rfl, rfl, rfl, fun _ => rfl⟩
      backend backend').execution

end Engine

end GraphFetch
