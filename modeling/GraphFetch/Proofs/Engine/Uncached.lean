/-
Answers without a cache.

An engine without a cache neither reads nor changes the backend, so what it answers is a
function of the request alone.  Field by field that is written down here, each field
under a context of its own: this is what the answers of an engine with a cache are
compared to.
-/
import GraphFetch.Engine.Execute

namespace GraphFetch

namespace Engine

variable (engine : Engine)

/-- The engine without its cache. -/
def uncached : Engine := { engine with hasCache := false }

/-- What a root field is answered without a cache. -/
def plain (input : ResolveInput) : Except EngineError Json :=
  (engine.uncached.answer input .fresh).1.result.map Prod.fst

/-- Data and errors of a response so far. -/
abbrev View := List (String × Json) × List ResponseError

/-- The data and the errors among answers. -/
def viewOf (answers : Answers) : View := (answers.data, answers.errors)

/-- Adds what a root field is answered. -/
def addOutcome (key : String) (outcome : Except EngineError Json) (view : View) : View :=
  match outcome with
  | .ok value => (Named.put key value view.1, view.2)
  | .error error => (Named.put key .null view.1, view.2 ++ [⟨error.message, [key]⟩])

/-- Adds what a selected root field is answered, or the name of the type that was asked for. -/
def addField (selection : RootSelection) (outcome : Except EngineError Json) (view : View) : View :=
  if selection.name = "__typename" then (Named.put selection.key (.str "Query") view.1, view.2)
  else addOutcome selection.key outcome view

/-- Adds what root fields are answered without a cache, each under the context for its key. -/
def plainFields (payload : Json) (bindings : Variables) (contextOf : String → RequestContext) :
    List RootSelection → View → View
  | [], view => view
  | selection :: rest, view =>
    let outcome := engine.plain ⟨selection, bindings, payload, contextOf selection.key⟩
    plainFields payload bindings contextOf rest (addField selection outcome view)

/-! ### One root field -/

theorem addAnswer_eq (input : ResolveInput) (answers : Answers) (backend : Backend) :
    viewOf (engine.addAnswer input answers backend).1
        = addField input.selection ((engine.answer input backend).1.result.map Prod.fst)
            (viewOf answers)
      ∧ (engine.addAnswer input answers backend).2
        = if input.selection.name = "__typename" then backend
          else (engine.answer input backend).2 := by
  unfold addAnswer addField
  by_cases hname : input.selection.name = "__typename"
  · simp only [hname, if_true]
    exact ⟨rfl, rfl⟩
  · simp only [hname, if_false, bind, StateT.bind]
    rcases engine.answer input backend with ⟨⟨activity, result⟩, after⟩
    cases result with
    | error error => exact ⟨rfl, rfl⟩
    | ok pair => exact ⟨rfl, rfl⟩

variable {engine} in
theorem resolve_none {input : ResolveInput}
    (hroot : engine.rootField? input.selection.name = none) (backend : Backend) :
    engine.resolve input backend
      = (⟨.none, .error (.unknownRootField input.selection.name)⟩, backend) := by
  unfold resolve
  rw [hroot]
  rfl

variable {engine} in
theorem resolve_custom {input : ResolveInput} {root : BoundRootField}
    (hroot : engine.rootField? input.selection.name = some root) {custom : CustomFetch}
    (hcustom : (engine.registry.entity root.entity).customFetch? root.cardinality = some custom)
    (backend : Backend) : engine.resolve input backend = (fetchCustom custom input, backend) := by
  unfold resolve resolveBound
  simp only [hroot, hcustom]
  rfl

variable {engine} in
theorem resolve_fetch {input : ResolveInput} {root : BoundRootField}
    (hroot : engine.rootField? input.selection.name = some root)
    (hcustom : (engine.registry.entity root.entity).customFetch? root.cardinality = none)
    (backend : Backend) :
    engine.resolve input backend =
      let (activity, source) := engine.fetch root input
      let fetched := Backend.fetch (engine.slot? root input) source
        (fun value => !Normalized.isEmpty value) backend
      (⟨if fetched.1.ran then activity else .none, fetched.1.result⟩, fetched.2) := by
  unfold resolve resolveBound
  simp only [hroot, hcustom]
  rfl

theorem answer_eq (input : ResolveInput) (backend : Backend) :
    engine.answer input backend =
      ({ (engine.resolve input backend).1 with
          result := do
            let (value, status) ← (engine.resolve input backend).1.result
            let shaped ← engine.shape input.selection value
            return (shaped, status) },
        (engine.resolve input backend).2) := rfl

/-- The value of an answer, however the cache behaved. -/
theorem answer_value {input : ResolveInput} {backend : Backend} :
    (engine.answer input backend).1.result.map Prod.fst
      = ((engine.resolve input backend).1.result.map Prod.fst).bind
          (engine.shape input.selection) := by
  rw [answer_eq]
  cases (engine.resolve input backend).1.result with
  | error error => rfl
  | ok pair =>
      obtain ⟨value, status⟩ := pair
      show ((engine.shape input.selection value).bind fun shaped => Except.ok (shaped, status)).map
        Prod.fst = engine.shape input.selection value
      cases engine.shape input.selection value <;> rfl

/-! ### Without a cache -/

theorem slot?_uncached (root : BoundRootField) (input : ResolveInput) :
    engine.uncached.slot? root input = none := by
  unfold slot? uncached
  simp

/-- What a root field is resolved to without a cache. -/
def plainResolve (input : ResolveInput) : Except EngineError Json :=
  match engine.rootField? input.selection.name with
  | none => .error (.unknownRootField input.selection.name)
  | some root =>
    match (engine.registry.entity root.entity).customFetch? root.cardinality with
    | some custom => (fetchCustom custom input).result.map Prod.fst
    | none => (engine.fetch root input).2

theorem resolve_uncached (input : ResolveInput) (backend : Backend) :
    (engine.uncached.resolve input backend).1.result.map Prod.fst = engine.plainResolve input
      ∧ (engine.uncached.resolve input backend).2 = backend := by
  have hfield : engine.uncached.rootField? input.selection.name
    = engine.rootField? input.selection.name := rfl
  unfold plainResolve
  cases hroot : engine.rootField? input.selection.name with
  | none =>
      rw [resolve_none (hfield.trans hroot)]
      exact ⟨rfl, rfl⟩
  | some root =>
      dsimp only
      cases hcustom : (engine.registry.entity root.entity).customFetch? root.cardinality with
      | some custom =>
          rw [resolve_custom (hfield.trans hroot) hcustom]
          exact ⟨rfl, rfl⟩
      | none =>
          rw [resolve_fetch (hfield.trans hroot) hcustom, slot?_uncached,
            show engine.uncached.fetch root input = engine.fetch root input from rfl]
          dsimp only
          rcases engine.fetch root input with ⟨activity, source⟩
          cases source <;> exact ⟨rfl, rfl⟩

theorem plain_eq (input : ResolveInput) :
    engine.plain input = (engine.plainResolve input).bind (engine.shape input.selection) := by
  unfold plain
  rw [answer_value, (engine.resolve_uncached input .fresh).1]
  rfl

/-- An answer without a cache leaves the backend alone. -/
theorem answer_uncached (input : ResolveInput) (backend : Backend) :
    (engine.uncached.answer input backend).1.result.map Prod.fst = engine.plain input
      ∧ (engine.uncached.answer input backend).2 = backend := by
  refine ⟨?_, ?_⟩
  · rw [plain_eq, answer_value, (engine.resolve_uncached input backend).1]
    rfl
  · rw [answer_eq]
    exact (engine.resolve_uncached input backend).2

theorem addAnswers_uncached (payload : Json) (context : RequestContext) (bindings : Variables)
    (fields : List RootSelection) (answers : Answers) (backend : Backend) :
    viewOf (engine.uncached.addAnswers payload context bindings fields answers backend).1
      = engine.plainFields payload bindings (fun _ => context) fields (viewOf answers) := by
  induction fields generalizing answers backend with
  | nil => rfl
  | cons selection rest ih =>
      rw [addAnswers]
      simp only [bind, StateT.bind, plainFields]
      have hstep := (engine.uncached.addAnswer_eq ⟨selection, bindings, payload, context⟩ answers
        backend).1
      rw [(engine.answer_uncached _ _).1] at hstep
      rw [← hstep]
      exact ih _ _

/-! ### Contexts -/

/-- Answers depend on the contexts of their own keys only. -/
theorem plainFields_congr {payload : Json} {bindings : Variables}
    {contextOf contextOf' : String → RequestContext} {fields : List RootSelection}
    (h : ∀ selection ∈ fields, engine.plain ⟨selection, bindings, payload, contextOf selection.key⟩
      = engine.plain ⟨selection, bindings, payload, contextOf' selection.key⟩) (view : View) :
    engine.plainFields payload bindings contextOf fields view
      = engine.plainFields payload bindings contextOf' fields view := by
  induction fields generalizing view with
  | nil => rfl
  | cons selection rest ih =>
      rw [plainFields, plainFields, h selection List.mem_cons_self]
      exact ih (fun s hs => h s (List.mem_cons_of_mem _ hs)) _

theorem addField_values {selection : RootSelection} {outcome other : Except EngineError Json}
    (h : outcome.toOption = other.toOption) {view view' : View} (hdata : view.1 = view'.1)
    (hpaths : view.2.map ResponseError.path = view'.2.map ResponseError.path) :
    (addField selection outcome view).1 = (addField selection other view').1
      ∧ (addField selection outcome view).2.map ResponseError.path
        = (addField selection other view').2.map ResponseError.path := by
  unfold addField addOutcome
  split
  · exact ⟨by rw [hdata], hpaths⟩
  · cases outcome with
    | ok value =>
        cases other with
        | ok value' =>
            cases Option.some.inj h
            exact ⟨by rw [hdata], hpaths⟩
        | error error => exact nomatch h
    | error error =>
        cases other with
        | ok value => exact nomatch h
        | error error' =>
            refine ⟨by rw [hdata], ?_⟩
            rw [List.map_append, List.map_append, hpaths]
            rfl

/-- Engines that answer the root fields of a request the same have the same data for it, and the
same of its fields fail. -/
theorem plainFields_values (engine other : Engine) {payload : Json} {bindings : Variables}
    {contextOf : String → RequestContext} {fields : List RootSelection}
    (h : ∀ selection ∈ fields,
      (engine.plain ⟨selection, bindings, payload, contextOf selection.key⟩).toOption
        = (other.plain ⟨selection, bindings, payload, contextOf selection.key⟩).toOption)
    {view view' : View} (hdata : view.1 = view'.1)
    (hpaths : view.2.map ResponseError.path = view'.2.map ResponseError.path) :
    (engine.plainFields payload bindings contextOf fields view).1
        = (other.plainFields payload bindings contextOf fields view').1
      ∧ (engine.plainFields payload bindings contextOf fields view).2.map ResponseError.path
        = (other.plainFields payload bindings contextOf fields view').2.map ResponseError.path := by
  induction fields generalizing view view' with
  | nil => exact ⟨hdata, hpaths⟩
  | cons selection rest ih =>
      rw [plainFields, plainFields]
      obtain ⟨hnextData, hnextPaths⟩ :=
        addField_values (h selection List.mem_cons_self) hdata hpaths
      exact ih (fun later hlater => h later (List.mem_cons_of_mem _ hlater)) hnextData hnextPaths

/-- The errors of a root field. -/
def errorsAt (key : String) (errors : List ResponseError) : List ResponseError :=
  errors.filter fun error => error.path = [key]

theorem addField_other {selection : RootSelection} {key : String} (hkey : key ≠ selection.key)
    (outcome : Except EngineError Json) (view : View) :
    Named.find? key (addField selection outcome view).1 = Named.find? key view.1
      ∧ errorsAt key (addField selection outcome view).2 = errorsAt key view.2 := by
  unfold addField addOutcome
  split
  · exact ⟨Named.find?_put_of_ne hkey _ _, rfl⟩
  · split
    · exact ⟨Named.find?_put_of_ne hkey _ _, rfl⟩
    · refine ⟨Named.find?_put_of_ne hkey _ _, ?_⟩
      simp [errorsAt, Ne.symm hkey]

theorem addField_self (selection : RootSelection) (outcome : Except EngineError Json)
    {view view' : View}
    (h : errorsAt selection.key view.2 = errorsAt selection.key view'.2) :
    Named.find? selection.key (addField selection outcome view).1
        = Named.find? selection.key (addField selection outcome view').1
      ∧ errorsAt selection.key (addField selection outcome view).2
        = errorsAt selection.key (addField selection outcome view').2 := by
  unfold addField addOutcome
  split
  · exact ⟨by rw [Named.find?_put_self, Named.find?_put_self], h⟩
  · split
    · exact ⟨by rw [Named.find?_put_self, Named.find?_put_self], h⟩
    · refine ⟨by rw [Named.find?_put_self, Named.find?_put_self], ?_⟩
      unfold errorsAt at h ⊢
      rw [List.filter_append, List.filter_append, h]

/-- What stands under a key depends on the context for that key only. -/
theorem plainFields_at {payload : Json} {bindings : Variables}
    {contextOf contextOf' : String → RequestContext} {key : String}
    (hcontext : contextOf key = contextOf' key) {fields : List RootSelection} {view view' : View}
    (hview : Named.find? key view.1 = Named.find? key view'.1
      ∧ errorsAt key view.2 = errorsAt key view'.2) :
    Named.find? key (engine.plainFields payload bindings contextOf fields view).1
        = Named.find? key (engine.plainFields payload bindings contextOf' fields view').1
      ∧ errorsAt key (engine.plainFields payload bindings contextOf fields view).2
        = errorsAt key (engine.plainFields payload bindings contextOf' fields view').2 := by
  induction fields generalizing view view' with
  | nil => exact hview
  | cons selection rest ih =>
      rw [plainFields, plainFields]
      refine ih ?_
      by_cases hkey : key = selection.key
      · subst hkey
        rw [hcontext]
        exact addField_self selection _ hview.2
      · obtain ⟨hdata, herrors⟩ := addField_other hkey
          (engine.plain ⟨selection, bindings, payload, contextOf selection.key⟩) view
        obtain ⟨hdata', herrors'⟩ := addField_other hkey
          (engine.plain ⟨selection, bindings, payload, contextOf' selection.key⟩) view'
        exact ⟨by rw [hdata, hdata', hview.1], by rw [herrors, herrors', hview.2]⟩

/-- Root fields with other keys have no part in what stands under a key. -/
theorem plainFields_other {payload : Json} {bindings : Variables}
    {contextOf : String → RequestContext} {key : String} {fields : List RootSelection}
    (hkey : key ∉ fields.map RootSelection.key) (view : View) :
    Named.find? key (engine.plainFields payload bindings contextOf fields view).1
        = Named.find? key view.1
      ∧ errorsAt key (engine.plainFields payload bindings contextOf fields view).2
        = errorsAt key view.2 := by
  induction fields generalizing view with
  | nil => exact ⟨rfl, rfl⟩
  | cons selection rest ih =>
      rw [List.map_cons, List.mem_cons, not_or] at hkey
      rw [plainFields]
      obtain ⟨hdata, herrors⟩ := addField_other hkey.1
        (engine.plain ⟨selection, bindings, payload, contextOf selection.key⟩) view
      obtain ⟨hdata', herrors'⟩ := ih hkey.2 (addField selection
        (engine.plain ⟨selection, bindings, payload, contextOf selection.key⟩) view)
      exact ⟨hdata'.trans hdata, herrors'.trans herrors⟩

/-- What stands under the key of a root field is what that field is answered. -/
theorem plainFields_own {payload : Json} {bindings : Variables}
    {contextOf : String → RequestContext} {fields : List RootSelection}
    (hkeys : (fields.map RootSelection.key).Nodup) {selection : RootSelection}
    (hselection : selection ∈ fields) {view : View} (hview : errorsAt selection.key view.2 = []) :
    let own := addField selection
      (engine.plain ⟨selection, bindings, payload, contextOf selection.key⟩) ([], [])
    Named.find? selection.key (engine.plainFields payload bindings contextOf fields view).1
        = Named.find? selection.key own.1
      ∧ errorsAt selection.key (engine.plainFields payload bindings contextOf fields view).2
        = errorsAt selection.key own.2 := by
  induction fields generalizing view with
  | nil => exact absurd hselection (by simp)
  | cons first rest ih =>
      obtain ⟨hfirst, hrest⟩ := List.nodup_cons.mp hkeys
      rw [plainFields]
      rcases List.mem_cons.mp hselection with rfl | hselection
      · obtain ⟨hdata, herrors⟩ := engine.plainFields_other hfirst (addField selection
          (engine.plain ⟨selection, bindings, payload, contextOf selection.key⟩) view)
        obtain ⟨hdata', herrors'⟩ := addField_self selection
          (engine.plain ⟨selection, bindings, payload, contextOf selection.key⟩)
          (show errorsAt selection.key view.2
            = errorsAt selection.key (([], []) : View).2 from hview)
        exact ⟨hdata.trans hdata', herrors.trans herrors'⟩
      · have hkey : selection.key ≠ first.key := fun heq =>
          hfirst (heq ▸ List.mem_map_of_mem hselection)
        refine ih hrest hselection ?_
        rw [(addField_other hkey _ view).2]
        exact hview

end Engine

end GraphFetch
