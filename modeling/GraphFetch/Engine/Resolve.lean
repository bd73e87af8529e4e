/-
Answering one root field.

The selection is compiled before anything is sent to the executor, so a selection
that cannot be compiled costs no query.  The query starts from the table and takes
the hook, the arguments, the projection and the modifier of the root field, in this
order; later edits are on top.  Entities with a fetch of their own are answered by
it, and past the cache.
-/
import GraphFetch.Cache.Fetch
import GraphFetch.Cache.Key
import GraphFetch.Engine.Basic
import GraphFetch.Engine.Normalized
import GraphFetch.Engine.Request
import GraphFetch.Plan.Compile

namespace GraphFetch

/-- What a root field is answered from. -/
structure ResolveInput where
  selection : RootSelection
  bindings : Variables
  /-- The request as it came in. -/
  payload : Json
  context : RequestContext

/-- What an executor was asked and what it did, and what entities' own fetches were asked. -/
structure Activity where
  queries : List Query
  statements : List String
  fetches : List FetchRequest
deriving Inhabited

namespace Activity

def none : Activity := ⟨[], [], []⟩

def append (first second : Activity) : Activity where
  queries := first.queries ++ second.queries
  statements := first.statements ++ second.statements
  fetches := first.fetches ++ second.fetches

end Activity

/-- What came of a root field: the normalized value and how the cache behaved. -/
structure Resolved where
  activity : Activity
  result : Except EngineError (Json × CacheStatus)

namespace Engine

variable (engine : Engine)

/-! ### Fetching -/

/-- The query of a root field and the relations it loads. -/
def plan (root : BoundRootField) (input : ResolveInput) :
    Except PlanError (Query × List RelationNode) := do
  let entity := engine.registry.entity root.entity
  let settings := engine.settings.query
  let context : PlanContext := ⟨engine.registry, input.bindings, settings⟩
  let load ← Plan.compile context entity (input.selection.children ())
  let arguments ← Plan.argumentModifier context entity input.selection.arguments
  let projection ← Plan.projectionModifier context entity (input.selection.children ())
  let start := { entity.query with skipsUndefined := settings.skipUndefined }
  let hooked := start.applyAll (engine.hook input.context)
  let edits := arguments.toList ++ projection.toList ++ root.modifier.toList
  let eager := if load.isEmpty then [] else [.load load.relations load.modifiers]
  return (hooked.applyAll (edits ++ eager), load.relations)

/-- Fetches the value of a root field. -/
def fetch (root : BoundRootField) (input : ResolveInput) : Activity × Except EngineError Json :=
  match engine.plan root input with
  | .error error => (.none, .error (.plan error))
  | .ok (query, relations) =>
    let run := engine.executor query
    let activity : Activity := ⟨[query], run.statements, []⟩
    match run.result with
    | .error error => (activity, .error (.executor error))
    | .ok rows =>
      let entity := engine.registry.entity root.entity
      (activity, .ok (Normalized.ofRows engine.registry entity relations root.cardinality rows))

/-! ### Through the cache -/

/-- Where the value of a root field is kept, if it is. -/
def slot? (root : BoundRootField) (input : ResolveInput) : Option CacheSlot :=
  let settings := engine.settings.cache
  if engine.hasCache && settings.enabled
      && !CacheKey.isBypassed input.payload settings.bypassField then
    let field := root.name ++ ":" ++ input.selection.key
    let digest := CacheKey.digest field input.payload settings.bypassField input.bindings
    some ⟨CacheKey.text settings.keyPrefix digest, settings.ttl⟩
  else none

/-- Answers a root field by the entity's own fetch. -/
def fetchCustom (custom : CustomFetch) (input : ResolveInput) : Resolved :=
  let request : FetchRequest :=
    ⟨input.selection.toWrittenField, input.bindings, input.payload, input.context⟩
  let activity : Activity := ⟨[], [], [request]⟩
  match custom request with
  | .ok value => ⟨activity, .ok (value, .bypass)⟩
  | .error error => ⟨activity, .error (.executor error)⟩

/-- Answers a root field that is bound. -/
def resolveBound (root : BoundRootField) (input : ResolveInput) : StateM Backend Resolved :=
  let entity := engine.registry.entity root.entity
  match entity.customFetch? root.cardinality with
  | some custom => return fetchCustom custom input
  | none => do
    let (activity, source) := engine.fetch root input
    let fetched ← Backend.fetch (engine.slot? root input) source fun value =>
      !Normalized.isEmpty value
    return ⟨if fetched.ran then activity else .none, fetched.result⟩

/-- Answers a root field with its normalized value. -/
def resolve (input : ResolveInput) : StateM Backend Resolved :=
  match engine.rootField? input.selection.name with
  | some root => engine.resolveBound root input
  | none => return ⟨.none, .error (.unknownRootField input.selection.name)⟩

end Engine

end GraphFetch
