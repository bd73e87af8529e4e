/-
The engine and its root fields.

A root field is bound to an entity when the engine is built, so that a wrong name
shows at once and not when a request comes in.  Two root fields of one name are one:
the later binding counts, at the place of the earlier.
-/
import GraphFetch.Database.Run
import GraphFetch.Schema.Builder
import GraphFetch.Settings.Basic

namespace GraphFetch

/-- A root field as it is declared. -/
structure RootField where
  name : String
  entity : String
  cardinality : Cardinality
  /-- What is done to every query of the field, after its arguments and columns. -/
  modifier : Option Edit
deriving Inhabited

/-- A root field with its entity found. -/
structure BoundRootField where
  name : String
  entity : EntityId
  cardinality : Cardinality
  modifier : Option Edit
deriving Inhabited

/-- What is done to every root query first. -/
abbrev QueryHook := RequestContext → List Edit

structure Engine where
  registry : Registry
  settings : Settings
  executor : Executor
  rootFields : List (String × BoundRootField)
  hook : QueryHook
  /-- Whether there is a cache to use. -/
  hasCache : Bool

namespace RootField

/-- Finds the entity of a root field. -/
def bind (registry : Registry) (field : RootField) : Except RegistryError BoundRootField :=
  match registry.find? field.entity with
  | some entity => .ok ⟨field.name, entity.id, field.cardinality, field.modifier⟩
  | none => .error (.unknownRootEntity field.name field.entity)

/-- Finds the entities of root fields. -/
def bindAll (registry : Registry) (fields : List RootField) :
    Except RegistryError (List (String × BoundRootField)) := do
  let bound ← fields.mapM fun field => field.bind registry
  return Named.ofList (bound.map fun field => (field.name, field))

end RootField

namespace Engine

/-- An engine with these root fields. -/
def build (registry : Registry) (settings : Settings) (executor : Executor)
    (fields : List RootField) (hook : QueryHook) (hasCache : Bool) :
    Except RegistryError Engine := do
  let rootFields ← RootField.bindAll registry fields
  return { registry, settings, executor, rootFields, hook, hasCache }

/-- The root field of a name. -/
def rootField? (engine : Engine) (name : String) : Option BoundRootField :=
  Named.find? name engine.rootFields

end Engine

end GraphFetch
