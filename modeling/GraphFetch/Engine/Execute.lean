/-
Answering requests.

Root fields are answered one after the other, and one that fails does not keep the
others from their answers.
-/
import GraphFetch.Engine.Resolve
import GraphFetch.Engine.Response
import GraphFetch.Engine.Shaped

namespace GraphFetch

/-- A response and what was done for it. -/
structure Execution where
  response : Response
  activity : Activity
deriving Inhabited

/-- What the root fields answered so far. -/
structure Answers where
  data : List (String × Json)
  errors : List ResponseError
  cache : List (String × CacheStatus)
  activity : Activity
deriving Inhabited

namespace Answers

def none : Answers := ⟨[], [], [], .none⟩

/-- Adds the value of a root field. -/
def succeed (answers : Answers) (key : String) (value : Json) (status : CacheStatus) : Answers :=
  { answers with
    data := Named.put key value answers.data
    cache := Named.put key status answers.cache }

/-- Adds the failure of a root field. -/
def fail (answers : Answers) (key : String) (error : EngineError) : Answers :=
  { answers with
    data := Named.put key .null answers.data
    errors := answers.errors ++ [⟨error.message, [key]⟩] }

/-- Adds what was done for a root field. -/
def addActivity (answers : Answers) (activity : Activity) : Answers :=
  { answers with activity := answers.activity.append activity }

def toResponse (answers : Answers) : Response :=
  ⟨.obj answers.data, answers.errors, answers.cache⟩

end Answers

namespace Engine

variable (engine : Engine)

/-- A normalized value of a root field in the shape of its selection. -/
def shape (selection : RootSelection) (value : Json) : Except EngineError Json :=
  match engine.rootField? selection.name with
  | some root =>
    (Shaped.ofValue engine.registry (engine.registry.entity root.entity) selection.children
      value).mapError .plan
  | none => .error (.unknownRootField selection.name)

/-- The answer of a root field: its shaped value and how the cache behaved. -/
def answer (input : ResolveInput) : StateM Backend Resolved := do
  let resolved ← engine.resolve input
  return { resolved with
    result := do
      let (value, status) ← resolved.result
      let shaped ← engine.shape input.selection value
      return (shaped, status) }

/-- Adds the answer of a root field. -/
def addAnswer (input : ResolveInput) (answers : Answers) : StateM Backend Answers := do
  let key := input.selection.key
  if input.selection.name = "__typename" then
    return { answers with data := Named.put key (.str "Query") answers.data }
  else do
    let resolved ← engine.answer input
    let answers := answers.addActivity resolved.activity
    match resolved.result with
    | .ok (value, status) => return answers.succeed key value status
    | .error error => return answers.fail key error

/-- Adds the answers of root fields in order. -/
def addAnswers (payload : Json) (context : RequestContext) (bindings : Variables) :
    List RootSelection → Answers → StateM Backend Answers
  | [], answers => return answers
  | selection :: rest, answers => do
    let answers ← engine.addAnswer ⟨selection, bindings, payload, context⟩ answers
    addAnswers payload context bindings rest answers

/-- Answers a request. -/
def execute (payload : Json) (context : RequestContext) : StateM Backend Execution := do
  match AcceptedRequest.ofJson payload with
  | .error error => return ⟨.refused error.message, .none⟩
  | .ok request =>
    let answers ← engine.addAnswers payload context request.bindings request.fields .none
    return ⟨answers.toResponse, answers.activity⟩

end Engine

end GraphFetch
