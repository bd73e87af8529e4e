/-
Requests.

A payload holds the text of a document, perhaps the name of one of its operations,
and values for variables; whatever else it holds is for others.  Accepting it means
to read the document, find the operation, fill in the variables' defaults and find the
root fields, in whatever fragments they stand.  Nothing has been fetched by then, so a
request that is refused had no effect.
-/
import GraphFetch.Decoding.Json
import GraphFetch.Document.Parser
import GraphFetch.Document.Selected
import GraphFetch.Document.Variables
import GraphFetch.Plan.Arguments

namespace GraphFetch

/-- Why a payload is no request that can be run. -/
inductive RequestError
  | malformed (error : DecodeError)
  | document (error : DocumentError)
  | unknownOperation (name : String)
  | operationNameRequired
  | noOperation
  | unsupportedOperation (kind : OperationKind)
deriving Inhabited

def OperationKind.text : OperationKind → String
  | query => "query"
  | mutation => "mutation"
  | subscription => "subscription"

def RequestError.reason : RequestError → String
  | malformed error => error.message
  | document error => error.message
  | unknownOperation name => "unknown operation named `" ++ name ++ "`"
  | operationNameRequired =>
    "an operation name is required when the document has several operations"
  | noOperation => "the document contains no operation"
  | unsupportedOperation kind => kind.text ++ " operations are not supported"

def RequestError.message (error : RequestError) : String := "invalid request: " ++ error.reason

/-- Why a request, or one of its root fields, has no answer. -/
inductive EngineError
  | request (error : RequestError)
  | plan (error : PlanError)
  | unknownRootField (name : String)
  | executor (error : ExecutorError)
deriving Inhabited

def EngineError.message : EngineError → String
  | request error => error.message
  | plan error => error.message
  | unknownRootField name => "no resolver registered for root field `" ++ name ++ "`"
  | executor error => error.message

/-! ### Payloads -/

structure Request where
  query : String := ""
  operationName : Option String := none
  bindings : Variables := []
deriving Inhabited

namespace Request

/-- The values of variables; null gives none. -/
def variablesOf (json : Json) : Except DecodeError Variables := do
  let members ← Format.json.nullable Format.json.members json
  return Variables.ofMembers (members.getD [])

def type : RecordType Json Request where
  name := "Request"
  closed := false
  fields := [
    .required "query" Format.json.string fun query request => { request with query },
    .optional "operationName" (Format.json.nullable Format.json.string)
      fun operationName request => { request with operationName },
    .optional "variables" variablesOf fun bindings request => { request with bindings }]

/-- The request in a payload. -/
def ofJson (payload : Json) : Except DecodeError Request := type.decode .json {} payload

end Request

/-! ### Operations -/

/-- The operation of a name, or without one the only operation. -/
def Document.selectOperation (document : Document) (name : Option String) :
    Except RequestError Operation :=
  match name, document.operations with
  | some name, operations =>
    match operations.find? fun operation => operation.name == some name with
    | some operation => .ok operation
    | none => .error (.unknownOperation name)
  | none, [operation] => .ok operation
  | none, [] => .error .noOperation
  | none, _ => .error .operationNameRequired

/-- Gives variables without a value their declared default, if there is one. -/
def Operation.withDefaults (operation : Operation) (bindings : Variables) : Variables :=
  operation.declared.foldl
    (fun bindings definition =>
      match Named.find? definition.name bindings, definition.default with
      | none, some value => bindings.insert definition.name value
      | _, _ => bindings)
    bindings

/-! ### Root fields -/

namespace Fragments

mutual

/-- The root fields that a selection brings in, given those of every spread. -/
def rootsOfOne (spread : String → Except PlanError (List WrittenField)) :
    Selection → Except PlanError (List WrittenField)
  | .field name asName arguments directives children =>
    .ok [⟨name, asName, arguments, directives, children⟩]
  | .spread fragment _ => spread fragment
  | .group _ _ children => rootsOf spread children

/-- The root fields of a selection set, given those of every spread. -/
def rootsOf (spread : String → Except PlanError (List WrittenField)) :
    List Selection → Except PlanError (List WrittenField)
  | [] => .ok []
  | selection :: rest => do
    let first ← rootsOfOne spread selection
    let others ← rootsOf spread rest
    return first ++ others

end

/-- The root fields of a selection set, following chains of at most `depth` spreads. -/
def rootsWithin (fragments : Fragments) :
    Nat → List Selection → Except PlanError (List WrittenField)
  | 0 => rootsOf fun name => .error (.unknownFragment name)
  | depth + 1 => rootsOf fun name =>
    match Named.find? name fragments with
    | some body => rootsWithin fragments depth body
    | none => .error (.unknownFragment name)

/-- The root fields of a selection set, all of whose fragments must be there. -/
def rootFields (fragments : Fragments) (selections : List Selection) :
    Except PlanError (List WrittenField) :=
  rootsWithin fragments fragments.length selections

end Fragments

/-- A root field as it is written, and what is selected below it. -/
structure RootSelection extends WrittenField where
  children : Unit → Selected
deriving Inhabited

/-- The name under which the field answers. -/
def RootSelection.key (selection : RootSelection) : String := selection.toWrittenField.key

/-- A field with the fields below it, whose fragments need not be there. -/
def WrittenField.root (fragments : Fragments) (field : WrittenField) : RootSelection :=
  ⟨field, fun _ => fragments.expand field.selections⟩

/-- What is left to do of a request once it is accepted. -/
structure AcceptedRequest where
  bindings : Variables
  fields : List RootSelection
deriving Inhabited

/-- Accepts a payload or says why it cannot be run. -/
def AcceptedRequest.ofJson (payload : Json) : Except EngineError AcceptedRequest := do
  let request ← (Request.ofJson payload).mapError fun error => .request (.malformed error)
  let document ← (Document.parse request.query).mapError fun error => .request (.document error)
  let operation ← (document.selectOperation request.operationName).mapError .request
  if operation.kind ≠ .query then throw (.request (.unsupportedOperation operation.kind))
  let fields ← (document.fragments.rootFields operation.selections).mapError .plan
  return ⟨operation.withDefaults request.bindings, fields.map (·.root document.fragments)⟩

end GraphFetch
