/-
What the arguments of a field do to its query.

Literals are resolved when a request is compiled, so one that is not supported
fails before anything is fetched.  An argument that resolves to no value is left
out where the query skips undefined values, and else its filter sees that there is
none.  Arguments without a filter do nothing.
-/
import GraphFetch.Settings.Basic
import GraphFetch.Document.Selected
import GraphFetch.Schema.Entity

namespace GraphFetch

/-- Why a selection cannot be compiled. -/
inductive PlanError
  | unsupportedLiteral (literal : Literal)
  | unknownFragment (name : String)
  | duplicateRelation (entity key : String)
deriving Inhabited

def PlanError.message : PlanError → String
  | unsupportedLiteral literal => "unsupported argument literal: " ++ literal.text
  | unknownFragment name => "unknown fragment `" ++ name ++ "`"
  | duplicateRelation entity key =>
    "`" ++ key ++ "` selects a relation of `" ++ entity
      ++ "` more than once, alias each selection"

/-- What compiling a root field refers to. -/
structure PlanContext where
  registry : Registry
  bindings : Variables
  settings : QuerySettings

namespace Plan

/-- The value of an argument, nothing if it resolves to none. -/
def argumentValue (bindings : Variables) (literal : Literal) :
    Except PlanError (Option Const) :=
  match literal.resolve bindings with
  | .ok value => .ok value
  | .error refused => .error (.unsupportedLiteral refused)

/-- What an argument does with its value. -/
def argumentEdits (entity : Entity) (name : String) (value : Option Const) : List Edit :=
  match entity.filter? name, value with
  | some filter, some value => filter (some value)
  | some filter, none => [.unlessSkipping (filter none)]
  | none, _ => []

/-- What arguments do, in order. -/
def allArgumentEdits (bindings : Variables) (entity : Entity) :
    List (String × Literal) → Except PlanError (List Edit)
  | [] => .ok []
  | (name, literal) :: rest => do
    let value ← argumentValue bindings literal
    let edits ← allArgumentEdits bindings entity rest
    return argumentEdits entity name value ++ edits

/-- The modifier of a field's arguments, none without arguments. -/
def argumentModifier (context : PlanContext) (entity : Entity)
    (arguments : List (String × Literal)) : Except PlanError (Option Edit) :=
  if arguments.isEmpty then .ok none
  else do
    let edits ← allArgumentEdits context.bindings entity arguments
    return some (.all edits)

end Plan

end GraphFetch
