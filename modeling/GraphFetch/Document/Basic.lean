/-
Documents: operations and fragments over selections.

A selection is a field, a spread of a named fragment or a group written in place.
Directives and the type conditions of groups play no part in what is fetched; they are
kept because an entity's own fetch sees its field as it is written.  Where in the text
a thing stands is not kept, nor what is written at operations, fragments and variables
beyond what is read of them.
-/
import GraphFetch.Document.Literal

namespace GraphFetch

structure Directive where
  name : String
  arguments : List (String × Literal)
deriving Inhabited

/-- One entry of a selection set. -/
inductive Selection
  | field (name : String) (asName : Option String) (arguments : List (String × Literal))
      (directives : List Directive) (children : List Selection)
  | spread (fragment : String) (directives : List Directive)
  | group (condition : Option String) (directives : List Directive) (children : List Selection)
deriving Inhabited

/-- A field with a name and nothing else. -/
def Selection.leaf (name : String) : Selection := .field name none [] [] []

/-- The name under which a field answers. -/
def responseKey (name : String) (asName : Option String) : String := asName.getD name

/-- A field as it is written. -/
structure WrittenField where
  name : String
  asName : Option String
  arguments : List (String × Literal)
  directives : List Directive
  selections : List Selection
deriving Inhabited

namespace WrittenField

/-- The name under which the field answers. -/
def key (field : WrittenField) : String := responseKey field.name field.asName

/-- The field as an entry of a selection set. -/
def selection (field : WrittenField) : Selection :=
  .field field.name field.asName field.arguments field.directives field.selections

end WrittenField

inductive OperationKind
  | query
  | mutation
  | subscription
deriving DecidableEq, Inhabited

/-- A declared variable and the value it has when a request gives none. -/
structure VariableDefinition where
  name : String
  default : Option Const
deriving Inhabited

structure Operation where
  kind : OperationKind
  name : Option String
  declared : List VariableDefinition
  selections : List Selection
deriving Inhabited

/-- The selections of the fragments by name. -/
abbrev Fragments := List (String × List Selection)

/-- At least one operation, and fragments with distinct names. -/
structure Document where
  operations : List Operation
  fragments : Fragments
deriving Inhabited

end GraphFetch
