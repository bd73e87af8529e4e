/-
Variables, and what a literal resolves to under them.

A variable without a value resolves to nothing, which is no error: whether that
means "not given" is decided when a filter is applied.  Inside a list it becomes
null, so that positions are kept.  Null and object literals are refused; what a
variable holds is not looked into.
-/
import GraphFetch.Document.Literal

namespace GraphFetch

/-- The values of a request's variables, sorted by name. -/
abbrev Variables := List (String × Const)

namespace Variables

/-- Gives a variable a value, keeping the names sorted. -/
def insert (name : String) (value : Const) : Variables → Variables
  | [] => [(name, value)]
  | (other, old) :: rest =>
    if name = other then (name, value) :: rest
    else if name < other then (name, value) :: (other, old) :: rest
    else (other, old) :: insert name value rest

/-- The variables of the members of an object. -/
def ofMembers (members : List (String × Json)) : Variables :=
  members.foldl (fun bindings (name, value) => insert name (Const.ofJson value) bindings) []

/-- The variables as an object. -/
def toJson (bindings : Variables) : Json := (Const.object bindings).toJson

end Variables

namespace Literal

mutual

/-- The value of a literal, nothing for a variable without one, or the literal refused. -/
def resolve (bindings : Variables) : Literal → Except Literal (Option Const)
  | var name => .ok (Named.find? name bindings)
  | number n => .ok (some (.number n))
  | string s => .ok (some (.string s))
  | boolean b => .ok (some (.boolean b))
  | enum name => .ok (some (.enum name))
  | binary bytes => .ok (some (.binary bytes))
  | list items =>
    match resolveItems bindings items with
    | .ok values => .ok (some (.list values))
    | .error refused => .error refused
  | null => .error null
  | object members => .error (object members)

/-- The values of a list's items, null for a variable without one. -/
def resolveItems (bindings : Variables) : List Literal → Except Literal (List Const)
  | [] => .ok []
  | item :: rest =>
    match resolve bindings item with
    | .error refused => .error refused
    | .ok value =>
      match resolveItems bindings rest with
      | .error refused => .error refused
      | .ok values => .ok (value.getD .null :: values)

end

end Literal

end GraphFetch
