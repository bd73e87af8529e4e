/-
Selections with their fragments put in place.

What compiles, projects and shapes a selection set only cares for its fields, in
document order, wherever fragments brought them in.  `Fragments.expand` gives those
fields.  A spread of an unknown fragment stays among them as a mark, so that it fails
only what comes by.

What is selected below a field is worked out when it is asked for.  Below a plain
field nobody asks, and there fragments may spread each other in circles, or so often
that their fields cannot be counted.

A chain of spreads in a document without circles visits each fragment once at most,
so as many levels as there are fragments put every one of them in place.
-/
import GraphFetch.Document.Basic
import GraphFetch.Json.Named

namespace GraphFetch

/-- The fields that a selection set selects, in order, and the fragments that it lacks. -/
inductive Selected
  | none
  | field (name : String) (asName : Option String) (arguments : List (String × Literal))
      (children : Unit → Selected) (rest : Selected)
  | missing (fragment : String) (rest : Selected)
deriving Inhabited

/-- The fields of one set and then those of another. -/
def Selected.append : Selected → Selected → Selected
  | none, other => other
  | field name asName arguments children rest, other =>
    field name asName arguments children (rest.append other)
  | missing fragment rest, other => missing fragment (rest.append other)

namespace Fragments

mutual

/-- The fields of a selection and those after it, given those of every spread. -/
def spliceOne (spread : String → Selected) (after : Selected) : Selection → Selected
  | .field name asName arguments _ children =>
    .field name asName arguments (fun _ => splice spread children) after
  | .spread fragment _ => (spread fragment).append after
  | .group _ _ children => (splice spread children).append after

/-- The fields of a selection set, given those of every spread. -/
def splice (spread : String → Selected) : List Selection → Selected
  | [] => .none
  | selection :: rest => spliceOne spread (splice spread rest) selection

end

/-- The fields of a selection set, following chains of at most `depth` spreads. -/
def expandWithin (fragments : Fragments) : Nat → List Selection → Selected
  | 0 => splice fun name => .missing name .none
  | depth + 1 => splice fun name =>
    match Named.find? name fragments with
    | some body => expandWithin fragments depth body
    | none => .missing name .none

/-- The fields of a selection set in document order. -/
def expand (fragments : Fragments) (selections : List Selection) : Selected :=
  expandWithin fragments fragments.length selections

end Fragments

end GraphFetch
