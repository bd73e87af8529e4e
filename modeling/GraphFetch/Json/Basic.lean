/-
JSON values with ordered members.

Members keep the order in which they were written, since texts, cache keys and
responses show it.  Equality of whole values ignores that order: two objects are
the same when each has the other's members.
-/
import GraphFetch.Json.Named
import GraphFetch.Number.Basic

namespace GraphFetch

/-- A JSON value; the members of an object are in order and their names distinct. -/
inductive Json
  | null
  | bool (b : Bool)
  | num (n : Number)
  | str (s : String)
  | arr (items : List Json)
  | obj (members : List (String × Json))
deriving Inhabited

namespace Json

/-! ### Views -/

def isNull : Json → Bool
  | null => true
  | _ => false

def asString? : Json → Option String
  | str s => some s
  | _ => none

def asBool? : Json → Option Bool
  | bool b => some b
  | _ => none

/-- The member of an object. -/
def member? (name : String) : Json → Option Json
  | obj members => Named.find? name members
  | _ => none

/-! ### Equality of values -/

mutual

/-- Whether two values are the same, whatever the order of members. -/
def same : Json → Json → Bool
  | null, null => true
  | bool a, bool b => a == b
  | num a, num b => a.same b
  | str a, str b => a == b
  | arr xs, arr ys => sameItems xs ys
  | obj ms, obj ns => ms.length == ns.length && sameMembers ms ns
  | _, _ => false

/-- Whether two lists hold the same values at the same places. -/
def sameItems : List Json → List Json → Bool
  | [], [] => true
  | x :: xs, y :: ys => same x y && sameItems xs ys
  | _, _ => false

/-- Whether every member has its value among the others. -/
def sameMembers : List (String × Json) → List (String × Json) → Bool
  | [], _ => true
  | (name, value) :: rest, others =>
    (match Named.find? name others with
      | some other => same value other
      | none => false) && sameMembers rest others

end

end Json

/-- A row of a table or of a result: values by column, alias or relation key. -/
abbrev Row := List (String × Json)

end GraphFetch
