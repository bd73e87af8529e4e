/-
Comparing stored and bound values.

Numbers are the same when they are near the same double, whatever their text; all
other values are compared as JSON.  The order knows numbers, strings, booleans and
null, which sorts first; values of different kinds neither precede nor follow each
other.
-/
import GraphFetch.Json.Basic

namespace GraphFetch

namespace Comparison

/-- Whether two values are the same for conditions and joins. -/
def equals : Json → Json → Bool
  | .num m, .num n => m.agrees n
  | a, b => a.same b

/-- The order of booleans: false first. -/
def orderBool : Bool → Bool → Ordering
  | false, true => .lt
  | true, false => .gt
  | _, _ => .eq

/-- The order of strings by their code points. -/
def orderString (s t : String) : Ordering :=
  if s < t then .lt else if s = t then .eq else .gt

/-- The order of values for conditions and sorting. -/
def order : Json → Json → Ordering
  | .num m, .num n => m.order n
  | .str s, .str t => orderString s t
  | .bool a, .bool b => orderBool a b
  | .null, .null => .eq
  | .null, _ => .lt
  | _, .null => .gt
  | _, _ => .eq

end Comparison

end GraphFetch
