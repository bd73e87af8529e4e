/-
Values of TOML.

A table remembers how it was written, because that decides what may still be added
to it: a table in braces is complete, a table with a header takes no dotted keys
from elsewhere, and a table that was only passed on the way to another may yet get
its own header.
-/
import GraphFetch.Number.Shortest

namespace GraphFetch

namespace Toml

/-- A floating point number; TOML can write those that are not finite. -/
inductive Real
  | finite (x : Double)
  | infinite (negative : Bool)
  | notANumber
deriving DecidableEq, Inhabited

/-- How a table came to be. -/
inductive Origin
  /-- In braces. -/
  | braces
  /-- The document itself, or below a header. -/
  | header
  /-- On the way to the table of a header. -/
  | passing
  /-- On the way to the value of a dotted key. -/
  | dotted
deriving DecidableEq, Inhabited

end Toml

inductive Toml
  | string (s : String)
  | integer (n : Int)
  | float (x : Toml.Real)
  | boolean (b : Bool)
  /-- A date, a time or both, as it is written. -/
  | dateTime (text : String)
  | array (items : List Toml)
  | table (origin : Toml.Origin) (members : List (String × Toml))
  /-- The tables of a repeated header, of which there is at least one. -/
  | tables (earlier : List (List (String × Toml))) (last : List (String × Toml))
deriving Inhabited

namespace Toml

abbrev Members := List (String × Toml)

/-- The text of a floating point number, never with a power of ten. -/
def Real.text : Real → String
  | finite x => String.ofList (x.chars .plain)
  | infinite negative => if negative then "-inf" else "inf"
  | notANumber => "NaN"

end Toml

end GraphFetch
