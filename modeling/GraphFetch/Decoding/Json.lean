/-
JSON as a format of records.
-/
import GraphFetch.Decoding.Record
import GraphFetch.Json.Basic

namespace GraphFetch

/-- What a JSON value looks like. -/
def Json.shape : Json → Shape Json
  | .null => .null
  | .bool b => .boolean b
  | .num (.int n) => .integer n
  | .num (.float x) => .float (String.ofList (x.chars .json))
  | .str s => .string s
  | .arr items => .sequence items
  | .obj members => .map members

/-- JSON, where a sequence holds no more values than its record has fields. -/
def Format.json : Format Json := ⟨Json.shape, false⟩

end GraphFetch
