/-
TOML as a format of records.
-/
import GraphFetch.Decoding.Record
import GraphFetch.Toml.Basic

namespace GraphFetch

/-- What a TOML value looks like; a date is a map whose one member is its text. -/
def Toml.shape : Toml → Shape Toml
  | .string s => .string s
  | .integer n => .integer n
  | .float x => .float x.text
  | .boolean b => .boolean b
  | .dateTime text => .map [("$__toml_private_datetime", .string text)]
  | .array items => .sequence items
  | .table _ members => .map members
  | .tables earlier last => .sequence ((earlier ++ [last]).map (.table .header))

/-- TOML, where a sequence may hold more values than its record has fields. -/
def Format.toml : Format Toml := ⟨Toml.shape, true⟩

end GraphFetch
