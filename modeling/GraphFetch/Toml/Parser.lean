/-
Reading TOML.

    document = entry* section*
    section  = ("[" key "]" | "[[" key "]]") entry*
    entry    = key "=" value
    key      = name ("." name)*
    value    = string | number | date | true | false | array | braces
    array    = "[" (value ("," value)* ","?)? "]"
    braces   = "\x7b" (entry ("," entry)*)? "\x7d"

Entries and headers take a line each.  Line ends and comments are free in arrays and
not allowed in braces.  Arrays and braces nest at most 79 deep, and a key has at most
79 names.
-/
import GraphFetch.Toml.Number
import GraphFetch.Toml.Quoted
import GraphFetch.Toml.Section

namespace GraphFetch

namespace Toml

namespace Reader

/-- How deep arrays and braces may nest, and how long a key may be. -/
def depthLimit : Nat := 79

/-! ### Keys -/

def isNameChar (c : Char) : Bool := c.isAlphanum || c == '_' || c == '-'

/-- A name, bare or in quotes on one line. -/
def name : Reader String :=
  Quoted.line '"' <|> Quoted.line '\'' <|> do
    let first ← char isNameChar
    let more ← run isNameChar
    return String.ofList (first :: more)

def keyPart : Reader String := do
  skipBlanks
  let name ← name
  skipBlanks
  return name

def key : Reader Key := do
  let first ← keyPart
  let more ← many do
    exactly "."
    keyPart
  if depthLimit ≤ more.length then failure
  match more.getLast? with
  | some last => return ⟨first :: more.dropLast, last⟩
  | none => return ⟨[], first⟩

/-! ### Values -/

/-- A value without parts. -/
def plain : Reader Toml :=
  (do return .string (← Quoted.string))
  <|> numeric
  <|> (do exactly "true"; return .boolean true)
  <|> (do exactly "false"; return .boolean false)

/-- Elements in brackets. -/
def array (value : Reader Toml) : Reader Toml := do
  exactly "["
  let items ← separated "," do
    skipFiller
    let item ← value
    skipFiller
    return item
  unless items.isEmpty do discard (Text.maybe (exactly ","))
  skipFiller
  exactly "]"
  return .array items

/-- A key and a value. -/
def keyed (value : Reader Toml) : Reader (Key × Toml) := do
  let key ← key
  exactly "="
  skipBlanks
  let value ← value
  return (key, value)

/-- Entries in braces. -/
def braces (value : Reader Toml) : Reader Toml := do
  exactly "\x7b"
  let entries ← separated "," do
    let entry ← keyed value
    skipBlanks
    return entry
  skipBlanks
  exactly "\x7d"
  let members ← Members.insertAll? [] entries
  return .table .braces members

/-- A value that nests to a bounded depth. -/
def value : Nat → Reader Toml
  | 0 => plain
  | depth + 1 => plain <|> array (value depth) <|> braces (value depth)

/-! ### Documents -/

/-- An entry on a line of its own. -/
def entry : Reader (Key × Toml) := do
  skipFiller
  let entry ← keyed (value depthLimit)
  endLine
  return entry

/-- A header on a line of its own: whether it may be repeated, and its key. -/
def header : Reader (Bool × Key) := do
  skipFiller
  let header ← (do
      exactly "[["
      let key ← key
      exactly "]]"
      return (true, key))
    <|> do
      exactly "["
      let key ← key
      exactly "]"
      return (false, key)
  endLine
  return header

/-- A header and the entries below it. -/
def block : Reader Section := do
  let (repeated, key) ← header
  let entries ← many entry
  return ⟨repeated, key, entries⟩

/-- The members of a document that takes up the whole text. -/
def document : Reader Members := do
  discard (Text.maybe (exactly "\uFEFF"))
  let entries ← many entry
  let sections ← many block
  skipFiller
  unless (← get).isEmpty do failure
  document? entries sections

end Reader

/-- The document of a text. -/
def parse? (text : String) : Option Toml :=
  (Reader.document text.toList).map fun (members, _) => .table .header members

end Toml

end GraphFetch
