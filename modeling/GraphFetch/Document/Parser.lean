/-
Reading documents.

    document   = definition+
    definition = kind? name? variables? directives? set | "fragment" name condition directives? set
    variables  = "(" ("$" name ":" type directives? ("=" constant)?)* ")"
    set        = "\x7b" (field | group | spread)+ "\x7d"
    field      = (name ":")? name arguments? directives? set?
    group      = "..." condition? directives? set
    spread     = "..." name directives?
    value      = "$" name | number | string | true | false | null | enum | list | object

The first alternative that fits is taken, and words need no boundary: `[trueish]` is
`true` and the enum `ish`.  Types are read and dropped, and so are the directives of
definitions and the type conditions of fragments.  Below the selection set of a
definition, 64 more may be nested.
-/
import GraphFetch.Document.Quoted
import GraphFetch.Document.Reader

namespace GraphFetch

namespace Document

open Reader
open Text (maybe absent)

/-! ### Values -/

/-- A number that no letter follows. -/
def number : Reader Number := do
  skipBlanks
  let input ← get
  let (spelling, rest) ← Number.readSpelling? input.text
  if (rest.head?.map isNameStart).getD false then failure
  set { input with text := rest }
  match spelling.toNumber? with
  | some n => return n
  | none =>
    note .grammar
    return default

/-- A string of either kind. -/
def string : Reader String := do
  skipBlanks
  let input ← get
  let (s, rest) ← Quoted.read? input.text
  set { input with text := rest }
  return s

/-- A variable's name after its dollar sign. -/
def variableName : Reader String := do
  mark "$"
  name

/-- A name that begins with none of the three words. -/
def enumName : Reader String := do
  skipBlanks
  absent (exactly "true")
  absent (exactly "false")
  absent (exactly "null")
  nameHere

/-- A name, a colon and a value. -/
def named {α : Type} (value : Reader α) : Reader (String × α) := do
  let name ← name
  mark ":"
  let value ← value
  return (name, value)

/-- A literal, or a constant where variables are not allowed, nested to a bounded depth. -/
def literal (withVariables : Bool) : Nat → Reader Literal
  | 0 => failure
  | bound + 1 =>
    (do if withVariables then return .var (← variableName) else failure)
    <|> (do return .number (← number))
    <|> (do return .string (← string))
    <|> (do mark "true"; return .boolean true)
    <|> (do mark "false"; return .boolean false)
    <|> (do mark "null"; return .null)
    <|> (do return .enum (← enumName))
    <|> (do
      mark "["
      let items ← many (literal withVariables bound)
      mark "]"
      return .list items)
    <|> (do
      mark "\x7b"
      let members ← many (named (literal withVariables bound))
      mark "\x7d"
      return .object (Named.ofList members))

/-- A literal. -/
def value : Reader Literal := do literal true (← get).text.length

/-- A value without variables. -/
def constant : Reader Const := do
  let written ← literal false (← get).text.length
  match written.toConst? with
  | some value => return value
  | none => failure

/-- Arguments in parentheses, one at least. -/
def arguments : Reader (List (String × Literal)) := do
  mark "("
  let arguments ← many1 (named value)
  mark ")"
  return arguments

def directive : Reader Directive := do
  mark "@"
  let name ← name
  let arguments ← maybe arguments
  return ⟨name, arguments.getD []⟩

def directives : Reader (List Directive) := many directive

/-! ### Selections -/

/-- A type condition, where only blanks stand between the word and the name, one at least. -/
def condition : Reader String := do
  exactly "on"
  let input ← get
  let rest := input.text.dropWhile isBlank
  if rest.length = input.text.length then failure
  set { input with text := rest }
  nameHere

/-- The entries of a selection set, in braces. -/
def inBraces (selection : Reader Selection) : Reader (List Selection) := do
  mark "\x7b"
  let selections ← many1 selection
  mark "\x7d"
  return selections

/-- A selection set below another; `remaining` more levels are allowed. -/
def nested (selection : Nat → Reader Selection) (remaining : Nat) : Reader (List Selection) := do
  mark "\x7b"
  if remaining = 0 then note .nestedTooDeeply
  let selections ← many1 (selection (remaining - 1))
  mark "\x7d"
  return selections

/-- An entry of a selection set, nested to a bounded depth. -/
def selection : Nat → Nat → Reader Selection
  | 0, _ => failure
  | bound + 1, remaining =>
    (do
      let asName ← maybe (do
        let asName ← name
        mark ":"
        return asName)
      let name ← name
      let arguments ← maybe arguments
      let directives ← directives
      let children ← maybe (nested (selection bound) remaining)
      return .field name asName (arguments.getD []) directives (children.getD []))
    <|> (do
      mark "..."
      skipBlanks
      let condition ← maybe condition
      let directives ← directives
      return .group condition directives (← nested (selection bound) remaining))
    <|> (do
      mark "..."
      skipBlanks
      absent condition
      let fragment ← nameHere
      let directives ← directives
      return .spread fragment directives)

/-- The levels that may be nested below a definition's own selection set. -/
def nestingLimit : Nat := 64

/-- The selection set of a definition. -/
def selectionSet : Reader (List Selection) := do
  inBraces (selection (← get).text.length nestingLimit)

/-! ### Definitions -/

/-- A type, of which nothing is kept and inside which no blanks stand. -/
def typeName : Nat → Reader Unit
  | 0 => failure
  | bound + 1 => do
    (do let _ ← nameHere)
      <|> (do
        exactly "["
        typeName bound
        exactly "]")
    let _ ← maybe (exactly "!")

/-- A declared variable. -/
def variableDefinition : Reader VariableDefinition := do
  let name ← variableName
  mark ":"
  skipBlanks
  typeName (← get).text.length
  let _ ← directives
  let default ← maybe (do
    mark "="
    constant)
  return ⟨name, default⟩

/-- Declared variables in parentheses. -/
def variableDefinitions : Reader (List VariableDefinition) := do
  mark "("
  let definitions ← many variableDefinition
  mark ")"
  return definitions

def operationKind : Reader OperationKind :=
  (do mark "query"; return .query)
  <|> (do mark "mutation"; return .mutation)
  <|> (do mark "subscription"; return .subscription)

/-- An operation, either with its kind or as a bare selection set. -/
def operation : Reader Operation :=
  (do
    let kind ← operationKind
    let name ← maybe name
    let declared ← maybe variableDefinitions
    let _ ← directives
    let selections ← selectionSet
    return ⟨kind, name, declared.getD [], selections⟩)
  <|> (do return ⟨.query, none, [], ← selectionSet⟩)

/-- A fragment with its name. -/
def fragment : Reader (String × List Selection) := do
  mark "fragment"
  let name ← name
  skipBlanks
  let _ ← condition
  let _ ← directives
  let selections ← selectionSet
  return (name, selections)

inductive Definition
  | operation (operation : Operation)
  | fragment (name : String) (selections : List Selection)

def definition : Reader Definition :=
  (do return .operation (← operation))
  <|> (do
    let (name, selections) ← fragment
    return .fragment name selections)

/-- All definitions up to the end of the text. -/
def definitions : Reader (List Definition) := do
  let definitions ← many1 definition
  skipBlanks
  absent (fun input => match input.text with
    | [] => none
    | c :: rest => some (c, { input with text := rest }))
  return definitions

/-! ### Documents -/

/-- Adds an operation: one without a name stands alone, and names are distinct. -/
def addOperation (document : Document) (operation : Operation) : Except DocumentError Document :=
  match operation.name with
  | none =>
    if document.operations.isEmpty then
      .ok { document with operations := [operation] }
    else .error .severalOperations
  | some name =>
    if document.operations.any fun other => other.name.isNone then .error .severalOperations
    else if document.operations.any fun other => other.name == some name then
      .error (.operationRepeated name)
    else .ok { document with operations := document.operations ++ [operation] }

/-- Adds a definition in its turn. -/
def add (document : Document) : Definition → Except DocumentError Document
  | .operation operation => addOperation document operation
  | .fragment name selections =>
    match Named.find? name document.fragments with
    | some _ => .error (.fragmentRepeated name)
    | none => .ok { document with fragments := document.fragments ++ [(name, selections)] }

/-- The document of definitions in order. -/
def ofDefinitions (definitions : List Definition) : Except DocumentError Document := do
  let document ← definitions.foldlM add ⟨[], []⟩
  if document.operations.isEmpty then .error .noOperation else return document

/-- The document that a text stands for. -/
def parse (text : String) : Except DocumentError Document :=
  match definitions ⟨text.toList, none⟩ with
  | none => .error .grammar
  | some (definitions, input) =>
    match input.fault with
    | some fault => .error fault
    | none => ofDefinitions definitions

end Document

end GraphFetch
