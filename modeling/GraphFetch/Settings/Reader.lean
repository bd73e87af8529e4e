/-
Settings from TOML.

Every section and every setting may be left out, and nothing else may be given.  The
two beginnings of modifier names must be usable in expressions, and neither may
begin with the other: modifiers of both kinds share one table, and `f` with `f1`
could both give `f11`.
-/
import GraphFetch.Settings.Basic
import GraphFetch.Settings.Duration
import GraphFetch.Text.Blank
import GraphFetch.Toml.Parser
import GraphFetch.Toml.Shape

namespace GraphFetch

/-- Why a text gives no settings. -/
inductive SettingsError
  /-- The text is not TOML. -/
  | noToml
  | decode (error : DecodeError)
  | invalidFilterPrefix (text : String)
deriving DecidableEq, Inhabited

/-- What is wrong, except where a text is malformed. -/
def SettingsError.message? : SettingsError → Option String
  | noToml => none
  | decode (.noDuration _) => none
  | decode error => some error.message
  | invalidFilterPrefix text =>
    some ("invalid filter prefix `" ++ text ++ "`, prefixes must be non-empty and must not contain "
      ++ "`[`, `]`, `(`, `)`, `,`, `.` or whitespace")

namespace Settings

/-! ### Reading -/

def string : Toml → Except DecodeError String := Format.toml.string

def boolean : Toml → Except DecodeError Bool := Format.toml.boolean

def duration (value : Toml) : Except DecodeError Nat := do
  let text ← string value
  match Duration.parse? text with
  | some nanoseconds => return nanoseconds
  | none => throw (.noDuration text)

def filterPrefixesType : RecordType Toml FilterPrefixes where
  name := "FilterPrefixes"
  closed := true
  fields := [
    .optional "projection" string fun projection prefixes => { prefixes with projection },
    .optional "argument" string fun argument prefixes => { prefixes with argument }]

def queryType : RecordType Toml QuerySettings where
  name := "QueryConfig"
  closed := true
  fields := [
    .optional "select_optimization" boolean fun selectOptimization settings =>
      { settings with selectOptimization },
    .optional "skip_undefined" boolean fun skipUndefined settings =>
      { settings with skipUndefined },
    .optional "qualify_columns" boolean fun qualifyColumns settings =>
      { settings with qualifyColumns },
    .optional "filter_prefixes" (filterPrefixesType.decode .toml {}) fun filterPrefixes settings =>
      { settings with filterPrefixes }]

def cacheType : RecordType Toml CacheSettings where
  name := "CacheConfig"
  closed := true
  fields := [
    .optional "enabled" boolean fun enabled settings => { settings with enabled },
    .optional "ttl" duration fun ttl settings => { settings with ttl := some ttl },
    .optional "bypass_field" string fun bypassField settings => { settings with bypassField },
    .optional "key_prefix" string fun keyPrefix settings => { settings with keyPrefix }]

def type : RecordType Toml Settings where
  name := "Config"
  closed := true
  fields := [
    .optional "query" (queryType.decode .toml {}) fun query settings => { settings with query },
    .optional "cache" (cacheType.decode .toml {}) fun cache settings => { settings with cache }]

/-! ### Beginnings of names -/

/-- Characters that an expression would not take as part of a name. -/
def isForbidden (c : Char) : Bool :=
  Text.isBlank c || c == '[' || c == ']' || c == '(' || c == ')' || c == ',' || c == '.'

def isUsable (text : String) : Bool := !text.isEmpty && !text.toList.any isForbidden

/-- Refuses beginnings that could give two modifiers the same name. -/
def checkPrefixes (prefixes : FilterPrefixes) : Except SettingsError Unit :=
  let projection := prefixes.projection
  let argument := prefixes.argument
  if !isUsable projection then .error (.invalidFilterPrefix projection)
  else if !isUsable argument then .error (.invalidFilterPrefix argument)
  else if argument.toList.isPrefixOf projection.toList
      || projection.toList.isPrefixOf argument.toList then
    .error (.invalidFilterPrefix argument)
  else .ok ()

/-- The settings that a text gives. -/
def ofToml (text : String) : Except SettingsError Settings := do
  let some toml := Toml.parse? text | throw .noToml
  let settings ← (type.decode .toml {} toml).mapError .decode
  checkPrefixes settings.query.filterPrefixes
  return settings

end Settings

end GraphFetch
