/-
Taking loosely typed values as records.

Requests, entity descriptions and settings all arrive as values of some format and
are read into records.  A record may be given as a map of its fields, in any order,
or as the sequence of their values.  Fields are read in the order in which they are
given and the first thing that is wrong is reported, required fields that are not
given last of all.  What a value looks like is all that a format contributes.
-/
import GraphFetch.Text.Escape

namespace GraphFetch

/-! ### What is wrong -/

/-- A value as an error names it. -/
inductive Found
  | null
  | boolean (b : Bool)
  | integer (n : Int)
  | float (text : String)
  | string (s : String)
  | sequence
  | map
deriving DecidableEq, Inhabited

def Found.text : Found → String
  | null => "null"
  | boolean b => "boolean `" ++ (if b then "true" else "false") ++ "`"
  | integer n => "integer `" ++ toString n ++ "`"
  | float text => "floating point `" ++ text ++ "`"
  | string s => "string " ++ Text.quoted s
  | sequence => "sequence"
  | map => "map"

/-- Why a value is not what it should be. -/
inductive DecodeError
  | missingField (name : String)
  | unknownField (name : String) (known : List String)
  | wrongType (found : Found) (expected : String)
  | wrongLength (count : Nat) (expected : String)
  /-- A text that says no length of time. -/
  | noDuration (text : String)
deriving DecidableEq, Inhabited

/-- Names in backticks as the choices of an error. -/
def choices : List String → String
  | [] => "there are no fields"
  | [name] => "expected `" ++ name ++ "`"
  | [first, second] => "expected `" ++ first ++ "` or `" ++ second ++ "`"
  | names => "expected one of " ++ String.intercalate ", " (names.map fun name => "`" ++ name ++ "`")

def DecodeError.message : DecodeError → String
  | missingField name => "missing field `" ++ name ++ "`"
  | unknownField name known => "unknown field `" ++ name ++ "`, " ++ choices known
  | wrongType found expected => "invalid type: " ++ found.text ++ ", expected " ++ expected
  | wrongLength count expected =>
    "invalid length " ++ toString count ++ ", expected " ++ expected
  | noDuration text => "not a duration: " ++ text

/-! ### Formats and plain values -/

/-- What a value of a format looks like. -/
inductive Shape (ν : Type)
  | null
  | boolean (b : Bool)
  | integer (n : Int)
  | float (text : String)
  | string (s : String)
  | sequence (items : List ν)
  | map (members : List (String × ν))

def Shape.found {ν : Type} : Shape ν → Found
  | null => .null
  | boolean b => .boolean b
  | integer n => .integer n
  | float text => .float text
  | string s => .string s
  | sequence _ => .sequence
  | map _ => .map

/-- A format of values. -/
structure Format (ν : Type) where
  shape : ν → Shape ν
  /-- Whether a sequence may hold more values than its record has fields. -/
  allowsSurplus : Bool

namespace Format

variable {ν : Type} (format : Format ν)

def string (value : ν) : Except DecodeError String :=
  match format.shape value with
  | .string s => .ok s
  | shape => .error (.wrongType shape.found "a string")

def boolean (value : ν) : Except DecodeError Bool :=
  match format.shape value with
  | .boolean b => .ok b
  | shape => .error (.wrongType shape.found "a boolean")

/-- Nothing for null, and else what the value is taken for. -/
def nullable {α : Type} (decode : ν → Except DecodeError α) (value : ν) :
    Except DecodeError (Option α) :=
  match format.shape value with
  | .null => .ok none
  | _ => (decode value).map some

def sequence {α : Type} (decode : ν → Except DecodeError α) (value : ν) :
    Except DecodeError (List α) :=
  match format.shape value with
  | .sequence items => items.mapM decode
  | shape => .error (.wrongType shape.found "a sequence")

/-- The members of a map. -/
def members (value : ν) : Except DecodeError (List (String × ν)) :=
  match format.shape value with
  | .map members => .ok members
  | shape => .error (.wrongType shape.found "a map")

end Format

/-! ### Records -/

/-- A field of a record that is being read. -/
structure RecordField (ν σ : Type) where
  name : String
  isRequired : Bool
  /-- The record once the field has a value. -/
  read : ν → σ → Except DecodeError σ

namespace RecordField

variable {ν σ α : Type}

/-- A field that must be given. -/
def required (name : String) (decode : ν → Except DecodeError α) (put : α → σ → σ) :
    RecordField ν σ :=
  ⟨name, true, fun value record => (decode value).map fun a => put a record⟩

/-- A field that may be left out. -/
def optional (name : String) (decode : ν → Except DecodeError α) (put : α → σ → σ) :
    RecordField ν σ :=
  ⟨name, false, fun value record => (decode value).map fun a => put a record⟩

end RecordField

/-- A record type: its name in errors, its fields in order, and whether others are refused. -/
structure RecordType (ν σ : Type) where
  name : String
  fields : List (RecordField ν σ)
  closed : Bool

namespace RecordType

variable {ν σ : Type} (type : RecordType ν σ)

def fieldNames : List String := type.fields.map (·.name)

/-- The record after one member of a map. -/
def readMember (record : σ) (member : String × ν) : Except DecodeError σ :=
  match type.fields.find? fun field => field.name == member.1 with
  | some field => field.read member.2 record
  | none => if type.closed then .error (.unknownField member.1 type.fieldNames) else .ok record

/-- Refuses a map without a required field. -/
def checkGiven (given : List String) (record : σ) : Except DecodeError σ :=
  match type.fields.find? fun field => field.isRequired && !given.contains field.name with
  | some field => .error (.missingField field.name)
  | none => .ok record

/-- The record of a map. -/
def ofMembers (start : σ) (members : List (String × ν)) : Except DecodeError σ := do
  let record ← members.foldlM type.readMember start
  type.checkGiven (members.map (·.1)) record

/-- How many values a sequence should have held. -/
def expectedLength : String :=
  let count := type.fields.length
  "struct " ++ type.name ++ " with " ++ toString count
    ++ (if count = 1 then " element" else " elements")

/-- The record after the values of its fields in order, and the values left over. -/
def readItems (index : Nat) (record : σ) :
    List (RecordField ν σ) → List ν → Except DecodeError (σ × List ν)
  | [], items => .ok (record, items)
  | field :: fields, item :: items => do
    let record ← field.read item record
    readItems (index + 1) record fields items
  | field :: fields, [] =>
    if field.isRequired then .error (.wrongLength index type.expectedLength)
    else readItems (index + 1) record fields []

/-- The record of a sequence. -/
def ofItems (allowsSurplus : Bool) (start : σ) (items : List ν) : Except DecodeError σ := do
  let (record, surplus) ← type.readItems 0 start type.fields items
  if surplus.isEmpty || allowsSurplus then return record
  else .error (.wrongLength items.length "fewer elements in array")

/-- The record that a value stands for, over the fields' values to start with. -/
def decode (format : Format ν) (start : σ) (value : ν) : Except DecodeError σ :=
  match format.shape value with
  | .map members => type.ofMembers start members
  | .sequence items => type.ofItems format.allowsSurplus start items
  | shape => .error (.wrongType shape.found ("struct " ++ type.name))

end RecordType

end GraphFetch
