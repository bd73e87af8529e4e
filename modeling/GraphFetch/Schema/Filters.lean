/-
The filters every entity has unless it is registered without them.

A column that is stored gives one filter under its own name, one for each operator
suffix, and one that asks for null.  All of them act on the storage column.  The
arguments for order and window are the same for every entity and come last, so they
win over a column that happens to make the same name.
-/
import GraphFetch.Schema.Entity

namespace GraphFetch

namespace ArgumentFilter

/-- A condition on a column with the argument's value as it is. -/
def condition (column : String) (operator : Operator) : ArgumentFilter :=
  fun value => [.filter ⟨column, operator, value⟩]

/-! ### What a value says -/

/-- Whether a value counts as true. -/
def isTruthy : Const → Bool
  | .null => false
  | .boolean b => b
  | .number n => !n.agrees (.int 0)
  | .string s => s ≠ ""
  | _ => true

/-- The column name that an enum or a string gives. -/
def columnName? : Const → Option String
  | .enum name => some name
  | .string name => some name
  | _ => none

/-- The count that a whole number gives. -/
def count? : Const → Option Nat
  | .number n => n.toNat?
  | _ => none

/-! ### The built-in filters -/

/-- Asks for null when the value counts as true, and else, or without a value, for a value. -/
def isNull (column : String) : ArgumentFilter := fun value =>
  let operator := if (value.map isTruthy).getD false then Operator.isNull else .isNotNull
  [.filter ⟨column, operator, none⟩]

/-- Sorts by the storage column of a client name, or by the name itself if no column has it. -/
def orderBy (storageName? : String → Option String) (direction : Direction) : ArgumentFilter :=
  fun value =>
    match value.bind columnName? with
    | some name => [.orderBy ⟨(storageName? name).getD name, direction⟩]
    | none => []

/-- Sets a limit. -/
def limit : ArgumentFilter := fun value =>
  match value.bind count? with
  | some count => [.limit count]
  | none => []

/-- Sets an offset. -/
def offset : ArgumentFilter := fun value =>
  match value.bind count? with
  | some count => [.offset count]
  | none => []

/-- The first count that does not fit a limit. -/
def countLimit : Nat := Nat.pow 2 64

/-- The window from one position to another, both included; none when they are inverted. -/
def window (first last : Nat) : List Edit :=
  if last < first then [.offset first, .limit 0]
  else if last - first + 1 < countLimit then [.offset first, .limit (last - first + 1)]
  else [.offset first]

/-- Sets the window that a list of two positions gives. -/
def range : ArgumentFilter
  | some (.list [first, last]) =>
    match count? first, count? last with
    | some first, some last => window first last
    | _, _ => []
  | _ => []

/-- The suffixes that select an operator. -/
def suffixes : List (String × Operator) :=
  [("Eq", .eq), ("NotEq", .notEq), ("Gt", .gt), ("Gte", .gte), ("Lt", .lt), ("Lte", .lte),
    ("Like", .like), ("LikeNoCase", .ilike), ("In", .isIn), ("NotIn", .notIn)]

/-- The filters of one stored column. -/
def ofColumn (column : Column) : List (String × ArgumentFilter) :=
  (column.name, condition column.storageName .eq)
    :: suffixes.map (fun (suffix, operator) =>
      (column.name ++ suffix, condition column.storageName operator))
    ++ [(column.name ++ "IsNull", isNull column.storageName)]

/-- The storage name of the last column with a client name. -/
def storageName? (columns : List Column) (name : String) : Option String :=
  (columns.reverse.find? fun column => column.name == name).map (·.storageName)

/-- The filters for order and window. -/
def ofWindow (columns : List Column) : List (String × ArgumentFilter) :=
  [("orderBy", orderBy (storageName? columns) .ascending),
    ("orderByDesc", orderBy (storageName? columns) .descending),
    ("range", range), ("limit", limit), ("offset", offset)]

/-- All built-in filters of an entity with some columns, in order. -/
def defaults (columns : List Column) : List (String × ArgumentFilter) :=
  (columns.filter fun column => !column.computed).flatMap ofColumn ++ ofWindow columns

end ArgumentFilter

end GraphFetch
