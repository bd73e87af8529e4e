/-
Read queries.

A query names one table and says which of its rows to fetch, which columns of
them, in which order, which window of that order, and which relations to attach.
Values without a binding are kept as such: what becomes of a condition without a
value is for the executor to decide.
-/
import GraphFetch.Document.Literal

namespace GraphFetch

/-- A registered entity, by its place in the registry. -/
abbrev EntityId := Nat

/-! ### Columns, conditions and orderings -/

/-- A column of a projection, by its name in storage. -/
structure ColumnRef where
  table : Option String
  name : String
  asName : Option String
deriving DecidableEq, Inhabited

namespace ColumnRef

/-- A column under its own name. -/
def plain (name : String) : ColumnRef := ⟨none, name, none⟩

/-- The member that the column becomes in a row. -/
def outputName (column : ColumnRef) : String := column.asName.getD column.name

def text (column : ColumnRef) : String :=
  (column.table.map (· ++ ".")).getD "" ++ column.name
    ++ (column.asName.map (" as " ++ ·)).getD ""

end ColumnRef

/-- What a condition asks of a column. -/
inductive Operator
  | eq
  | notEq
  | gt
  | gte
  | lt
  | lte
  | like
  | ilike
  | isIn
  | notIn
  | isNull
  | isNotNull
deriving DecidableEq, Inhabited

namespace Operator

def text : Operator → String
  | eq => "="
  | notEq => "<>"
  | gt => ">"
  | gte => ">="
  | lt => "<"
  | lte => "<="
  | like => "like"
  | ilike => "ilike"
  | isIn => "in"
  | notIn => "not in"
  | isNull => "is null"
  | isNotNull => "is not null"

/-- Whether the operator takes no value. -/
def isUnary : Operator → Bool
  | isNull => true
  | isNotNull => true
  | _ => false

end Operator

/-- A condition on a column; without a value its binding is undefined. -/
structure Condition where
  column : String
  operator : Operator
  value : Option Const
deriving Inhabited

def Condition.text (condition : Condition) : String :=
  let start := condition.column ++ " " ++ condition.operator.text
  if condition.operator.isUnary then start
  else match condition.value with
    | some value => start ++ " " ++ value.text
    | none => start ++ " undefined"

inductive Direction
  | ascending
  | descending
deriving DecidableEq, Inhabited

def Direction.text : Direction → String
  | ascending => "asc"
  | descending => "desc"

/-- A column to sort by. -/
structure OrderBy where
  column : String
  direction : Direction
deriving DecidableEq, Inhabited

def OrderBy.text (ordering : OrderBy) : String :=
  ordering.column ++ " " ++ ordering.direction.text

end GraphFetch
