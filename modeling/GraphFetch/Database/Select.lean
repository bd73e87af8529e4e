/-
Selecting the rows of one table.

The rows that satisfy all conditions are sorted by the orderings, the first of which
counts most, and cut to the window.  Sorting is stable: it is done once for each
ordering, the least important first, and rows that tie keep their places.  A
condition without a value is left out or ends the run before anything is issued.
-/
import GraphFetch.Database.Comparison
import GraphFetch.Database.Like
import GraphFetch.Database.Run

namespace GraphFetch

/-- Tables of rows for the entities of a registry. -/
structure Database where
  registry : Registry
  tables : List (String × List Row)

namespace Database

/-- The rows of a table; an unknown one has none. -/
def table (database : Database) (name : String) : List Row :=
  (Named.find? name database.tables).getD []

/-! ### Conditions -/

/-- A condition with the value it is checked against; null checks have none. -/
abbrev Bound := Condition × Option Json

/-- The conditions to check, or the column of the first one that lacks its value. -/
def bindConditions (skipsUndefined : Bool) : List Condition → Except String (List Bound)
  | [] => .ok []
  | condition :: rest =>
    match condition.value with
    | some value => do
      let bound ← bindConditions skipsUndefined rest
      return (condition, some value.toJson) :: bound
    | none =>
      if condition.operator.isUnary then do
        let bound ← bindConditions skipsUndefined rest
        return (condition, none) :: bound
      else if skipsUndefined then bindConditions skipsUndefined rest
      else .error condition.column

/-- Whether a value that is not null stands in a relation to another one. -/
def holds (operator : Operator) (column value : Json) : Bool :=
  match operator, value with
  | .eq, value => Comparison.equals column value
  | .notEq, value => !Comparison.equals column value
  | .gt, value => Comparison.order column value == .gt
  | .gte, value => Comparison.order column value != .lt
  | .lt, value => Comparison.order column value == .lt
  | .lte, value => Comparison.order column value != .gt
  | .like, value => Like.matchValue false column value
  | .ilike, value => Like.matchValue true column value
  | .isIn, .arr values => values.any (Comparison.equals column)
  | .notIn, .arr values => !values.any (Comparison.equals column)
  | _, _ => false

/-- The value of a column, null if the row has none. -/
def columnValue (row : Row) (column : String) : Json := (Named.find? column row).getD .null

/-- Whether a row satisfies a condition. -/
def satisfies (row : Row) (bound : Bound) : Bool :=
  let column := columnValue row bound.1.column
  match bound.1.operator, bound.2 with
  | .isNull, _ => column.isNull
  | .isNotNull, _ => !column.isNull
  | _, none => true
  | operator, some value => !column.isNull && holds operator column value

/-! ### Order -/

/-- Puts a row behind the rows it does not precede, in a list whose last row comes first. -/
def place (precedes : Row → Row → Bool) (row : Row) : List Row → List Row
  | [] => [row]
  | last :: before =>
    if precedes row last then last :: place precedes row before else row :: last :: before

/-- Rows sorted by insertion, one after the other. -/
def sortRows (precedes : Row → Row → Bool) (rows : List Row) : List Row :=
  (rows.foldl (fun sorted row => place precedes row sorted) []).reverse

/-- The order of two rows under one ordering. -/
def orderRows (ordering : OrderBy) (left right : Row) : Ordering :=
  let order := Comparison.order (columnValue left ordering.column)
    (columnValue right ordering.column)
  match ordering.direction with
  | .ascending => order
  | .descending => order.swap

/-- Rows sorted by one ordering. -/
def sortBy (ordering : OrderBy) (rows : List Row) : List Row :=
  sortRows (fun left right => orderRows ordering left right == .lt) rows

/-- Rows sorted by all orderings, the first of which counts most. -/
def sortByAll (orderings : List OrderBy) (rows : List Row) : List Row :=
  orderings.foldr sortBy rows

/-! ### Windows -/

/-- The rows from an offset on, up to a limit. -/
def window (offset limit : Option Nat) (rows : List Row) : List Row :=
  let rest := rows.drop (offset.getD 0)
  match limit with
  | some count => rest.take count
  | none => rest

/-! ### Statements -/

/-- Texts with a separator between them. -/
def joined (separator : String) (texts : List String) : String :=
  String.intercalate separator texts

/-- The statement of a query with the conditions to check. -/
def statement (query : Query) (bound : List Bound) : String :=
  let columns := match query.columns with
    | some columns => joined ", " (columns.map ColumnRef.text)
    | none => "*"
  let conditions :=
    if bound.isEmpty then ""
    else " where " ++ joined " and " (bound.map fun condition => condition.1.text)
  let orderings :=
    if query.orderings.isEmpty then ""
    else " order by " ++ joined ", " (query.orderings.map OrderBy.text)
  let limit := (query.limit.map fun count => " limit " ++ toString count).getD ""
  let offset := (query.offset.map fun count => " offset " ++ toString count).getD ""
  "select " ++ columns ++ " from " ++ query.table ++ conditions ++ orderings ++ limit ++ offset

/-! ### Selection -/

/-- The whole rows that a query selects, given the conditions to check. -/
def selected (database : Database) (query : Query) (bound : List Bound) : List Row :=
  let satisfying := (database.table query.table).filter fun row => bound.all (satisfies row)
  window query.offset query.limit (sortByAll query.orderings satisfying)

/-- Issues the statement of a query and yields whole rows. -/
def select (database : Database) (query : Query) : Run (List Row) :=
  match bindConditions query.skipsUndefined query.conditions with
  | .error column => .fail (.undefinedBinding column)
  | .ok bound => do
    Run.issue (statement query bound)
    return database.selected query bound

end Database

end GraphFetch
