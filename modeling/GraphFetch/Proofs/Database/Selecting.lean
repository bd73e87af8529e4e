/-
Which rows a query selects.

A selection fails on the first condition that needs a value and has none, unless the query
leaves such conditions out.  Otherwise it yields the rows at the positions of the window, in the
list of the rows that satisfy the other conditions, arranged by the orderings.
-/
import GraphFetch.Proofs.Database.Arrangement
import GraphFetch.Proofs.Database.Runs

namespace GraphFetch

namespace Database

/-! ### Positions -/

section Positions

variable {α : Type}

theorem filter_zipIdx_lt (values : List α) (first bound : Nat) :
    (values.zipIdx first).filter (fun place => decide (place.2 < bound))
      = (values.take (bound - first)).zipIdx first := by
  induction values generalizing first with
  | nil => simp
  | cons value rest ih =>
      rw [List.zipIdx_cons, List.filter_cons, ih]
      by_cases h : first < bound
      · have hsucc : bound - first = bound - (first + 1) + 1 := by omega
        rw [hsucc]
        simp [h]
      · have hzero : bound - first = 0 ∧ bound - (first + 1) = 0 := by omega
        rw [hzero.1, hzero.2]
        simp [h]

theorem filter_zipIdx_le (values : List α) (first offset : Nat) :
    ((values.zipIdx first).filter fun place => decide (offset ≤ place.2)).map Prod.fst
      = values.drop (offset - first) := by
  induction values generalizing first with
  | nil => simp
  | cons value rest ih =>
      rw [List.zipIdx_cons, List.filter_cons]
      by_cases h : offset ≤ first
      · have hzero : offset - first = 0 ∧ offset - (first + 1) = 0 := by omega
        have hrest := ih (first + 1)
        rw [hzero.2, List.drop_zero] at hrest
        simp [h, hzero.1, hrest]
      · have hsucc : offset - first = offset - (first + 1) + 1 := by omega
        rw [hsucc]
        simp [h, ih]

end Positions

/-- The rows at the positions from an offset on, up to a limit if there is one. -/
def rowsAt (offset : Nat) (limit : Option Nat) (rows : List Row) : List Row :=
  (rows.zipIdx.filter fun place =>
    offset ≤ place.2 && limit.all fun count => place.2 < offset + count).map Prod.fst

/-- **A window holds the rows at its positions.** -/
theorem window_eq_rowsAt (offset limit : Option Nat) (rows : List Row) :
    window offset limit rows = rowsAt (offset.getD 0) limit rows := by
  unfold window rowsAt
  generalize offset.getD 0 = first
  cases limit with
  | none =>
      simp only [Option.all_none, Bool.and_true]
      rw [filter_zipIdx_le, Nat.sub_zero]
  | some count =>
      simp only [Option.all_some]
      rw [← List.filter_filter, filter_zipIdx_lt, filter_zipIdx_le, Nat.sub_zero, Nat.sub_zero,
        List.drop_take]
      congr 1
      omega

/-! ### Selections -/

/-- Whether a condition needs a value and has none. -/
def lacksValue (condition : Condition) : Bool :=
  condition.value.isNone && !condition.operator.isUnary

/-- The condition that a query fails on: the first one that lacks its value, unless the query leaves
such conditions out. -/
def unbound? (query : Query) : Option Condition :=
  if query.skipsUndefined then none else query.conditions.find? lacksValue

/-- The rows that satisfy all conditions of a query that have a value or need none. -/
def satisfying (database : Database) (query : Query) : List Row :=
  (database.table query.table).filter fun row => query.conditions.all fun condition =>
    lacksValue condition || satisfies row (condition, condition.value.map Const.toJson)

/-- The conditions of a query that have a value or need none, with their values. -/
def bindings (conditions : List Condition) : List Bound :=
  (conditions.filter fun condition => !lacksValue condition).map fun condition =>
    (condition, condition.value.map Const.toJson)

theorem bindings_cons (condition : Condition) (rest : List Condition) :
    bindings (condition :: rest)
      = if lacksValue condition then bindings rest
        else (condition, condition.value.map Const.toJson) :: bindings rest := by
  unfold bindings
  by_cases h : lacksValue condition = true <;> simp [h]

/-- A condition is checked if it has a value or needs none, and is otherwise left out or named. -/
theorem bindConditions_cons (skipsUndefined : Bool) (condition : Condition)
    (rest : List Condition) :
    bindConditions skipsUndefined (condition :: rest)
      = if lacksValue condition then
          if skipsUndefined then bindConditions skipsUndefined rest else .error condition.column
        else (bindConditions skipsUndefined rest).map
          ((condition, condition.value.map Const.toJson) :: ·) := by
  obtain ⟨column, operator, value⟩ := condition
  rw [bindConditions]
  cases value with
  | some value => cases bindConditions skipsUndefined rest <;> rfl
  | none =>
      cases hunary : operator.isUnary with
      | true =>
          have hlacks : lacksValue ⟨column, operator, none⟩ = false := by simp [lacksValue, hunary]
          rw [hlacks]
          cases bindConditions skipsUndefined rest <;> rfl
      | false =>
          have hlacks : lacksValue ⟨column, operator, none⟩ = true := by simp [lacksValue, hunary]
          rw [hlacks]
          rfl

/-- **Conditions that have a value or need none are checked, and the first other one is named**,
unless the query leaves those out. -/
theorem bindConditions_eq (skipsUndefined : Bool) (conditions : List Condition) :
    bindConditions skipsUndefined conditions
      = match if skipsUndefined then none else conditions.find? lacksValue with
        | some condition => .error condition.column
        | none => .ok (bindings conditions) := by
  induction conditions with
  | nil => cases skipsUndefined <;> rfl
  | cons condition rest ih =>
      rw [bindConditions_cons, bindings_cons, List.find?_cons, ih]
      cases lacksValue condition with
      | true => cases skipsUndefined <;> rfl
      | false =>
          cases skipsUndefined with
          | true => rfl
          | false => cases rest.find? lacksValue <;> rfl

theorem selected_bindings (database : Database) (query : Query) :
    database.selected query (bindings query.conditions)
      = rowsAt (query.offset.getD 0) query.limit
          (sortByAll query.orderings (database.satisfying query)) := by
  unfold selected satisfying
  rw [window_eq_rowsAt]
  refine congrArg (fun rows => rowsAt _ _ (sortByAll query.orderings rows)) ?_
  refine List.filter_congr fun row _ => ?_
  induction query.conditions with
  | nil => rfl
  | cons condition rest ih =>
      rw [bindings_cons, List.all_cons, ← ih]
      by_cases h : lacksValue condition = true
      · simp [h]
      · simp [h]

/-- What a selection does, with its conditions and its window told apart. -/
theorem select_eq (database : Database) (query : Query) :
    database.select query
      = match unbound? query with
        | some condition => .fail (.undefinedBinding condition.column)
        | none => ⟨[statement query (bindings query.conditions)],
            .ok (rowsAt (query.offset.getD 0) query.limit
              (sortByAll query.orderings (database.satisfying query)))⟩ := by
  unfold select unbound?
  rw [bindConditions_eq, ← selected_bindings]
  cases (if query.skipsUndefined then none else query.conditions.find? lacksValue) <;> rfl

/-- What a query selects satisfies its conditions. -/
theorem mem_satisfying_of_select {database : Database} {query : Query} {rows : List Row} {row : Row}
    (h : (database.select query).result = .ok rows) (hrow : row ∈ rows) :
    row ∈ database.satisfying query := by
  rw [select_eq] at h
  cases hunbound : unbound? query with
  | some condition =>
      rw [hunbound] at h
      cases h
  | none =>
      rw [hunbound] at h
      cases h
      obtain ⟨place, hplace, rfl⟩ := List.mem_map.mp hrow
      have hsorted := List.fst_mem_of_mem_zipIdx (List.mem_of_mem_filter hplace)
      exact mem_sortByAll hsorted

/-- **A query fails on the first condition that lacks its value, before anything is issued, unless
it leaves such conditions out.  Otherwise it selects the rows at the positions of its window, of
those that satisfy its other conditions, arranged by its orderings.** -/
theorem select_arranged (database : Database) (query : Query) :
    ((∃ error, (database.select query).result = .error error)
        ↔ ∃ condition, unbound? query = some condition)
      ∧ (∀ condition, unbound? query = some condition →
        (database.select query).result = .error (.undefinedBinding condition.column)
          ∧ (database.select query).statements = [])
      ∧ (unbound? query = none →
        (∀ ordering ∈ query.orderings, Sortable ordering (database.satisfying query)) →
          ∃ sorted, Arranged query.orderings (database.satisfying query) sorted
            ∧ (∀ other, Arranged query.orderings (database.satisfying query) other →
              other = sorted)
            ∧ (database.select query).result
              = .ok (rowsAt (query.offset.getD 0) query.limit sorted)) := by
  rw [select_eq]
  cases unbound? query with
  | some condition =>
      refine ⟨⟨fun _ => ⟨condition, rfl⟩, fun _ => ⟨_, rfl⟩⟩, ?_, nofun⟩
      intro other hother
      cases hother
      exact ⟨rfl, rfl⟩
  | none =>
      refine ⟨⟨nofun, nofun⟩, nofun, ?_⟩
      intro _ hsortable
      have harranged := sortByAll_arranged hsortable
      exact ⟨_, harranged, fun other hother => hother.unique harranged, rfl⟩

/-! ### A page of a ranking -/

namespace Ranking

def player (name : String) (team grade : Json) : Row :=
  [("name", .str name), ("team", team), ("grade", grade)]

def ada : Row := player "ada" (.str "red") (.str "b")

def ben : Row := player "ben" .null (.str "c")

def cid : Row := player "cid" (.str "blue") .null

def dot : Row := player "dot" (.str "red") (.str "b")

def eve : Row := player "eve" (.str "red") (.str "d")

def database : Database := ⟨⟨[]⟩, [("players", [ada, ben, cid, dot, eve])]⟩

/-- The second and the third of the players with a grade, by team and then by grade downwards. -/
def query : Query :=
  { Query.new 0 "players" with
    conditions := [⟨"grade", .isNotNull, none⟩, ⟨"grade", .gt, none⟩]
    orderings := [⟨"team", .ascending⟩, ⟨"grade", .descending⟩]
    offset := some 1, limit := some 2, skipsUndefined := true }

theorem satisfying_query : database.satisfying query = [ada, ben, dot, eve] := rfl

end Ranking

/-- The player without a team comes first and is left out, and of the two that are tied the one
that stands first in the table comes first. -/
theorem select_arranged_ranking :
    unbound? Ranking.query = none
      ∧ (∀ ordering ∈ Ranking.query.orderings,
        Sortable ordering (Ranking.database.satisfying Ranking.query))
      ∧ (Ranking.database.select Ranking.query).result = .ok [Ranking.eve, Ranking.ada]
      ∧ ∃ sorted,
        Arranged Ranking.query.orderings (Ranking.database.satisfying Ranking.query) sorted
        ∧ (Ranking.database.select Ranking.query).result = .ok (rowsAt 1 (some 2) sorted) := by
  have hsortable : ∀ ordering ∈ Ranking.query.orderings,
      Sortable ordering (Ranking.database.satisfying Ranking.query) := by
    rw [Ranking.satisfying_query]
    simp [Ranking.query, Sortable, Ranking.ada, Ranking.ben, Ranking.dot, Ranking.eve,
      Ranking.player, columnValue, Named.find?, Comparison.Comparable]
  obtain ⟨-, -, hselects⟩ := select_arranged Ranking.database Ranking.query
  obtain ⟨sorted, harranged, -, hresult⟩ := hselects rfl hsortable
  exact ⟨rfl, hsortable, rfl, sorted, harranged, hresult⟩

end Database

end GraphFetch
