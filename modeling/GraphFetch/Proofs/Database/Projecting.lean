/-
What a query yields of a row.

Without a projection that is the row itself.  With one, its columns are copied into an empty
row, in order and each under its output name, and then what the nodes of the load have
attached is copied under their keys.  A column that the row lacks is left out.  So under a
name stands what a node with that key has attached, or else what the last column with that
output name has, of those that have anything.
-/
import GraphFetch.Database.Load
import GraphFetch.Proofs.Json.Named

namespace GraphFetch

namespace Database

/-! ### Copying -/

section Copy

variable {ι : Type} (target source : ι → String) (row : Row)

/-- Copies into a row what another one holds under one name, if it holds anything. -/
def copyOne (copied : Row) (item : ι) : Row :=
  match Named.find? (source item) row with
  | some value => Named.put (target item) value copied
  | none => copied

/-- Copies into a row what another one holds under some names. -/
def copy (items : List ι) (start : Row) : Row := items.foldl (copyOne target source row) start

/-- What an item copies under a name. -/
def copied? (name : String) (item : ι) : Option Json :=
  if target item = name then Named.find? (source item) row else none

variable {target source row}

theorem find?_copyOne (start : Row) (item : ι) (name : String) :
    Named.find? name (copyOne target source row start item)
      = (copied? target source row name item).or (Named.find? name start) := by
  unfold copyOne copied?
  cases Named.find? (source item) row with
  | none => simp
  | some value =>
      dsimp only
      rw [Named.find?_put]
      by_cases h : target item = name
      · simp [h]
      · simp [h, Ne.symm h]

/-- **Under a name stands what the last item copied there**, of those that had anything to copy. -/
theorem find?_copy (items : List ι) (start : Row) (name : String) :
    Named.find? name (copy target source row items start)
      = (items.reverse.findSome? (copied? target source row name)).or (Named.find? name start) := by
  unfold copy
  induction items generalizing start with
  | nil => rfl
  | cons item rest ih =>
      rw [List.foldl_cons, ih, find?_copyOne, List.reverse_cons, List.findSome?_append,
        Option.or_assoc]
      simp

theorem Distinct.copy (items : List ι) {start : Row} (h : Named.Distinct start) :
    Named.Distinct (copy target source row items start) := by
  unfold Database.copy
  induction items generalizing start with
  | nil => exact h
  | cons item rest ih =>
      refine ih ?_
      unfold copyOne
      cases Named.find? (source item) row with
      | none => exact h
      | some value => exact h.put _ _

end Copy

/-- What only one name has, looked for among names. -/
theorem findSome?_eq_name {α : Type} (names : List String) (name : String) (found : Option α) :
    (names.findSome? fun other => if other = name then found else none)
      = if name ∈ names then found else none := by
  induction names with
  | nil => rfl
  | cons first rest ih =>
      rw [List.findSome?_cons, ih]
      by_cases hfirst : first = name
      · cases found <;> simp [hfirst]
      · simp [hfirst, Ne.symm hfirst]

/-! ### Projected rows -/

/-- What the columns of a projection have for a name: what the last one with that output name has,
of those that have anything. -/
def projected? (columns : List ColumnRef) (row : Row) (name : String) : Option Json :=
  columns.reverse.findSome? (copied? ColumnRef.outputName ColumnRef.name row name)

variable {query : Query}

/-- A projected row is copied from the whole one: its columns, then what is attached to it. -/
theorem project_eq {columns : List ColumnRef} (h : query.columns = some columns)
    (nodes : List RelationNode) (row : Row) :
    project query nodes row
      = copy RelationNode.key RelationNode.key row nodes
          (copy ColumnRef.outputName ColumnRef.name row columns []) := by
  unfold project
  rw [h]
  rfl

theorem project_whole (h : query.columns = none) (nodes : List RelationNode) (row : Row) :
    project query nodes row = row := by
  unfold project
  rw [h]

theorem Distinct.project (nodes : List RelationNode) {row : Row} (h : Named.Distinct row) :
    Named.Distinct (project query nodes row) := by
  cases hcolumns : query.columns with
  | none =>
      rw [project_whole hcolumns]
      exact h
  | some columns =>
      rw [project_eq hcolumns]
      exact Distinct.copy nodes (Distinct.copy columns Named.Distinct.nil)

/-- **What a query yields of a row under a name**: what stands there, if it has no projection; and
otherwise what a node with that key has attached, or else what its columns have for the name. -/
theorem find?_project (query : Query) (nodes : List RelationNode) (row : Row) (name : String) :
    Named.find? name (project query nodes row) =
      match query.columns with
      | none => Named.find? name row
      | some columns =>
        (if name ∈ nodes.map RelationNode.key then Named.find? name row else none).or
          (projected? columns row name) := by
  cases hcolumns : query.columns with
  | none => rw [project_whole hcolumns]
  | some columns =>
      have hattached :
          nodes.reverse.findSome? (copied? RelationNode.key RelationNode.key row name)
            = if name ∈ nodes.map RelationNode.key then Named.find? name row else none := by
        have hkeys : copied? RelationNode.key RelationNode.key row name
            = (fun key => if key = name then Named.find? name row else none)
              ∘ RelationNode.key := by
          funext node
          unfold copied?
          split <;> simp_all
        rw [hkeys, ← List.findSome?_map, List.map_reverse, findSome?_eq_name]
        simp only [List.mem_reverse]
      have hcopied : Named.find? name (copy ColumnRef.outputName ColumnRef.name row columns [])
          = projected? columns row name := (find?_copy columns [] name).trans Option.or_none
      rw [project_eq hcolumns, find?_copy, hattached, hcopied]

end Database

end GraphFetch
