/-
Columns of queries, and what they cover.

Which columns a query fetches has no part in which rows it selects.  They are those of the
projection if nothing after it sets others, and the projection of a selection has a column
for everything its fields read.
-/
import GraphFetch.Database.Load
import GraphFetch.Plan.Compile
import GraphFetch.Proofs.Engine.ClientRows
import GraphFetch.Proofs.Outcome
import GraphFetch.Proofs.Query.Edits

namespace GraphFetch

/-- The rows that a query selects do not depend on its columns. -/
theorem Database.select_sameRows (database : Database) {query other : Query}
    (h : query.SameRows other) :
    (database.select query).result = (database.select other).result := by
  unfold Query.SameRows at h
  simp only [Query.whole, Query.mk.injEq] at h
  obtain ⟨-, htable, -, hconditions, horderings, hlimit, hoffset, -, hskips⟩ := h
  unfold Database.select
  rw [hskips, hconditions]
  cases bindConditions other.skipsUndefined other.conditions with
  | error column => rfl
  | ok bound =>
      show Except.ok _ = Except.ok _
      unfold Database.selected
      rw [htable, horderings, hlimit, hoffset]

/-! ### What fields read -/

/-- The names of the fields that are read from a row itself: neither relations nor the name of the
type. -/
def Selected.plainNames (entity : Entity) : Selected → List String
  | .none => []
  | .missing _ rest => plainNames entity rest
  | .field name _ _ _ rest =>
    if (entity.relation? name).isSome || name == "__typename" then plainNames entity rest
    else name :: plainNames entity rest

/-- What selected fields read of a renamed row, those about the schema apart. -/
def Selected.reads (entity : Entity) (selected : Selected) : List String :=
  ((selected.plainNames entity).filter fun name => !Plan.isIntrospection name).flatMap
    (Normalized.readNames entity)

/-- How the columns of a query cover what is read: all are fetched, or if columns are selected
those that are read, if any are. -/
inductive Database.Covers (entity : Entity) (reads : List String) (query : Query) : Bool → Prop
  | all (hcolumns : query.columns = none) : Covers entity reads query false
  | nothing (hcolumns : query.columns = none) (hreads : reads = []) :
      Covers entity reads query true
  | columns {names : List String} {qualify : Bool}
      (hcolumns : query.columns = some (names.map (Plan.columnRef entity qualify)))
      (hreads : reads ⊆ names) : Covers entity reads query true

theorem Database.Covers.of_columns {entity : Entity} {reads : List String} {query other : Query}
    {selects : Bool} (h : Covers entity reads query selects)
    (hsame : other.columns = query.columns) :
    Covers entity reads other selects := by
  cases h with
  | all hcolumns => exact .all (hsame.trans hcolumns)
  | nothing hcolumns hreads => exact .nothing (hsame.trans hcolumns) hreads
  | columns hcolumns hreads => exact .columns (hsame.trans hcolumns) hreads

namespace Plan

variable {context : PlanContext} {entity : Entity}

theorem mem_foldl_addColumn {columns more : List String} {name : String} :
    name ∈ more.foldl addColumn columns ↔ name ∈ columns ∨ name ∈ more := by
  induction more generalizing columns with
  | nil => simp
  | cons first rest ih =>
      rw [List.foldl_cons, ih]
      unfold addColumn
      by_cases h : first ∈ columns
      · rw [if_pos (by simpa using h), List.mem_cons]
        constructor
        · rintro (hold | hrest)
          · exact Or.inl hold
          · exact Or.inr (Or.inr hrest)
        · rintro (hold | rfl | hrest)
          · exact Or.inl hold
          · exact Or.inl h
          · exact Or.inr hrest
      · rw [if_neg (by simpa using h), List.mem_append, List.mem_singleton, List.mem_cons, or_assoc]

/-- A field that is data of the row itself needs the columns that it reads. -/
theorem fieldColumns_plain {name : String} (hrelation : entity.relation? name = none)
    (hname : isIntrospection name = false) :
    fieldColumns entity name = Normalized.readNames entity name := by
  unfold fieldColumns
  rw [hrelation, hname]
  rfl

theorem relation?_of_plainNames {selected : Selected} {name : String}
    (h : name ∈ selected.plainNames entity) :
    entity.relation? name = none ∧ name ≠ "__typename" := by
  induction selected with
  | none => exact absurd h (by simp [Selected.plainNames])
  | missing fragment rest ih => exact ih h
  | field other asName arguments children rest _ ih =>
      unfold Selected.plainNames at h
      split at h
      · exact ih h
      · rename_i hplain
        rcases List.mem_cons.mp h with rfl | h
        · simpa using hplain
        · exact ih h

/-- Columns are only ever added, and every field finds its own among them. -/
theorem collectColumns_fields {selected : Selected} {columns collected : List String}
    (h : collectColumns entity columns selected = .ok collected) :
    columns ⊆ collected
      ∧ ∀ name ∈ selected.plainNames entity, fieldColumns entity name ⊆ collected := by
  induction selected generalizing columns with
  | none =>
      cases h
      exact ⟨fun _ h => h, by simp [Selected.plainNames]⟩
  | missing fragment rest _ => exact absurd h (by simp [collectColumns])
  | field name asName arguments children rest _ ih =>
      rw [collectColumns] at h
      obtain ⟨hcolumns, hfields⟩ := ih h
      have hsub : columns ⊆ collected :=
        fun column hcolumn => hcolumns (mem_foldl_addColumn.mpr (Or.inl hcolumn))
      refine ⟨hsub, ?_⟩
      intro other hother
      unfold Selected.plainNames at hother
      split at hother
      · exact hfields other hother
      · rcases List.mem_cons.mp hother with rfl | hother
        · exact fun column hcolumn => hcolumns (mem_foldl_addColumn.mpr (Or.inr hcolumn))
        · exact hfields other hother

/-- **The columns of a selection hold everything its fields read.** -/
theorem collectColumns_reads {selected : Selected} {collected : List String}
    (h : collectColumns entity [] selected = .ok collected) :
    selected.reads entity ⊆ collected := by
  intro read hread
  obtain ⟨name, hname, hread⟩ := List.mem_flatMap.mp hread
  obtain ⟨hplain, hintrospection⟩ := List.mem_filter.mp hname
  have hintrospection : isIntrospection name = false := by simpa using hintrospection
  refine (collectColumns_fields h).2 name hplain ?_
  rw [fieldColumns_plain (relation?_of_plainNames hplain).1 hintrospection]
  exact hread

/-- **A projection covers what the fields of its selection read.** -/
theorem projectionModifier_covers {selected : Selected} {projection : Option Edit}
    (h : projectionModifier context entity selected = .ok projection) {query : Query}
    (hquery : query.columns = none) :
    Database.Covers entity (selected.reads entity) (query.applyAll projection.toList)
      context.settings.selectOptimization := by
  unfold projectionModifier at h
  split at h
  · rename_i hselects
    rw [hselects]
    obtain ⟨columns, hcolumns, h⟩ := Outcome.bind_ok.mp h
    have hreads := collectColumns_reads hcolumns
    split at h
    · rename_i hempty
      obtain rfl := Outcome.pure_ok.mp h
      rw [List.isEmpty_iff.mp hempty] at hreads
      exact .nothing hquery (List.subset_nil.mp hreads)
    · obtain rfl := Outcome.pure_ok.mp h
      exact .columns rfl hreads
  · rename_i hselects
    cases h
    rw [Bool.not_eq_true] at hselects
    rw [hselects]
    exact .all hquery

/-- A projection changes nothing but the columns. -/
theorem projectionModifier_sameRows {selected : Selected} {projection : Option Edit}
    (h : projectionModifier context entity selected = .ok projection) (query : Query) :
    (query.applyAll projection.toList).SameRows query := by
  unfold Query.SameRows
  unfold projectionModifier at h
  split at h
  · obtain ⟨columns, -, h⟩ := Outcome.bind_ok.mp h
    split at h
    · obtain rfl := Outcome.pure_ok.mp h
      rfl
    · obtain rfl := Outcome.pure_ok.mp h
      rfl
  · cases h
    rfl

/-- A projection attaches nothing. -/
theorem projectionModifier_keeps_eager {selected : Selected} {projection : Option Edit}
    (h : projectionModifier context entity selected = .ok projection) :
    Keeps Query.eager projection.toList := by
  intro query
  exact (projectionModifier_sameRows h query).eager

end Plan

end GraphFetch
