/-
Rows as clients know them, looked up.

What a client reads of a row is a lookup by name, so each step on the way from a stored
row to a normalized one is described by the lookups behind it: renaming, projecting,
normalizing what is attached, computing.  The names of an entity are clear if none of
them can be taken for another; then a column is found under its client name as it was
stored, and what a projection leaves out is not missed by the columns it selects.
-/
import GraphFetch.Database.Load
import GraphFetch.Engine.Normalized
import GraphFetch.Plan.Projection
import GraphFetch.Proofs.Database.Projecting
import GraphFetch.Proofs.Schema.Registered

namespace GraphFetch

/-! ### Clear names -/

/-- Whether no name of an entity can be taken for a column that has another one. -/
structure Entity.Clear (entity : Entity) : Prop where
  column_not_virtual : ∀ name ∈ Named.names entity.columns, name ∉ Named.names entity.virtuals
  /-- A column that is no part of the table has no name in it. -/
  computed_stays : ∀ entry ∈ entity.columns, entry.2.computed = true →
    entry.2.storageName = entry.2.name
  /-- A name that only storage uses is no client's name of a column. -/
  moved_free : ∀ entry ∈ entity.columns, entry.2.storageName ≠ entry.2.name →
    entry.2.storageName ∉ Named.names entity.columns

/-- Whether no two columns of an entity are stored under one name. -/
def Entity.StoredApart (entity : Entity) : Prop :=
  (entity.columns.map fun entry => entry.2.storageName).Nodup

/-- Whether attributes of an entity are computed from the columns that they say. -/
structure Entity.Computable (entity : Entity) : Prop where
  dependencies_columns : ∀ entry ∈ entity.virtuals, ∀ name ∈ entry.2.dependencies,
    name ∈ Named.names entity.columns
  /-- What an attribute computes depends on the columns it names. -/
  computes : ∀ entry ∈ entity.virtuals, ∃ compute, entry.2.compute = some compute
    ∧ ∀ row other : Row, (∀ name ∈ entry.2.dependencies,
        Named.find? name row = Named.find? name other) → compute row = compute other

namespace Normalized

/-! ### Renaming -/

theorem Distinct.renameColumn {row : Row} (h : Named.Distinct row) (column : Column) :
    Named.Distinct (renameColumn row column) := by
  unfold Normalized.renameColumn
  split
  · exact h
  · split
    · exact (h.remove _).putNew _ _
    · exact h

theorem renameColumn_stays {column : Column} (h : column.storageName = column.name) (row : Row) :
    renameColumn row column = row := by
  unfold renameColumn
  rw [if_pos h]

/-- A moved column takes its value along, unless its new name has one already. -/
theorem find?_renameColumn {row : Row} (h : Named.Distinct row) {column : Column}
    (hmoved : column.storageName ≠ column.name) (name : String) :
    Named.find? name (renameColumn row column)
      = if name = column.storageName then none
        else if name = column.name then
          (Named.find? name row).or (Named.find? column.storageName row)
        else Named.find? name row := by
  unfold renameColumn
  rw [if_neg hmoved]
  cases hfind : Named.find? column.storageName row with
  | none =>
      by_cases hstorage : name = column.storageName
      · simp [hstorage, hfind]
      · simp [hstorage]
  | some value =>
      dsimp only
      rw [Named.find?_putNew, h.find?_remove, h.find?_remove, if_neg (Ne.symm hmoved)]
      by_cases hstorage : name = column.storageName
      · simp [hstorage, hmoved]
      · by_cases hname : name = column.name
        · simp [hname, Ne.symm hmoved]
        · simp [hstorage, hname]

theorem find?_renameColumn_other {row : Row} (h : Named.Distinct row) {column : Column}
    {name : String} (hname : column.name ≠ name) (hstored : column.storageName ≠ name) :
    Named.find? name (renameColumn row column) = Named.find? name row := by
  by_cases hmoved : column.storageName = column.name
  · rw [renameColumn_stays hmoved]
  · rw [find?_renameColumn h hmoved, if_neg (Ne.symm hstored), if_neg (Ne.symm hname)]

/-- Whether no name that only storage uses is the client's name of another column. -/
def MovedFree (columns : List Column) : Prop :=
  ∀ column ∈ columns, column.storageName ≠ column.name →
    ∀ other ∈ columns, column.storageName ≠ other.name

theorem MovedFree.tail {column : Column} {rest : List Column} (h : MovedFree (column :: rest)) :
    MovedFree rest :=
  fun first hfirst hmoved second hsecond =>
    h first (List.mem_cons_of_mem _ hfirst) hmoved second (List.mem_cons_of_mem _ hsecond)

/-- What stands under a name is kept by columns that do not leave that name, if those that move to
it have nothing else to bring. -/
theorem find?_foldl_renameColumn_kept {columns : List Column} (hfree : MovedFree columns)
    {name : String} (hstays : ∀ column ∈ columns, column.storageName ≠ column.name →
      column.storageName ≠ name) {row : Row} (hrow : Named.Distinct row)
    (hsource : ∀ column ∈ columns, column.name = name →
      (Named.find? name row).or (Named.find? column.storageName row) = Named.find? name row) :
    Named.find? name (columns.foldl renameColumn row) = Named.find? name row := by
  induction columns generalizing row with
  | nil => rfl
  | cons column rest ih =>
      have hlater := fun later h => hsource later (List.mem_cons_of_mem column h)
      have hstaysLater := fun later h => hstays later (List.mem_cons_of_mem column h)
      rw [List.foldl_cons]
      by_cases hmoved : column.storageName = column.name
      · rw [renameColumn_stays hmoved]
        exact ih hfree.tail hstaysLater hrow hlater
      have hfind := find?_renameColumn hrow hmoved
      have hsame : Named.find? name (renameColumn row column) = Named.find? name row := by
        rw [hfind, if_neg (Ne.symm (hstays column List.mem_cons_self hmoved))]
        by_cases hname : name = column.name
        · rw [if_pos hname, hsource column List.mem_cons_self hname.symm]
        · rw [if_neg hname]
      rw [← hsame]
      refine ih hfree.tail hstaysLater (Distinct.renameColumn hrow column) ?_
      intro later hmem hname
      rw [hsame]
      by_cases hlaterMoved : later.storageName = later.name
      · rw [hlaterMoved, hname, hsame, Option.or_self]
      · rw [hfind, if_neg (hfree later (List.mem_cons_of_mem _ hmem) hlaterMoved column
          List.mem_cons_self)]
        split
        · exact Option.or_none
        · exact hlater later hmem hname

/-- A column under whose name nothing else is moved is found there as it was stored. -/
theorem find?_foldl_renameColumn_column {columns : List Column} (hfree : MovedFree columns)
    (hnames : (columns.map Column.name).Nodup) (hstored : (columns.map Column.storageName).Nodup)
    {column : Column} (hcolumn : column ∈ columns) {row : Row} (hrow : Named.Distinct row) :
    Named.find? column.name (columns.foldl renameColumn row)
      = (Named.find? column.name row).or (Named.find? column.storageName row) := by
  induction columns generalizing row with
  | nil => exact absurd hcolumn (by simp)
  | cons first rest ih =>
      obtain ⟨hfirstName, hrestNames⟩ := List.nodup_cons.mp hnames
      obtain ⟨hfirstStored, hrestStored⟩ := List.nodup_cons.mp hstored
      rw [List.foldl_cons]
      rcases List.mem_cons.mp hcolumn with rfl | hrest
      · have hfirst : Named.find? column.name (renameColumn row column)
            = (Named.find? column.name row).or (Named.find? column.storageName row) := by
          by_cases hmoved : column.storageName = column.name
          · rw [renameColumn_stays hmoved, hmoved, Option.or_self]
          · rw [find?_renameColumn hrow hmoved, if_neg (Ne.symm hmoved), if_pos rfl]
        rw [← hfirst]
        refine find?_foldl_renameColumn_kept hfree.tail ?_ (Distinct.renameColumn hrow column) ?_
        · intro later hlater hmoved
          exact hfree later (List.mem_cons_of_mem _ hlater) hmoved column List.mem_cons_self
        · intro later hlater heq
          exact absurd (heq ▸ List.mem_map_of_mem hlater) hfirstName
      · have hname : first.name ≠ column.name := fun heq =>
          hfirstName (heq ▸ List.mem_map_of_mem hrest)
        have hfirstLeaves : first.storageName ≠ column.name := by
          by_cases hmoved : first.storageName = first.name
          · rw [hmoved]
            exact hname
          · exact hfree first List.mem_cons_self hmoved column hcolumn
        have hstoredStays : first.storageName ≠ column.storageName := fun heq =>
          hfirstStored (heq ▸ List.mem_map_of_mem hrest)
        have hnameStored : first.name ≠ column.storageName := by
          by_cases hmoved : column.storageName = column.name
          · rw [hmoved]
            exact hname
          · exact Ne.symm (hfree column hcolumn hmoved first List.mem_cons_self)
        rw [ih hfree.tail hrestNames hrestStored hrest (Distinct.renameColumn hrow first),
          find?_renameColumn_other hrow hname hfirstLeaves,
          find?_renameColumn_other hrow hnameStored hstoredStays]

/-- A name that no column has is found as it was, except one that only storage uses. -/
theorem find?_foldl_renameColumn_undeclared {columns : List Column} {name : String}
    (hname : ∀ column ∈ columns, column.name ≠ name) {row : Row} (hrow : Named.Distinct row) :
    Named.find? name (columns.foldl renameColumn row)
      = if name ∈ columns.map Column.storageName then none else Named.find? name row := by
  induction columns generalizing row with
  | nil => simp
  | cons column rest ih =>
      have hown : column.name ≠ name := hname column List.mem_cons_self
      rw [List.foldl_cons, ih (fun later h => hname later (List.mem_cons_of_mem _ h))
        (Distinct.renameColumn hrow column)]
      by_cases hstored : column.storageName = name
      · have hnone : Named.find? name (renameColumn row column) = none := by
          rw [find?_renameColumn hrow (hstored ▸ Ne.symm hown), if_pos hstored.symm]
        simp [hstored, hnone]
      · rw [find?_renameColumn_other hrow hown hstored]
        simp [Ne.symm hstored]

/-- Rows that agree outside some keys, none of which is a column's name, do so after renaming. -/
theorem find?_foldl_renameColumn_congr {keys : List String} {columns : List Column}
    (hcolumns : ∀ column ∈ columns, column.name ∉ keys ∧ column.storageName ∉ keys)
    {row other : Row} (hrow : Named.Distinct row) (hother : Named.Distinct other)
    (hsame : ∀ name ∉ keys, Named.find? name row = Named.find? name other) {name : String}
    (hname : name ∉ keys) :
    Named.find? name (columns.foldl renameColumn row)
      = Named.find? name (columns.foldl renameColumn other) := by
  induction columns generalizing row other with
  | nil => exact hsame name hname
  | cons column rest ih =>
      obtain ⟨hown, hstored⟩ := hcolumns column List.mem_cons_self
      refine ih (fun later h => hcolumns later (List.mem_cons_of_mem _ h))
        (Distinct.renameColumn hrow column) (Distinct.renameColumn hother column) ?_
      intro name hname
      by_cases hmoved : column.storageName = column.name
      · rw [renameColumn_stays hmoved, renameColumn_stays hmoved]
        exact hsame name hname
      · rw [find?_renameColumn hrow hmoved, find?_renameColumn hother hmoved, hsame name hname,
          hsame _ hstored]

section Entity

variable {registry : Registry} {entity : Entity}

theorem columnNames (hown : entity.OwnNames) :
    (entity.columns.map Prod.snd).map Column.name = Named.names entity.columns := by
  rw [List.map_map]
  exact List.map_congr_left fun entry hentry => hown.column_name entry.1 entry.2 hentry

theorem movedFree_columns (hown : entity.OwnNames) (hclear : entity.Clear) :
    MovedFree (entity.columns.map Prod.snd) := by
  intro column hcolumn hmoved other hother heq
  obtain ⟨entry, hentry, rfl⟩ := List.mem_map.mp hcolumn
  refine hclear.moved_free entry hentry hmoved ?_
  rw [heq, ← columnNames hown]
  exact List.mem_map_of_mem hother

theorem name_ne_of_column?_none (hown : entity.OwnNames) {name : String}
    (h : entity.column? name = none) :
    ∀ column ∈ entity.columns.map Prod.snd, column.name ≠ name := by
  intro column hcolumn heq
  refine Named.find?_eq_none.mp h ?_
  rw [← heq, ← columnNames hown]
  exact List.mem_map_of_mem hcolumn

/-- **A column is found under its client name as it was stored.** -/
theorem find?_renameColumns_column (hown : entity.OwnNames) (hclear : entity.Clear)
    (hstored : entity.StoredApart) {row : Row} (hrow : Named.Distinct row) {name : String}
    {column : Column} (h : entity.column? name = some column) :
    Named.find? name (renameColumns entity row)
      = (Named.find? name row).or (Named.find? column.storageName row) := by
  have hentry : (name, column) ∈ entity.columns := Named.mem_of_find? h
  have hnames : ((entity.columns.map Prod.snd).map Column.name).Nodup := by
    rw [columnNames hown]
    exact hown.columns_distinct
  have hapart : ((entity.columns.map Prod.snd).map Column.storageName).Nodup := by
    rw [List.map_map]
    exact hstored
  rw [← hown.column_name name column hentry]
  exact find?_foldl_renameColumn_column (movedFree_columns hown hclear) hnames hapart
    (List.mem_map_of_mem hentry) hrow

/-- A name that is no column's is found as it was, except one that only storage uses. -/
theorem find?_renameColumns_undeclared (hown : entity.OwnNames) {row : Row}
    (hrow : Named.Distinct row) {name : String} (h : entity.column? name = none) :
    Named.find? name (renameColumns entity row)
      = if name ∈ entity.columns.map (fun entry => entry.2.storageName) then none
        else Named.find? name row := by
  unfold renameColumns
  rw [find?_foldl_renameColumn_undeclared (name_ne_of_column?_none hown h) hrow, List.map_map]
  rfl

/-- Rows that agree outside some keys, none of which is a column's name, do so after renaming. -/
theorem find?_renameColumns_congr (hown : entity.OwnNames) {keys : List String}
    (hnames : ∀ key ∈ keys, key ∉ Named.names entity.columns)
    (hstored : ∀ key ∈ keys, key ∉ entity.columns.map fun entry => entry.2.storageName)
    {row other : Row} (hrow : Named.Distinct row) (hother : Named.Distinct other)
    (hsame : ∀ name ∉ keys, Named.find? name row = Named.find? name other) {name : String}
    (hname : name ∉ keys) :
    Named.find? name (renameColumns entity row)
      = Named.find? name (renameColumns entity other) := by
  refine find?_foldl_renameColumn_congr ?_ hrow hother hsame hname
  intro column hcolumn
  obtain ⟨entry, hentry, rfl⟩ := List.mem_map.mp hcolumn
  constructor
  · intro hkey
    refine hnames _ hkey ?_
    rw [← columnNames hown]
    exact List.mem_map_of_mem hcolumn
  · intro hkey
    exact hstored _ hkey (List.mem_map_of_mem hentry)

/-- The name under which a column is stored, of any other name itself. -/
def storedName (entity : Entity) (name : String) : String :=
  match entity.column? name with
  | some column => column.storageName
  | none => name

theorem storedName_column {name : String} {column : Column}
    (h : entity.column? name = some column) :
    storedName entity name = column.storageName := by
  unfold storedName
  rw [h]

theorem storedName_undeclared {name : String} (h : entity.column? name = none) :
    storedName entity name = name := by
  unfold storedName
  rw [h]

/-! ### Computing -/

/-- What is no attribute's name is found as it was. -/
theorem find?_foldl_computeVirtual {virtuals : List VirtualAttribute} {name : String}
    (h : ∀ virtual ∈ virtuals, virtual.name ≠ name) (row : Row) :
    Named.find? name (virtuals.foldl computeVirtual row) = Named.find? name row := by
  induction virtuals generalizing row with
  | nil => rfl
  | cons virtual rest ih =>
      rw [List.foldl_cons, ih fun later hlater => h later (List.mem_cons_of_mem _ hlater)]
      unfold computeVirtual
      cases virtual.compute with
      | none => rfl
      | some compute =>
          exact Named.find?_put_of_ne (Ne.symm (h virtual List.mem_cons_self)) _ _

theorem find?_computeVirtuals_other (hown : entity.OwnNames) {name : String}
    (h : entity.virtual? name = none) (row : Row) :
    Named.find? name (computeVirtuals entity row) = Named.find? name row := by
  refine find?_foldl_computeVirtual ?_ row
  intro virtual hvirtual heq
  obtain ⟨entry, hentry, rfl⟩ := List.mem_map.mp hvirtual
  refine Named.find?_eq_none.mp h ?_
  rw [← heq, hown.virtual_name entry.1 entry.2 hentry]
  exact List.mem_map_of_mem hentry

/-- An attribute is computed from the row as it was before the others, none of which it reads. -/
theorem find?_foldl_computeVirtual_own {virtuals : List VirtualAttribute}
    (hnames : (virtuals.map VirtualAttribute.name).Nodup) {virtual : VirtualAttribute}
    (hvirtual : virtual ∈ virtuals) {compute : Row → Json}
    (hcompute : virtual.compute = some compute)
    (hreads : ∀ row other : Row, (∀ name ∈ virtual.dependencies,
      Named.find? name row = Named.find? name other) → compute row = compute other)
    (hothers : ∀ other ∈ virtuals, other.name ∉ virtual.dependencies) (row : Row) :
    Named.find? virtual.name (virtuals.foldl computeVirtual row) = some (compute row) := by
  induction virtuals generalizing row with
  | nil => exact absurd hvirtual (by simp)
  | cons first rest ih =>
      obtain ⟨hfirst, hrest⟩ := List.nodup_cons.mp hnames
      rw [List.forall_mem_cons] at hothers
      rw [List.foldl_cons]
      rcases List.mem_cons.mp hvirtual with rfl | hmem
      · have hlater : ∀ later ∈ rest, later.name ≠ virtual.name := fun later hlater heq =>
          hfirst (heq ▸ List.mem_map_of_mem hlater)
        rw [find?_foldl_computeVirtual hlater, computeVirtual, hcompute]
        exact Named.find?_put_self _ _ _
      · rw [ih hrest hmem hothers.2]
        refine congrArg some (hreads _ _ ?_)
        intro dependency hdependency
        have hne : dependency ≠ first.name := fun heq => hothers.1 (heq ▸ hdependency)
        unfold computeVirtual
        cases first.compute with
        | none => rfl
        | some compute => exact Named.find?_put_of_ne hne _ _

/-- **An attribute is computed from the row that was normalized**, whatever was computed before
it. -/
theorem find?_computeVirtuals_virtual (hown : entity.OwnNames) (hclear : entity.Clear)
    (hcomputable : entity.Computable) {name : String} {virtual : VirtualAttribute}
    (h : entity.virtual? name = some virtual) :
    ∃ compute, virtual.compute = some compute
      ∧ ∀ row, Named.find? name (computeVirtuals entity row) = some (compute row) := by
  have hentry : (name, virtual) ∈ entity.virtuals := Named.mem_of_find? h
  obtain ⟨compute, hcompute, hreads⟩ := hcomputable.computes _ hentry
  have hname : virtual.name = name := hown.virtual_name name virtual hentry
  have hapart : ((entity.virtuals.map Prod.snd).map VirtualAttribute.name).Nodup := by
    rw [List.map_map]
    rw [List.map_congr_left fun entry hentry => hown.virtual_name entry.1 entry.2 hentry]
    exact hown.virtuals_distinct
  have hothers : ∀ other ∈ entity.virtuals.map Prod.snd, other.name ∉ virtual.dependencies := by
    intro other hother hmem
    obtain ⟨entry, hentry', rfl⟩ := List.mem_map.mp hother
    refine hclear.column_not_virtual _ (hcomputable.dependencies_columns _ hentry _ hmem) ?_
    rw [hown.virtual_name entry.1 entry.2 hentry']
    exact List.mem_map_of_mem hentry'
  refine ⟨compute, hcompute, fun row => ?_⟩
  rw [← hname]
  exact find?_foldl_computeVirtual_own hapart (List.mem_map_of_mem hentry) hcompute hreads hothers
    row

/-- The names that a field without a relation is read from in a renamed row. -/
def readNames (entity : Entity) (name : String) : List String :=
  match entity.virtual? name with
  | some virtual => virtual.dependencies
  | none => [name]

/-- Rows that agree where a field is read from give it the same value. -/
theorem find?_computeVirtuals_congr (hown : entity.OwnNames) (hclear : entity.Clear)
    (hcomputable : entity.Computable) {name : String} {row other : Row}
    (h : ∀ read ∈ readNames entity name, Named.find? read row = Named.find? read other) :
    Named.find? name (computeVirtuals entity row)
      = Named.find? name (computeVirtuals entity other) := by
  cases hvirtual : entity.virtual? name with
  | none =>
      rw [find?_computeVirtuals_other hown hvirtual, find?_computeVirtuals_other hown hvirtual]
      exact h name (by simp [readNames, hvirtual])
  | some virtual =>
      obtain ⟨compute, hcompute, hfind⟩ := find?_computeVirtuals_virtual hown hclear
        hcomputable hvirtual
      obtain ⟨compute', hcompute', hreads⟩ := hcomputable.computes _ (Named.mem_of_find? hvirtual)
      obtain rfl : compute = compute' := Option.some.inj (hcompute.symm.trans hcompute')
      rw [hfind, hfind]
      refine congrArg some (hreads _ _ ?_)
      intro dependency hdependency
      exact h dependency (by simpa [readNames, hvirtual] using hdependency)

end Entity

end Normalized

/-! ### What a query yields of a row -/

namespace Database

variable {entity : Entity}

theorem columnRef_name (hown : entity.OwnNames) (hclear : entity.Clear) (qualify : Bool)
    (name : String) :
    (Plan.columnRef entity qualify name).name = Normalized.storedName entity name := by
  unfold Plan.columnRef Normalized.storedName
  cases hcolumn : entity.column? name with
  | none => rfl
  | some column =>
      have hentry : (name, column) ∈ entity.columns := Named.mem_of_find? hcolumn
      dsimp only
      by_cases hcomputed : column.computed = true
      · rw [if_pos hcomputed, hclear.computed_stays _ hentry hcomputed]
        exact (hown.column_name name column hentry).symm
      · rw [if_neg hcomputed]

theorem columnRef_outputName (hown : entity.OwnNames) (qualify : Bool) (name : String) :
    (Plan.columnRef entity qualify name).outputName = name := by
  unfold Plan.columnRef
  cases hcolumn : entity.column? name with
  | none => rfl
  | some column =>
      have hname : column.name = name := hown.column_name name column (Named.mem_of_find? hcolumn)
      dsimp only
      by_cases hcomputed : column.computed = true
      · rw [if_pos hcomputed]
        rfl
      · rw [if_neg hcomputed]
        unfold ColumnRef.outputName
        dsimp only
        by_cases hmoved : column.storageName = column.name
        · rw [if_pos hmoved, Option.getD_none, hmoved, hname]
        · rw [if_neg hmoved, Option.getD_some, hname]

section Projection

variable {query : Query} {names : List String} {qualify : Bool} {nodes : List RelationNode}
  {row : Row}

/-- A selected name has the value that is stored for it, any other name none. -/
theorem projected?_columnRefs (hown : entity.OwnNames) (hclear : entity.Clear) (name : String) :
    projected? (names.map (Plan.columnRef entity qualify)) row name
      = if name ∈ names then Named.find? (Normalized.storedName entity name) row else none := by
  have hcopied :
      copied? ColumnRef.outputName ColumnRef.name row name ∘ Plan.columnRef entity qualify
      = fun other => if other = name then Named.find? (Normalized.storedName entity name) row
        else none := by
    funext other
    simp only [Function.comp, copied?, columnRef_outputName hown, columnRef_name hown hclear]
    split <;> simp_all
  unfold projected?
  rw [← List.map_reverse, List.findSome?_map, hcopied, findSome?_eq_name]
  simp only [List.mem_reverse]

variable (hown : entity.OwnNames) (hclear : entity.Clear)
  (hcolumns : query.columns = some (names.map (Plan.columnRef entity qualify)))

include hown hclear hcolumns

theorem find?_project_key {name : String} (hname : name ∈ nodes.map RelationNode.key) :
    Named.find? name (project query nodes row)
      = (Named.find? name row).or
          (if name ∈ names then Named.find? (Normalized.storedName entity name) row else none) := by
  simp only [find?_project, hcolumns, if_pos hname, projected?_columnRefs hown hclear]

theorem find?_project_other {name : String} (hname : name ∉ nodes.map RelationNode.key) :
    Named.find? name (project query nodes row)
      = if name ∈ names then Named.find? (Normalized.storedName entity name) row else none := by
  simp only [find?_project, hcolumns, if_neg hname, projected?_columnRefs hown hclear,
    Option.none_or]

/-- A selected column has its own value or the one that is stored for it. -/
theorem find?_project_column {name : String} (hname : name ∈ names) {column : Column}
    (hcolumn : entity.column? name = some column) :
    Named.find? name (project query nodes row) = Named.find? column.storageName row
      ∨ Named.find? name (project query nodes row)
        = (Named.find? name row).or (Named.find? column.storageName row) := by
  by_cases hkey : name ∈ nodes.map RelationNode.key
  · rw [find?_project_key hown hclear hcolumns hkey, if_pos hname,
      Normalized.storedName_column hcolumn]
    exact Or.inr rfl
  · rw [find?_project_other hown hclear hcolumns hkey, if_pos hname,
      Normalized.storedName_column hcolumn]
    exact Or.inl rfl

/-- What is no column's name is found in a projected row as in the whole one, or not at all. -/
theorem find?_project_undeclared {name : String} (hname : entity.column? name = none) :
    Named.find? name (project query nodes row) = none
      ∨ Named.find? name (project query nodes row) = Named.find? name row := by
  by_cases hkey : name ∈ nodes.map RelationNode.key
  · rw [find?_project_key hown hclear hcolumns hkey, Normalized.storedName_undeclared hname]
    split
    · exact Or.inr Option.or_self
    · exact Or.inr Option.or_none
  · rw [find?_project_other hown hclear hcolumns hkey, Normalized.storedName_undeclared hname]
    split
    · exact Or.inr rfl
    · exact Or.inl rfl

end Projection

/-- What is stored for a name that is read. -/
def storedValue (entity : Entity) (row : Row) (name : String) : Option Json :=
  match entity.column? name with
  | some column => Named.find? column.storageName row
  | none =>
    if name ∈ entity.columns.map (fun entry => entry.2.storageName) then none
    else Named.find? name row

/-- Rows whose members are told apart by name, none of which stands where a column is moved to,
what is under the given keys excepted. -/
structure Unshadowed (entity : Entity) (keys : List String) (row : Row) : Prop where
  distinct : Named.Distinct row
  unshadowed : ∀ name column, entity.column? name = some column → column.storageName ≠ name →
    name ∉ keys → Named.find? name row = none

section Renamed

variable (hown : entity.OwnNames) (hclear : entity.Clear) {query : Query} {names : List String}
  {qualify : Bool} {nodes : List RelationNode} {row : Row} {name : String}
  (hcolumns : query.columns = some (names.map (Plan.columnRef entity qualify)))
  (hrow : Named.Distinct row) (hname : name ∈ names)

include hown hclear hcolumns hrow hname

/-- A column that a query selects is not moved any more: it has its client name already. -/
theorem find?_renameColumns_project_column {column : Column}
    (hcolumn : entity.column? name = some column) :
    Named.find? name (Normalized.renameColumns entity (project query nodes row))
      = Named.find? name (project query nodes row) := by
  have hentry : (name, column) ∈ entity.columns := Named.mem_of_find? hcolumn
  have hfree := Normalized.movedFree_columns hown hclear
  have hmem : column ∈ entity.columns.map Prod.snd := List.mem_map_of_mem hentry
  have hcolumnName : column.name = name := hown.column_name name column hentry
  refine Normalized.find?_foldl_renameColumn_kept hfree ?_ (Distinct.project nodes hrow) ?_
  · intro other hother hmoved
    rw [← hcolumnName]
    exact hfree other hother hmoved column hmem
  · intro other hother hotherName
    obtain ⟨entry, hentry', rfl⟩ := List.mem_map.mp hother
    have hsame : entry.2 = column := by
      have hfind : entity.column? entry.1 = some entry.2 := hown.columns_distinct.find? hentry'
      rw [← hown.column_name entry.1 entry.2 hentry', hotherName, hcolumn] at hfind
      exact (Option.some.inj hfind).symm
    rw [hsame]
    by_cases hmoved : column.storageName = name
    · rw [hmoved, Option.or_self]
    -- The name that only storage uses has nothing to bring that was not selected already.
    have hundeclared : entity.column? column.storageName = none :=
      Named.find?_eq_none.mpr (hclear.moved_free _ hentry (by rw [hcolumnName]; exact hmoved))
    rcases find?_project_undeclared hown hclear hcolumns hundeclared with hnone | hsame
    · rw [hnone, Option.or_none]
    · rw [hsame]
      rcases find?_project_column hown hclear hcolumns hname hcolumn with hstored | hboth
      · rw [hstored, Option.or_self]
      · rw [hboth, Option.or_assoc, Option.or_self]

/-- **What a query selects is found as it is stored**, whatever else it selects. -/
theorem find?_renameColumns_project_apart (hkey : name ∉ nodes.map RelationNode.key) :
    Named.find? name (Normalized.renameColumns entity (project query nodes row))
      = storedValue entity row name := by
  unfold storedValue
  cases hcolumn : entity.column? name with
  | some column =>
      rw [find?_renameColumns_project_column hown hclear hcolumns hrow hname hcolumn,
        find?_project_other hown hclear hcolumns hkey, if_pos hname,
        Normalized.storedName_column hcolumn]
  | none =>
      rw [Normalized.find?_renameColumns_undeclared hown (Distinct.project nodes hrow) hcolumn,
        find?_project_other hown hclear hcolumns hkey, if_pos hname,
        Normalized.storedName_undeclared hcolumn]

end Renamed

/-- **A projection loses nothing that it selects**: under a name that is read, renaming finds the
same in the projected row and in the whole one, unless that has a member where a column is moved
to. -/
theorem find?_renameColumns_project (hown : entity.OwnNames) (hclear : entity.Clear)
    (hstored : entity.StoredApart) {query : Query} {names : List String} {qualify : Bool}
    (hcolumns : query.columns = some (names.map (Plan.columnRef entity qualify)))
    {nodes : List RelationNode} {row : Row}
    (hrow : Unshadowed entity (nodes.map RelationNode.key) row) {name : String}
    (hname : name ∈ names) :
    Named.find? name (Normalized.renameColumns entity (project query nodes row))
      = Named.find? name (Normalized.renameColumns entity row) := by
  cases hcolumn : entity.column? name with
  | none =>
      rw [Normalized.find?_renameColumns_undeclared hown (Distinct.project nodes hrow.distinct)
        hcolumn, Normalized.find?_renameColumns_undeclared hown hrow.distinct hcolumn]
      by_cases hkey : name ∈ nodes.map RelationNode.key
      · rw [find?_project_key hown hclear hcolumns hkey, if_pos hname,
          Normalized.storedName_undeclared hcolumn, Option.or_self]
      · rw [find?_project_other hown hclear hcolumns hkey, if_pos hname,
          Normalized.storedName_undeclared hcolumn]
  | some column =>
      rw [find?_renameColumns_project_column hown hclear hcolumns hrow.distinct hname hcolumn,
        Normalized.find?_renameColumns_column hown hclear hstored hrow.distinct hcolumn]
      by_cases hkey : name ∈ nodes.map RelationNode.key
      · rw [find?_project_key hown hclear hcolumns hkey, if_pos hname,
          Normalized.storedName_column hcolumn]
      · rw [find?_project_other hown hclear hcolumns hkey, if_pos hname,
          Normalized.storedName_column hcolumn]
        by_cases hmoved : column.storageName = name
        · rw [hmoved, Option.or_self]
        · rw [hrow.unshadowed name column hcolumn hmoved hkey, Option.none_or]

end Database

/-! ### What is attached -/

namespace Normalized

variable {registry : Registry} {entity : Entity}

theorem normalizeNode_eq (row : Row) (node : RelationNode) :
    normalizeNode registry entity row node
      = match entity.relation? node.name, Named.find? node.key row with
        | some relation, some value =>
          Named.put node.key (changeRows
            (normalizeRow registry (registry.entity relation.target) node.children) value) row
        | _, _ => row := by
  obtain ⟨name, asName, modifiers, children⟩ := node
  rw [normalizeNode]
  rfl

theorem find?_normalizeNode_other {node : RelationNode} {name : String} (h : node.key ≠ name)
    (row : Row) :
    Named.find? name (normalizeNode registry entity row node) = Named.find? name row := by
  rw [normalizeNode_eq]
  split
  · exact Named.find?_put_of_ne (Ne.symm h) _ _
  · rfl

theorem find?_normalizeNodes_other {nodes : List RelationNode} {name : String}
    (h : name ∉ nodes.map RelationNode.key) (row : Row) :
    Named.find? name (normalizeNodes registry entity row nodes) = Named.find? name row := by
  induction nodes generalizing row with
  | nil => rw [normalizeNodes]
  | cons node rest ih =>
      rw [List.map_cons, List.mem_cons, not_or] at h
      rw [normalizeNodes, ih h.2, find?_normalizeNode_other (Ne.symm h.1)]

/-- **What a relation attached is normalized as rows of its target.** -/
theorem find?_normalizeNodes_key {nodes : List RelationNode}
    (hapart : (nodes.map RelationNode.key).Nodup) {node : RelationNode} (hnode : node ∈ nodes)
    {relation : Relation} (hrelation : entity.relation? node.name = some relation) {row : Row}
    {value : Json} (hvalue : Named.find? node.key row = some value) :
    Named.find? node.key (normalizeNodes registry entity row nodes)
      = some (changeRows
          (normalizeRow registry (registry.entity relation.target) node.children) value) := by
  induction nodes generalizing row with
  | nil => exact absurd hnode (by simp)
  | cons first rest ih =>
      obtain ⟨hfirst, hrest⟩ := List.nodup_cons.mp hapart
      rw [normalizeNodes]
      rcases List.mem_cons.mp hnode with rfl | hlater
      · rw [find?_normalizeNodes_other hfirst, normalizeNode_eq, hrelation, hvalue]
        exact Named.find?_put_self _ _ _
      · have hne : first.key ≠ node.key := fun heq => hfirst (heq ▸ List.mem_map_of_mem hlater)
        exact ih hrest hlater ((find?_normalizeNode_other hne row).trans hvalue)

end Normalized

end GraphFetch
