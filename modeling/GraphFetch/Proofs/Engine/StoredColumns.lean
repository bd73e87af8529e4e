/-
Columns, answered as they are stored.

Between the row of a table and the answer a column is renamed twice over: the projection
fetches it under its client name, and the normalizer moves whatever still stands under a
name in storage.  One column at a time is moved, so a name must not be left by one column
and taken by another: then what is answered for a column, on every level and whether or not
projections are made, is what the row of its table stores for it.  Columns that swap their
names are answered with each other's values, or with none.
-/
import GraphFetch.Proofs.Engine.Requests
import GraphFetch.Proofs.Engine.RootFields

namespace GraphFetch

open Database (Unshadowed columnValue relationValue)
open Normalized (renameColumns normalizeRow)

/-! ### What rows store -/

/-- A stored column is told as the row of its table stores it; other fields tell anything. -/
def TellsStored (entity : Entity) (stored : Row) (name : String) (value : Json) : Prop :=
  ∀ column, entity.column? name = some column → column.computed = false →
    value = columnValue stored column.storageName

/-- Tables whose columns can be told from all others: no two are stored under one name, none has a
name about the schema, and if all columns are fetched nothing stands where one is moved to. -/
structure Database.Faithful (database : Database) (selects : Bool) : Prop where
  stored : ∀ entity ∈ database.registry.entities, entity.StoredApart
  names : ∀ entity ∈ database.registry.entities, ∀ name ∈ Named.names entity.columns,
    Plan.isIntrospection name = false
  rows : selects = false → ∀ entity ∈ database.registry.entities,
    ∀ row ∈ database.table entity.table, Unshadowed entity [] row

namespace Reading

variable {reading : Reading}

/-- What a column reads if it is the only field is what is stored for it. -/
theorem find?_seen_column (hclear : reading.database.Clear)
    (hfaithful : reading.database.Faithful reading.selects) {entity : Entity}
    (hentity : entity ∈ reading.database.registry.entities) {stored : Row}
    (hstored : stored ∈ reading.database.table entity.table) {name : String} {column : Column}
    (hcolumn : entity.column? name = some column) :
    Named.find? name (renameColumns entity (reading.seen entity name stored))
      = Named.find? column.storageName stored := by
  have hown := (hclear.built entity hentity).toOwnNames
  have hnames := hclear.clear entity hentity
  have hdistinct := hclear.rows entity hentity stored hstored
  have hvirtual : entity.virtual? name = none :=
    Named.find?_eq_none.mpr (hnames.column_not_virtual name (Named.mem_names_of_find? hcolumn))
  unfold Reading.seen
  by_cases hselects : reading.selects = true
  · have hread : name ∈ Normalized.readNames entity name := by simp [Normalized.readNames, hvirtual]
    rw [if_pos hselects, Database.find?_renameColumns_project_apart hown hnames rfl hdistinct hread
      (by simp)]
    unfold Database.storedValue
    rw [hcolumn]
  · rw [if_neg hselects, Normalized.find?_renameColumns_column hown hnames
      (hfaithful.stored entity hentity) hdistinct hcolumn]
    by_cases hmoved : column.storageName = name
    · rw [hmoved, Option.or_self]
    · have hrow := hfaithful.rows (by simpa using hselects) entity hentity stored hstored
      rw [hrow.unshadowed name column hcolumn hmoved (by simp), Option.none_or]

/-- **Columns are told as they are stored**, of all selection sets that keep their parts apart. -/
def storedColumns (hclear : reading.database.Clear)
    (hfaithful : reading.database.Faithful reading.selects) : reading.Telling where
  tells := TellsStored
  admits := fun entity foundBy selected => selected.Apart entity foundBy
  apart := id
  shown := by
    intro entity foundBy selected stored fetched nodes
      hentity hapart hstored hkeys hshows name hname
      column hcolumn _
    have hown := (hclear.built entity hentity).toOwnNames
    have hnames : name ∈ Named.names entity.columns := Named.mem_names_of_find? hcolumn
    have hvirtual : entity.virtual? name = none := Named.find?_eq_none.mpr
      ((hclear.clear entity hentity).column_not_virtual name hnames)
    have hfree : name ∉ selected.relationKeys entity := fun hkey =>
      hapart.not_column name hkey hnames
    have hread : name ∈ Normalized.readNames entity name := by simp [Normalized.readNames, hvirtual]
    unfold normalizeRow columnValue
    rw [Normalized.find?_computeVirtuals_other hown hvirtual,
      Normalized.find?_normalizeNodes_other (hkeys ▸ hfree),
      hshows name hname (hfaithful.names entity hentity name hnames) name hread hfree,
      find?_seen_column hclear hfaithful hentity hstored hcolumn]

end Reading

/-! ### Answers -/

namespace Engine

variable {engine : Engine} {database : Database}

/-- **The value of a stored column is the one that the row of its table stores**, wherever in an
answer it stands and whether or not select optimization is on.  The answer is told of the rows that
the root field selects and, under its relations, of the rows that go with these. -/
theorem plain_stored (hover : engine.Over database) (hloads : engine.LoadsSelected)
    (hfaithful : database.Faithful engine.settings.query.selectOptimization)
    {payload : Json} {request : AcceptedRequest}
    (haccepted : AcceptedRequest.ofJson payload = .ok request) {selection : RootSelection}
    (hselection : selection ∈ request.fields) {root : BoundRootField}
    (hroot : engine.rootField? selection.name = some root)
    (hcustom : (database.registry.entity root.entity).customFetch? root.cardinality = none)
    (hapart : (selection.children ()).Apart (database.registry.entity root.entity) none)
    (hbelow : (selection.children ()).Below database.registry
      (fun entity foundBy selected => selected.Apart entity foundBy)
      (database.registry.entity root.entity))
    {context : RequestContext} {value : Json}
    (hvalue : engine.plain ⟨selection, request.bindings, payload, context⟩ = .ok value) :
    let input : ResolveInput := ⟨selection, request.bindings, payload, context⟩
    let entity := database.registry.entity root.entity
    ∃ filters projection rows members,
      Plan.argumentModifier (engine.planContext input) entity selection.arguments = .ok filters
      ∧ Plan.projectionModifier (engine.planContext input) entity (selection.children ())
          = .ok projection
      ∧ (database.select (engine.rowQuery root input filters projection)).result = .ok rows
      ∧ (engine.reading database root input filters projection).Tells TellsStored entity rows
          (selection.children ()) members
      ∧ value = relationValue root.cardinality.kind
          (rows.map fun row => Named.ofList (members row)) := by
  intro input entity
  have hregistry := hover.registry
  have hnamed := (AcceptedRequest.ofJson_wellNamed haccepted selection hselection).2.2
  obtain ⟨query, relations, answered, hplan, hrows, hshaped⟩ :=
    (plain_ok hroot (hregistry ▸ hcustom)).mp hvalue
  obtain ⟨load, filters, projection, rfl, hplanned⟩ := plan_ok.mp hplan
  let telling : (engine.reading database root input filters projection).Telling :=
    Reading.storedColumns hover.clear hfaithful
  have hadmits : telling.admits (engine.registry.entity root.entity) none (selection.children ()) :=
    hregistry ▸ hapart
  have hadmitsBelow : (selection.children ()).Below engine.registry telling.admits
      (engine.registry.entity root.entity) := hregistry ▸ hbelow
  obtain ⟨rows, members, hselected, htells, htold⟩ := hplanned.told hover hroot hnamed
    (fun _ => hloads.rowQuery_eager hroot hplanned.arguments hplanned.projected) hadmits
    hadmitsBelow hrows
  have harguments := hplanned.arguments
  have hprojected := hplanned.projected
  rw [hregistry] at harguments hprojected htells
  exact ⟨filters, projection, rows, members, harguments, hprojected, hselected, htells,
    Except.ok.inj (hshaped.symm.trans htold)⟩

end Engine

/-! ### Authors and their posts -/

namespace Blog

theorem tables_unshadowed : ∀ entity ∈ tables.registry.entities,
    ∀ row ∈ tables.table entity.table, Unshadowed entity [] row := by
  have hshadows : ∀ entity ∈ tables.registry.entities, ∀ row ∈ tables.table entity.table,
      ∀ entry ∈ entity.columns, entry.2.storageName ≠ entry.1 → entry.1 ∉ Named.names row := by
    decide +kernel
  intro entity hentity row hrow
  refine ⟨tables_clear.rows entity hentity row hrow, ?_⟩
  intro name column hcolumn hmoved _
  exact Named.find?_eq_none.mpr
    (hshadows entity hentity row hrow _ (Named.mem_of_find? hcolumn) hmoved)

theorem tables_storedApart : ∀ entity ∈ tables.registry.entities, entity.StoredApart := by
  have hstored : ∀ entity ∈ tables.registry.entities,
      (entity.columns.map fun entry => entry.2.storageName).Nodup := by decide +kernel
  exact hstored

theorem tables_faithful (selects : Bool) : tables.Faithful selects where
  stored := tables_storedApart
  names := by decide +kernel
  rows := fun _ => tables_unshadowed

/-- Asks for the addresses of authors, and for their posts. -/
def payload : Json := .obj [("query", .str
  "\x7b authors \x7b email posts \x7b title authorId \x7d \x7d \x7d")]

/-- The posts of an author, each with a column under another name than in storage. -/
def postFields : Selected :=
  .field "title" none [] (fun _ => .none) (.field "authorId" none [] (fun _ => .none) .none)

def authorFields : Selected :=
  .field "email" none [] (fun _ => .none) (.field "posts" none [] (fun _ => postFields) .none)

def authorField : WrittenField :=
  ⟨"authors", none, [], [],
    [.leaf "email", .field "posts" none [] [] [.leaf "title", .leaf "authorId"]]⟩

def authorSelection : RootSelection := ⟨authorField, fun _ => authorFields⟩

def authorsRoot : BoundRootField := ⟨"authors", 0, .list, none⟩

theorem accepted : AcceptedRequest.ofJson payload = .ok ⟨[], [authorSelection]⟩ :=
  (AcceptedRequest.ofJson_query _).trans rfl

theorem authorFields_apart : authorFields.Apart (tables.registry.entity 0) none where
  not_column := by decide +kernel
  not_stored := by decide +kernel
  not_virtual := by decide +kernel
  not_joined := by decide +kernel
  not_found := by simp

theorem postFields_apart : postFields.Apart (tables.registry.entity 1) (some "author_id") where
  not_column := by decide +kernel
  not_stored := by decide +kernel
  not_virtual := by decide +kernel
  not_joined := by decide +kernel
  not_found := by decide +kernel

/-- Only posts are selected below authors. -/
theorem authorFields_below {admits : Entity → Option String → Selected → Prop}
    (h : admits (tables.registry.entity 1) (some "author_id") postFields) :
    authorFields.Below tables.registry admits (tables.registry.entity 0) := by
  have hemail : (tables.registry.entity 0).relation? "email" = none := rfl
  have hposts : (tables.registry.entity 0).relation? "posts"
      = some ⟨"posts", .many, 1, join "id" "author_id"⟩ := rfl
  have htitle : (tables.registry.entity 1).relation? "title" = none := rfl
  have hauthorId : (tables.registry.entity 1).relation? "authorId" = none := rfl
  refine ⟨?_, ?_, trivial⟩
  · intro relation hrelation
    rw [hemail] at hrelation
    cases hrelation
  · intro relation hrelation
    rw [hposts] at hrelation
    cases hrelation
    refine ⟨h, ?_, ?_, trivial⟩
    · intro relation hrelation
      rw [show Entity.relation? _ "title" = none from htitle] at hrelation
      cases hrelation
    · intro relation hrelation
      rw [show Entity.relation? _ "authorId" = none from hauthorId] at hrelation
      cases hrelation

/-- A post as it is answered. -/
def postAnswer (title : String) (authorId : Int) : Json :=
  .obj [("title", .str title), ("authorId", number authorId)]

def authorsAnswer : Json := .arr [
  .obj [("email", .str "ada@example.com"),
    ("posts", .arr [postAnswer "Notes on the Analytical Engine" 1,
      postAnswer "Sketch of the engine" 1])],
  .obj [("email", .str "grace@example.com"),
    ("posts", .arr [postAnswer "The first compiler" 2])],
  .obj [("email", .null), ("posts", .arr [postAnswer "Computable numbers" 3])]]

end Blog

namespace Engine

/-- Addresses of authors and authors of posts stand under other names in their tables. -/
theorem plain_stored_blog :
    let input : ResolveInput := ⟨Blog.authorSelection, [], Blog.payload, .empty⟩
    ∃ value, (Blog.answering {}).plain input = .ok value ∧ value.same Blog.authorsAnswer = true
      ∧ ∃ filters projection rows members,
        (Blog.tables.select ((Blog.answering {}).rowQuery Blog.authorsRoot input filters
            projection)).result = .ok rows
        ∧ ((Blog.answering {}).reading Blog.tables Blog.authorsRoot input filters projection).Tells
            TellsStored (Blog.tables.registry.entity 0) rows Blog.authorFields members
        ∧ value = relationValue .many (rows.map fun row => Named.ofList (members row)) := by
  intro input
  have hanswered : ((Blog.answering {}).plain input).toOption.any
      (fun value => value.same Blog.authorsAnswer) = true := by decide +kernel
  obtain ⟨value, hvalue, hsame⟩ := Outcome.ok_of_any hanswered
  obtain ⟨filters, projection, rows, members, -, -, hrows, htells, htold⟩ := plain_stored
    (Blog.answering_over rfl) (Blog.answering_loadsSelected {}) (Blog.tables_faithful _)
    Blog.accepted (List.mem_singleton_self _) (show _ = some Blog.authorsRoot from rfl) rfl
    Blog.authorFields_apart (Blog.authorFields_below Blog.postFields_apart) hvalue
  exact ⟨value, hvalue, hsame, filters, projection, rows, members, hrows, htells, htold⟩

end Engine

/-! ### Columns that swap their names -/

namespace Pairs

def pair : Registration :=
  let start : Registration := { name := "Pair", table := "pairs" }
  start
    |>.columnAs "a" "b"
    |>.columnAs "b" "a"

def row : Row := [("a", Blog.number 1), ("b", Blog.number 2)]

def database : Database :=
  ⟨((Registry.build [pair]).toOption).getD default, [("pairs", [row])]⟩

def pairsRoot : BoundRootField := ⟨"pairs", 0, .list, none⟩

def answering (selects : Bool) : Engine where
  registry := database.registry
  settings := { query := { selectOptimization := selects } }
  executor := database.execute
  rootFields := [("pairs", pairsRoot)]
  hook := fun _ => []
  hasCache := false

def payload : Json := .obj [("query", .str "\x7b pairs \x7b a b \x7d \x7d")]

def fields : Selected :=
  .field "a" none [] (fun _ => .none) (.field "b" none [] (fun _ => .none) .none)

def selection : RootSelection :=
  ⟨⟨"pairs", none, [], [], [.leaf "a", .leaf "b"]⟩, fun _ => fields⟩

theorem accepted : AcceptedRequest.ofJson payload = .ok ⟨[], [selection]⟩ :=
  (AcceptedRequest.ofJson_query _).trans rfl

end Pairs

/-- **Columns that swap their names are not answered as they are stored**: of a pair that stores two
under the name of the first column and one under that of the second, the first is answered with
null in any case, and the second with two if columns are selected. -/
theorem Engine.plain_swapped :
    AcceptedRequest.ofJson Pairs.payload = .ok ⟨[], [Pairs.selection]⟩
      ∧ (Pairs.database.registry.entity 0).columns
        = [("a", ⟨"a", "b", false⟩), ("b", ⟨"b", "a", false⟩)]
      ∧ columnValue Pairs.row "b" = Blog.number 2 ∧ columnValue Pairs.row "a" = Blog.number 1
      ∧ (Pairs.answering true).plain ⟨Pairs.selection, [], Pairs.payload, .empty⟩
          = .ok (.arr [.obj [("a", .null), ("b", Blog.number 2)]])
      ∧ (Pairs.answering false).plain ⟨Pairs.selection, [], Pairs.payload, .empty⟩
          = .ok (.arr [.obj [("a", .null), ("b", Blog.number 1)]]) :=
  ⟨Pairs.accepted, rfl, rfl, rfl, rfl, rfl⟩

end GraphFetch
