/-
Answers that are told in every detail.

If attributes are computed from the columns that they say, and nothing that a set attaches
is read by its plain fields, then each plain field has one value that a stored row tells:
the one it has if it is the only field.  With that the whole answer of a selection is told,
and it is one answer.
-/
import GraphFetch.Proofs.Engine.RootFields

namespace GraphFetch

open Normalized (computeVirtuals renameColumns normalizeRow readNames)

namespace Reading

variable {reading : Reading}

/-- A plain field is told as if it were the only one. -/
def TellsExactly (reading : Reading) (entity : Entity) (stored : Row) (name : String)
    (value : Json) : Prop :=
  value = reading.plainValue entity name stored

/-- Whether the parts of a selection set keep apart and are read for what they are. -/
def Clean (entity : Entity) (foundBy : Option String) (selected : Selected) : Prop :=
  selected.Apart entity foundBy ∧ selected.Legible entity

/-- Nothing that a plain field reads is attached by a relation of its set. -/
theorem readNames_free {entity : Entity} (hcomputable : entity.Computable)
    {foundBy : Option String} {selected : Selected} (hclean : Clean entity foundBy selected)
    {name : String} (hname : name ∈ selected.plainNames entity) :
    ∀ read ∈ readNames entity name, read ∉ selected.relationKeys entity := by
  intro read hread hkey
  unfold readNames at hread
  cases hvirtual : entity.virtual? name with
  | none =>
      rw [hvirtual] at hread
      exact hclean.2.not_plain read hkey (List.mem_singleton.mp hread ▸ hname)
  | some virtual =>
      rw [hvirtual] at hread
      exact hclean.1.not_column read hkey
        (hcomputable.dependencies_columns _ (Named.mem_of_find? hvirtual) _ hread)

/-- **Every plain field is told as if it were the only one**, of clean selection sets. -/
def exactly (hclear : reading.database.Clear)
    (hcomputable : ∀ entity ∈ reading.database.registry.entities, entity.Computable) :
    reading.Telling where
  tells := reading.TellsExactly
  admits := Clean
  apart := And.left
  shown := by
    intro entity foundBy selected stored fetched nodes hentity hclean _ hkeys hshows name hname
    have hown := (hclear.built entity hentity).toOwnNames
    have hcomputes := hcomputable entity hentity
    have hfree := readNames_free hcomputes hclean hname
    unfold TellsExactly plainValue normalizeRow
    dsimp only
    rw [Normalized.find?_computeVirtuals_congr hown (hclear.clear entity hentity) hcomputes]
    intro read hread
    rw [Normalized.find?_normalizeNodes_other (hkeys ▸ hfree read hread)]
    exact hshows name hname (hclean.2.no_introspection name hname) read hread (hfree read hread)

/-- **What is told exactly is one thing**, of every row. -/
theorem Tells.unique {entity : Entity} {rows : List Row} {selected : Selected}
    {members others : Row → List (String × Json)}
    (h : reading.Tells reading.TellsExactly entity rows selected members)
    (h' : reading.Tells reading.TellsExactly entity rows selected others) :
    ∀ row ∈ rows, members row = others row := by
  induction h generalizing others with
  | none =>
      cases h'
      exact fun _ _ => rfl
  | plain hname hvalue _ ih =>
      cases h' with
      | plain _ hvalue' hrest' =>
          intro row hrow
          dsimp only
          rw [ih hrest' row hrow]
          congr 2
          unfold typed
          split
          · rfl
          · rename_i htype
            exact (hvalue htype row hrow).trans (hvalue' htype row hrow).symm
      | relation hname' =>
          rw [hname] at hname'
          cases hname'
  | @relation entity rows found name asName arguments children rest below members relation hname
      hfound _ _ ihBelow ihRest =>
      cases h' with
      | plain hname' =>
          rw [hname] at hname'
          cases hname'
      | relation hname' hfound' hbelow' hrest' =>
          obtain rfl := Option.some.inj (hname.symm.trans hname')
          obtain rfl := Option.some.inj (hfound.symm.trans hfound')
          intro row hrow
          have hpartners : ((reading.partners relation rows found row).map fun partner =>
              Named.ofList (below partner))
              = (reading.partners relation rows found row).map fun partner => Named.ofList _ :=
            List.map_congr_left fun partner hpartner =>
              congrArg Named.ofList (ihBelow hbelow' partner (List.mem_filter.mp hpartner).1)
          dsimp only
          rw [ihRest hrest' row hrow, hpartners]

end Reading

/-! ### Root fields -/

/-- Whether the parts of a selection set and of all those below it keep apart and are read for what
they are. -/
structure Selected.Clean (registry : Registry) (entity : Entity) (selected : Selected) : Prop where
  own : Reading.Clean entity Option.none selected
  below : selected.Below registry Reading.Clean entity

namespace Engine

/-- Whether nothing is attached to the rows of a root field whose selection asks for no relation. -/
def AttachesSelected (engine : Engine) (root : BoundRootField) (input : ResolveInput) : Prop :=
  ∀ filters projection,
    Plan.argumentModifier (engine.planContext input) (engine.registry.entity root.entity)
      input.selection.arguments = .ok filters →
    Plan.projectionModifier (engine.planContext input) (engine.registry.entity root.entity)
      (input.selection.children ()) = .ok projection →
    (input.selection.children ()).relationKeys (engine.registry.entity root.entity) = [] →
      (engine.rowQuery root input filters projection).eager = none

variable {engine : Engine} {database : Database} {root : BoundRootField} {input : ResolveInput}

theorem LoadsSelected.attachesSelected (h : engine.LoadsSelected)
    (hroot : engine.rootField? input.selection.name = some root) :
    engine.AttachesSelected root input :=
  fun _ _ hfilters hprojection _ => h.rowQuery_eager hroot hfilters hprojection

/-- Then the load of a query is the one that was compiled, or there is none. -/
theorem Planned.ownLoad (hprefixes : Settings.checkPrefixes engine.settings.query.filterPrefixes
      = .ok ()) {load : EagerLoad} {filters projection : Option Edit} {query : Query}
    (hplanned : engine.Planned root input load filters projection query)
    (hattaches : engine.AttachesSelected root input) (hempty : load.relations = []) :
    (engine.rowQuery root input filters projection).eager = none := by
  obtain ⟨-, -, hmirrors⟩ := Plan.compile_references hprefixes hplanned.compiled
  refine hattaches filters projection hplanned.arguments hplanned.projected ?_
  rw [← hmirrors.keys, hempty]
  rfl

/-- **What a root field with clean selections is answered**: it is answered exactly if its selection
can be compiled, its rows can be selected and everything below can be fetched for them, and the
answer is what is told of them. -/
theorem plain_exactly (input : ResolveInput) (hover : engine.Over database)
    (hcomputable : ∀ entity ∈ database.registry.entities, entity.Computable)
    (hroot : engine.rootField? input.selection.name = some root)
    (hattaches : engine.AttachesSelected root input)
    (hcustom : (engine.registry.entity root.entity).customFetch? root.cardinality = none)
    (hnamed : (input.selection.children ()).WellNamed)
    (hclean : (input.selection.children ()).Clean engine.registry
      (engine.registry.entity root.entity)) {value : Json} :
    engine.plain input = .ok value
      ↔ (input.selection.children ()).Compilable engine.registry input.bindings
          (engine.registry.entity root.entity)
        ∧ ∃ filters projection rows members,
          Plan.argumentModifier (engine.planContext input) (engine.registry.entity root.entity)
              input.selection.arguments = .ok filters
          ∧ Plan.projectionModifier (engine.planContext input) (engine.registry.entity root.entity)
              (input.selection.children ()) = .ok projection
          ∧ (database.select (engine.rowQuery root input filters projection)).result = .ok rows
          ∧ (engine.reading database root input filters projection).Tells
              (engine.reading database root input filters projection).TellsExactly
              (engine.registry.entity root.entity) rows (input.selection.children ()) members
          ∧ value = Database.relationValue root.cardinality.kind
              (rows.map fun row => Named.ofList (members row)) := by
  let telling (filters projection : Option Edit) :
      (engine.reading database root input filters projection).Telling :=
    Reading.exactly hover.clear hcomputable
  have hadmits : ∀ filters projection, (telling filters projection).admits
      (engine.registry.entity root.entity) none (input.selection.children ()) :=
    fun _ _ => hclean.own
  have hbelow : ∀ filters projection, (input.selection.children ()).Below engine.registry
      (telling filters projection).admits (engine.registry.entity root.entity) :=
    fun _ _ => hclean.below
  rw [plain_ok hroot hcustom]
  constructor
  · rintro ⟨query, relations, answered, hplan, hrows, hshaped⟩
    obtain ⟨load, filters, projection, rfl, hplanned⟩ := plan_ok.mp hplan
    obtain ⟨rows, members, hselected, htells, htold⟩ := hplanned.told hover hroot hnamed
      (hplanned.ownLoad hover.prefixes hattaches) (hadmits filters projection)
      (hbelow filters projection) hrows
    exact ⟨Plan.compile_ok_iff.mp ⟨load, hplanned.compiled⟩, filters, projection, rows, members,
      hplanned.arguments, hplanned.projected, hselected, htells,
      Except.ok.inj (hshaped.symm.trans htold)⟩
  · rintro ⟨hcompilable, filters, projection, rows, members, hfilters, hprojection, hselected,
      htells, rfl⟩
    obtain ⟨query, load, hplan, hplanned⟩ := planned_exists hcompilable hfilters hprojection
    have hown := hplanned.ownLoad hover.prefixes hattaches
    obtain ⟨answered, hrows⟩ := hplanned.exists_rows hover hroot hnamed hown
      (hadmits filters projection) (hbelow filters projection) hselected htells.loads
    obtain ⟨others, told, hothers, htold, hshaped⟩ := hplanned.told hover hroot hnamed hown
      (hadmits filters projection) (hbelow filters projection) hrows
    obtain rfl : rows = others := Except.ok.inj (hselected.symm.trans hothers)
    have hsame : (rows.map fun row => Named.ofList (told row))
        = rows.map fun row => Named.ofList (members row) :=
      List.map_congr_left fun row hrow => congrArg Named.ofList (htold.unique htells row hrow)
    rw [hsame] at hshaped
    exact ⟨query, load.relations, answered, hplan, hrows, hshaped⟩

end Engine

end GraphFetch
