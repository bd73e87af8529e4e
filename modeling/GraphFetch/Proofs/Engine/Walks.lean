/-
Passes that follow the spreads themselves.

Collecting columns, compiling relations and shaping rows are passes over a selection set:
each goes through its fields in order, with something that grows.  A pass can be made on
the selections as they are written, by going into every fragment and every group where it
stands (`Fragments.walk`), or on the fields that these were found to hold
(`Selected.walk`).  What it does with one field is the same.

So each of these passes, made on selections as they are written, does what the running
function does on their fields; the columns below a relation are then collected by a walk
inside the walk that compiles.  The fourth pass, over the root fields, runs on selections
as they are written in any case.
-/
import GraphFetch.Engine.Request
import GraphFetch.Engine.Shaped
import GraphFetch.Proofs.Document.Expansion
import GraphFetch.Proofs.Outcome
import GraphFetch.Proofs.Plan.Selections

namespace GraphFetch

/-! ### Walks -/

/-- A field as a pass sees it, with what is selected below it. -/
structure Occurrence (τ : Type) where
  name : String
  asName : Option String
  arguments : List (String × Literal)
  children : τ

namespace Occurrence

variable {τ υ : Type}

/-- The name under which the field answers. -/
def key (field : Occurrence τ) : String := responseKey field.name field.asName

def map (f : τ → υ) (field : Occurrence τ) : Occurrence υ :=
  ⟨field.name, field.asName, field.arguments, f field.children⟩

end Occurrence

/-- A selection set as it is written, and how many spreads may be followed from there. -/
structure Place where
  depth : Nat
  selections : List Selection

/-- The fields of the selection set. -/
def Place.fields (fragments : Fragments) (place : Place) : Selected :=
  fragments.expandWithin place.depth place.selections

/-- What a pass does with a field: from what has the field and what the pass has so far, and from
the same pass below the field. -/
abbrev Visit (τ κ σ : Type) :=
  κ → Occurrence τ → (κ → σ → Except PlanError σ) → σ → Except PlanError σ

variable {τ κ σ : Type}

/-- Makes a pass on selections as they are written, following chains of at most `depth` spreads. -/
def Fragments.walk (fragments : Fragments) (visit : Visit Place κ σ) :
    Nat → List Selection → κ → σ → Except PlanError σ
  | _, [], _, state => .ok state
  | depth, .field name asName arguments _ children :: rest, owner, state => do
    let below := fun owner state => walk fragments visit depth children owner state
    let state ← visit owner ⟨name, asName, arguments, ⟨depth, children⟩⟩ below state
    walk fragments visit depth rest owner state
  | depth, .group _ _ children :: rest, owner, state => do
    let state ← walk fragments visit depth children owner state
    walk fragments visit depth rest owner state
  | 0, .spread fragment _ :: _, _, _ => .error (.unknownFragment fragment)
  | depth + 1, .spread fragment _ :: rest, owner, state =>
    match Named.find? fragment fragments with
    | none => .error (.unknownFragment fragment)
    | some body => do
      let state ← walk fragments visit depth body owner state
      walk fragments visit (depth + 1) rest owner state
termination_by depth selections => (depth, sizeOf selections)

/-- Makes a pass on fields. -/
def Selected.walk (visit : Visit Selected κ σ) : Selected → κ → σ → Except PlanError σ
  | .none, _, state => .ok state
  | .missing fragment _, _, _ => .error (.unknownFragment fragment)
  | .field name asName arguments children rest, owner, state => do
    let below := fun owner state => walk visit (children ()) owner state
    let state ← visit owner ⟨name, asName, arguments, children ()⟩ below state
    walk visit rest owner state

theorem Selected.walk_append (visit : Visit Selected κ σ) (first second : Selected) (owner : κ)
    (state : σ) : (first.append second).walk visit owner state
      = first.walk visit owner state >>= second.walk visit owner := by
  induction first generalizing state with
  | none => rfl
  | missing fragment rest _ => rfl
  | field name asName arguments children rest _ ih =>
      rw [Selected.append, Selected.walk, Selected.walk, bind_assoc]
      exact congrArg (visit owner _ _ state >>= ·) (funext fun next => ih next)

namespace Fragments

variable {fragments : Fragments} {visit : Visit Place κ σ} {visit' : Visit Selected κ σ}

/-- **A walk over selections as they are written is a walk over their fields**, if the two do the
same with a field. -/
theorem walk_eq
    (h : ∀ owner field below state, visit owner field below state
      = visit' owner (field.map (Place.fields fragments)) below state) :
    ∀ (depth : Nat) (selections : List Selection) (owner : κ) (state : σ),
      fragments.walk visit depth selections owner state
        = (fragments.expandWithin depth selections).walk visit' owner state
  | depth, [], owner, state => by
    rw [walk, expandWithin_nil]
    rfl
  | depth, .field name asName arguments directives children :: rest, owner, state => by
    have hbelow : (fun owner state => fragments.walk visit depth children owner state)
        = fun owner state => (fragments.expandWithin depth children).walk visit' owner state :=
      funext fun owner => funext fun state => walk_eq h depth children owner state
    rw [walk, expandWithin_field, Selected.walk, h, hbelow]
    exact congrArg (_ >>= ·) (funext fun next => walk_eq h depth rest owner next)
  | depth, .group condition directives children :: rest, owner, state => by
    rw [walk, expandWithin_group, Selected.walk_append, walk_eq h depth children owner state]
    exact congrArg (_ >>= ·) (funext fun next => walk_eq h depth rest owner next)
  | 0, .spread fragment directives :: rest, owner, state => by
    rw [walk, expandWithin_spread]
    rfl
  | depth + 1, .spread fragment directives :: rest, owner, state => by
    rw [walk, expandWithin_spread, spreadWithin]
    cases Named.find? fragment fragments with
    | none => rfl
    | some body =>
        dsimp only
        rw [Selected.walk_append, walk_eq h depth body owner state]
        exact congrArg (_ >>= ·) (funext fun next => walk_eq h (depth + 1) rest owner next)
termination_by depth selections => (depth, sizeOf selections)

end Fragments

/-! ### Columns -/

namespace Plan

/-- Adds the columns that a field needs. -/
def columnsVisit : Visit τ Entity (List String) := fun entity field _ columns =>
  .ok ((fieldColumns entity field.name).foldl addColumn columns)

theorem collectColumns_eq_walk (entity : Entity) (columns : List String) (selected : Selected) :
    collectColumns entity columns selected = selected.walk columnsVisit entity columns := by
  induction selected generalizing columns with
  | none => rfl
  | missing fragment rest _ => rfl
  | field name asName arguments children rest _ ih =>
      rw [collectColumns, ih]
      rfl

/-- The modifier that selects the columns needed at a place. -/
def projectionAt (fragments : Fragments) (context : PlanContext) (entity : Entity) (place : Place) :
    Except PlanError (Option Edit) :=
  if context.settings.selectOptimization then do
    let columns ← fragments.walk columnsVisit place.depth place.selections entity []
    if columns.isEmpty then return none
    else return some (.select (columns.map (columnRef entity context.settings.qualifyColumns)))
  else .ok none

theorem projectionAt_eq (fragments : Fragments) (context : PlanContext) (entity : Entity)
    (place : Place) : projectionAt fragments context entity place
      = projectionModifier context entity (place.fields fragments) := by
  have hcolumns : fragments.walk columnsVisit place.depth place.selections entity []
      = collectColumns entity [] (place.fields fragments) := by
    rw [collectColumns_eq_walk]
    refine Fragments.walk_eq ?_ place.depth place.selections entity []
    exact fun _ _ _ _ => rfl
  unfold projectionAt projectionModifier
  rw [hcolumns]

/-! ### Relations -/

/-- Adds the node of a relation that is selected, given how its modifiers are named. -/
def relationsVisit (context : PlanContext)
    (nameAll : Entity → List (String × Literal) → τ → Naming →
      Except PlanError (List String × Naming)) :
    Visit τ Entity (List RelationNode × Naming) := fun entity field below (nodes, naming) =>
  match entity.relation? field.name with
  | none => .ok (nodes, naming)
  | some relation =>
    if nodes.any fun node => node.key == field.key then
      .error (.duplicateRelation entity.name field.key)
    else do
      let target := context.registry.entity relation.target
      let (modifiers, naming) ← nameAll target field.arguments field.children naming
      let (children, naming) ← below target ([], naming)
      return (nodes ++ [relationNode relation field.key modifiers children], naming)

/-- Keys are taken by the nodes that were added: the walk looks for a key among these, the running
function among the keys that it was told. -/
theorem compileFields_eq_walk {context : PlanContext} (selected : Selected) (entity : Entity)
    {taken : List String} {nodes : List RelationNode}
    (htaken : ∀ key, key ∈ taken ↔ key ∈ nodes.map RelationNode.key) (naming : Naming) :
    selected.walk (relationsVisit context (nameModifiers context)) entity (nodes, naming)
      = (compileFields context entity taken selected naming).map
          fun compiled => (nodes ++ compiled.1, compiled.2) := by
  induction selected generalizing entity taken nodes naming with
  | none => simp [Selected.walk, compileFields, Except.map]
  | missing fragment rest _ => rfl
  | field name asName arguments children rest ihChildren ihRest =>
      rw [Selected.walk, compileFields, relationsVisit]
      dsimp only
      cases entity.relation? name with
      | none => exact ihRest entity htaken naming
      | some relation =>
          have hany : (nodes.any fun node => node.key == responseKey name asName)
              = taken.contains (responseKey name asName) := by
            rw [Bool.eq_iff_iff]
            simp [htaken]
          have hbelow : ∀ target named,
              (children ()).walk (relationsVisit context (nameModifiers context)) target ([], named)
                = compileFields context target [] (children ()) named := by
            intro target named
            exact (ihChildren () target (by simp) named).trans (Outcome.map_id _)
          dsimp only
          rw [show (⟨name, asName, arguments, children ()⟩ : Occurrence Selected).key
            = responseKey name asName from rfl, hany]
          cases taken.contains (responseKey name asName) with
          | true => rfl
          | false =>
              simp only [Bool.false_eq_true, if_false, bind_assoc, Outcome.bind_map, hbelow,
                pure_bind]
              refine congrArg (_ >>= ·) (funext fun named => ?_)
              refine congrArg (_ >>= ·) (funext fun below => ?_)
              let node := relationNode relation (responseKey name asName) named.1 below.1
              have htaken' : ∀ key, key ∈ responseKey name asName :: taken
                  ↔ key ∈ (nodes ++ [node]).map RelationNode.key := by
                simp [node, htaken, relationNode_key, or_comm]
              rw [ihRest entity htaken' below.2]
              cases compileFields context entity (responseKey name asName :: taken)
                  rest below.2 with
              | error error => rfl
              | ok others =>
                  simp [Except.map, bind, Except.bind, pure, Except.pure, node]

/-- Names the modifiers of a relation, given the place of its selections. -/
def nameModifiersAt (fragments : Fragments) (context : PlanContext) (target : Entity)
    (arguments : List (String × Literal)) (place : Place) (naming : Naming) :
    Except PlanError (List String × Naming) := do
  let prefixes := context.settings.filterPrefixes
  let projection ← projectionAt fragments context target place
  let filters ← argumentModifier context target arguments
  let (first, naming) := naming.registerSome prefixes.projection projection
  let (second, naming) := naming.registerSome prefixes.argument filters
  return (first ++ second, naming)

theorem nameModifiersAt_eq (fragments : Fragments) (context : PlanContext) (target : Entity)
    (arguments : List (String × Literal)) (place : Place) (naming : Naming) :
    nameModifiersAt fragments context target arguments place naming
      = nameModifiers context target arguments (place.fields fragments) naming := by
  unfold nameModifiersAt nameModifiers
  rw [projectionAt_eq]

/-- The eager load of the relations selected at a place. -/
def compileAt (fragments : Fragments) (context : PlanContext) (entity : Entity) (place : Place) :
    Except PlanError EagerLoad := do
  let visit := relationsVisit context (nameModifiersAt fragments context)
  let (relations, naming) ← fragments.walk visit place.depth place.selections entity ([], .start)
  return ⟨relations, naming.modifiers⟩

theorem compileAt_eq (fragments : Fragments) (context : PlanContext) (entity : Entity)
    (place : Place) : compileAt fragments context entity place
      = compile context entity (place.fields fragments) := by
  have hnone : ∀ key, key ∈ ([] : List String)
      ↔ key ∈ ([] : List RelationNode).map RelationNode.key := by simp
  have hwalk : fragments.walk (relationsVisit context (nameModifiersAt fragments context))
      place.depth place.selections entity ([], .start)
        = compileFields context entity [] (place.fields fragments) .start := by
    refine (Fragments.walk_eq ?_ _ _ _ _).trans
      ((compileFields_eq_walk _ entity hnone .start).trans (Outcome.map_id _))
    intro owner field below state
    unfold relationsVisit
    simp only [nameModifiersAt_eq]
    rfl
  unfold compileAt compile
  dsimp only
  rw [hwalk]

end Plan

/-! ### Shapes -/

namespace Shaped

/-- Adds the answer of a selected field of a row. -/
def shapeVisit (registry : Registry) : Visit τ (Entity × Row) (List (String × Json)) :=
  fun (entity, row) field below output =>
    if field.name = "__typename" then .ok (Named.put field.key (.str entity.name) output)
    else match entity.relation? field.name with
      | some relation =>
        match Named.find? field.key row with
        | some value => do
          let target := registry.entity relation.target
          let value ← shapeRows (fun related => (below (target, related) []).map .obj) value
          return Named.put field.key value output
        | none => .ok (Named.put field.key .null output)
      | none => .ok (Named.put field.key ((Named.find? field.name row).getD .null) output)

theorem shapeFields_eq_walk (registry : Registry) (selected : Selected) (entity : Entity)
    (row : Row) (output : List (String × Json)) :
    shapeFields registry entity row output selected
      = selected.walk (shapeVisit registry) (entity, row) output := by
  induction selected generalizing entity row output with
  | none => rfl
  | missing fragment rest _ => rfl
  | field name asName arguments children rest ihChildren ihRest =>
      have hkey : (⟨name, asName, arguments, children ()⟩ : Occurrence Selected).key
        = responseKey name asName := rfl
      rw [shapeFields, Selected.walk, shapeVisit]
      dsimp only
      rw [hkey]
      split
      · exact ihRest _ _ _
      · cases entity.relation? name with
        | none => exact ihRest _ _ _
        | some relation =>
            dsimp only
            cases Named.find? (responseKey name asName) row with
            | none => exact ihRest _ _ _
            | some value =>
                simp only [ihChildren, ihRest, bind_assoc, pure_bind]

/-- A normalized value in the shape of what is selected at a place. -/
def shapeAt (fragments : Fragments) (registry : Registry) (entity : Entity) (place : Place)
    (value : Json) : Except PlanError Json :=
  shapeRows (fun row => (fragments.walk (shapeVisit registry) place.depth place.selections
    (entity, row) []).map .obj) value

theorem shapeAt_eq (fragments : Fragments) (registry : Registry) (entity : Entity) (place : Place)
    (value : Json) : shapeAt fragments registry entity place value
      = ofValue registry entity (fun _ => place.fields fragments) value := by
  have hwalk : ∀ row,
      fragments.walk (shapeVisit registry) place.depth place.selections (entity, row) []
        = shapeFields registry entity row [] (place.fields fragments) := by
    intro row
    rw [shapeFields_eq_walk]
    refine Fragments.walk_eq ?_ place.depth place.selections (entity, row) []
    exact fun _ _ _ _ => rfl
  unfold shapeAt ofValue ofRow
  simp only [hwalk]

end Shaped

/-! ### The four passes -/

/-- Whether two fields, each with fragments of its own, are named alike and have the same arguments,
and what the other three passes do below the first, following spreads themselves, is what the
running functions do with the fields below the second. -/
structure WrittenField.Matches (fragments others : Fragments) (depth : Nat)
    (field other : WrittenField) : Prop where
  name : field.name = other.name
  asName : field.asName = other.asName
  arguments : field.arguments = other.arguments
  projected : ∀ context entity,
    Plan.projectionAt fragments context entity ⟨depth, field.selections⟩
      = Plan.projectionModifier context entity (others.expand other.selections)
  compiled : ∀ context entity, Plan.compileAt fragments context entity ⟨depth, field.selections⟩
    = Plan.compile context entity (others.expand other.selections)
  shaped : ∀ registry entity value,
    Shaped.shapeAt fragments registry entity ⟨depth, field.selections⟩ value
      = Shaped.ofValue registry entity (fun _ => others.expand other.selections) value

/-- **Each of the passes below a root field can follow the spreads itself**: what it does there is
what is done with the fields that it finds. -/
theorem WrittenField.Matches.of_fields {fragments others : Fragments} {depth : Nat}
    {field other : WrittenField} (hname : field.name = other.name)
    (hasName : field.asName = other.asName) (harguments : field.arguments = other.arguments)
    (hfields : fragments.expandWithin depth field.selections = others.expand other.selections) :
    field.Matches fragments others depth other where
  name := hname
  asName := hasName
  arguments := harguments
  projected context entity := hfields ▸ Plan.projectionAt_eq fragments context entity _
  compiled context entity := hfields ▸ Plan.compileAt_eq fragments context entity _
  shaped registry entity value := hfields ▸ Shaped.shapeAt_eq fragments registry entity _ value

end GraphFetch
