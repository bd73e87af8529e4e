/-
Compiling selected relations into an eager load.

Every selected relation becomes a node that refers to its modifiers by name: one for
the columns its selection needs and one for its arguments.  The names are made from
a prefix and a counter that runs through the whole compilation, and the modifiers of
all levels go into one table.  Two relations of one level never share a key, since
their rows are attached to the owner under it.
-/
import GraphFetch.Plan.Projection

namespace GraphFetch

namespace Plan

/-- The counter of modifier names, and the modifiers named so far. -/
structure Naming where
  nextIndex : Nat
  modifiers : ModifierTable
deriving Inhabited

namespace Naming

def start : Naming := ⟨0, []⟩

/-- Gives a modifier the next name. -/
def register (naming : Naming) (lead : String) (modifier : Edit) : String × Naming :=
  let name := lead ++ toString naming.nextIndex
  (name, ⟨naming.nextIndex + 1, Named.put name modifier naming.modifiers⟩)

/-- Gives a modifier the next name, if there is one. -/
def registerSome (naming : Naming) (lead : String) : Option Edit → List String × Naming
  | none => ([], naming)
  | some modifier =>
    let (name, naming) := naming.register lead modifier
    ([name], naming)

end Naming

/-- Names the modifiers of one relation: its projection, then its arguments. -/
def nameModifiers (context : PlanContext) (target : Entity) (arguments : List (String × Literal))
    (children : Selected) (naming : Naming) : Except PlanError (List String × Naming) := do
  let prefixes := context.settings.filterPrefixes
  let projection ← projectionModifier context target children
  let filters ← argumentModifier context target arguments
  let (first, naming) := naming.registerSome prefixes.projection projection
  let (second, naming) := naming.registerSome prefixes.argument filters
  return (first ++ second, naming)

/-- The node of a relation that is selected under a key. -/
def relationNode (relation : Relation) (key : String) (modifiers : List String)
    (children : List RelationNode) : RelationNode where
  name := relation.name
  asName := if key = relation.name then none else some key
  modifiers
  children

/-- The nodes of the relations among selected fields of an entity; `taken` holds the keys of the
relations selected before them. -/
def compileFields (context : PlanContext) (entity : Entity) (taken : List String) :
    Selected → Naming → Except PlanError (List RelationNode × Naming)
  | .none, naming => .ok ([], naming)
  | .missing fragment _, _ => .error (.unknownFragment fragment)
  | .field name asName arguments children rest, naming =>
    match entity.relation? name with
    | none => compileFields context entity taken rest naming
    | some relation =>
      let key := responseKey name asName
      if taken.contains key then .error (.duplicateRelation entity.name key)
      else do
        let target := context.registry.entity relation.target
        let (modifiers, naming) ← nameModifiers context target arguments (children ()) naming
        let (below, naming) ← compileFields context target [] (children ()) naming
        let (nodes, naming) ← compileFields context entity (key :: taken) rest naming
        return (relationNode relation key modifiers below :: nodes, naming)

/-- The eager load of the relations among selected fields. -/
def compile (context : PlanContext) (entity : Entity) (selected : Selected) :
    Except PlanError EagerLoad := do
  let (relations, naming) ← compileFields context entity [] selected .start
  return ⟨relations, naming.modifiers⟩

end Plan

end GraphFetch
