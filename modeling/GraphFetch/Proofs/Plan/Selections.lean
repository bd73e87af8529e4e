/-
Selections that can be compiled, and those whose parts keep apart.

Whether a selection can be compiled is a matter of its fields alone: its fragments must
be there, its arguments must resolve, and no two relations of one set may share a key.
The settings have no part in it.

What a relation attaches stands in the row of its owner, where it may be taken for a
column.  The parts of a selection set keep apart if no key that something is attached
under is read for something else on the same row.
-/
import GraphFetch.Proofs.Document.Expansion
import GraphFetch.Proofs.Plan.Columns
import GraphFetch.Proofs.Plan.References

namespace GraphFetch

/-! ### Parts of a selection set -/

namespace Selected

/-- The keys of the relations among selected fields. -/
def relationKeys (entity : Entity) : Selected → List String
  | .none => []
  | .missing _ rest => relationKeys entity rest
  | .field name asName _ _ rest =>
    if (entity.relation? name).isSome then responseKey name asName :: relationKeys entity rest
    else relationKeys entity rest

/-- The columns that the relations among selected fields join their owner by. -/
def ownerColumns (entity : Entity) : Selected → List String
  | .none => []
  | .missing _ rest => ownerColumns entity rest
  | .field name _ _ _ rest =>
    match entity.relation? name with
    | .some relation => relation.join.ownerColumn :: ownerColumns entity rest
    | .none => ownerColumns entity rest

/-- Whether nothing that the relations of a selection set attach can be taken for a column, for an
attribute or for a key that a join reads.  The rows of the set may have been found by a column
themselves. -/
structure Apart (entity : Entity) (foundBy : Option String) (selected : Selected) : Prop where
  not_column : ∀ key ∈ selected.relationKeys entity, key ∉ Named.names entity.columns
  not_stored : ∀ key ∈ selected.relationKeys entity,
    key ∉ entity.columns.map fun entry => entry.2.storageName
  not_virtual : ∀ key ∈ selected.relationKeys entity, key ∉ Named.names entity.virtuals
  not_joined : ∀ key ∈ selected.relationKeys entity, key ∉ selected.ownerColumns entity
  not_found : ∀ key ∈ selected.relationKeys entity, foundBy ≠ some key

/-- Whether nothing that the relations of a selection set attach is read by its other fields, none
of which are about the schema. -/
structure Legible (entity : Entity) (selected : Selected) : Prop where
  not_plain : ∀ key ∈ selected.relationKeys entity, key ∉ selected.plainNames entity
  no_introspection : ∀ name ∈ selected.plainNames entity, Plan.isIntrospection name = false

/-- Whether a condition holds for every selection set below one, with the column by which its rows
are found. -/
def Below (registry : Registry) (admits : Entity → Option String → Selected → Prop) :
    Entity → Selected → Prop
  | _, .none => True
  | entity, .missing _ rest => Below registry admits entity rest
  | entity, .field name _ _ children rest =>
    (∀ relation, entity.relation? name = some relation →
      admits (registry.entity relation.target) (some relation.join.relatedColumn) (children ())
        ∧ Below registry admits (registry.entity relation.target) (children ()))
      ∧ Below registry admits entity rest

/-- Whether a selection can be compiled. -/
def Compilable (registry : Registry) (bindings : Variables) : Entity → Selected → Prop
  | _, .none => True
  | _, .missing _ _ => False
  | entity, .field name asName arguments children rest =>
    (∀ relation, entity.relation? name = some relation →
      responseKey name asName ∉ rest.relationKeys entity
        ∧ (∃ filters, Plan.argumentModifier ⟨registry, bindings, {}⟩
            (registry.entity relation.target) arguments = .ok filters)
        ∧ Compilable registry bindings (registry.entity relation.target) (children ()))
      ∧ Compilable registry bindings entity rest

theorem relationKeys_plain {entity : Entity} {name : String} (h : entity.relation? name = .none)
    (asName : Option String) (arguments : List (String × Literal)) (children : Unit → Selected)
    (rest : Selected) :
    relationKeys entity (.field name asName arguments children rest)
      = relationKeys entity rest := by
  rw [relationKeys, h]
  rfl

theorem relationKeys_relation {entity : Entity} {name : String} {relation : Relation}
    (h : entity.relation? name = some relation) (asName : Option String)
    (arguments : List (String × Literal)) (children : Unit → Selected) (rest : Selected) :
    relationKeys entity (.field name asName arguments children rest)
      = responseKey name asName :: relationKeys entity rest := by
  rw [relationKeys, h]
  rfl

/-- No two relations of a set that can be compiled share a key. -/
theorem Compilable.keys_nodup {registry : Registry} {bindings : Variables} {entity : Entity}
    {selected : Selected} (h : Compilable registry bindings entity selected) :
    (selected.relationKeys entity).Nodup := by
  induction selected with
  | none => exact List.nodup_nil
  | missing fragment rest => exact absurd h (by simp [Compilable])
  | field name asName arguments children rest _ ih =>
      cases hrelation : entity.relation? name with
      | none =>
          rw [relationKeys_plain hrelation]
          exact ih h.2
      | some relation =>
          rw [relationKeys_relation hrelation]
          exact List.nodup_cons.mpr ⟨(h.1 relation hrelation).1, ih h.2⟩

theorem Compilable.whole {registry : Registry} {bindings : Variables} {entity : Entity}
    {selected : Selected} (h : Compilable registry bindings entity selected) : selected.Whole := by
  induction selected with
  | none => trivial
  | missing fragment rest => exact h.elim
  | field name asName arguments children rest _ ih => exact ih h.2

end Selected

/-! ### Compiling -/

namespace Plan

open Selected (relationKeys_plain relationKeys_relation)

variable {context : PlanContext}

theorem collectColumns_ok {entity : Entity} {selected : Selected} (h : selected.Whole)
    (columns : List String) :
    ∃ collected, collectColumns entity columns selected = .ok collected := by
  induction selected generalizing columns with
  | none => exact ⟨columns, rfl⟩
  | missing fragment rest => exact h.elim
  | field name asName arguments children rest _ ih =>
      rw [collectColumns]
      exact ih h _

/-- A selection set has a projection if none of its fragments is missing. -/
theorem projectionModifier_ok {entity : Entity} {selected : Selected} (h : selected.Whole) :
    ∃ projection, projectionModifier context entity selected = .ok projection := by
  unfold projectionModifier
  split
  · obtain ⟨collected, hcollected⟩ := collectColumns_ok h []
    rw [hcollected]
    cases collected with
    | nil => exact ⟨none, rfl⟩
    | cons first rest => exact ⟨some _, rfl⟩
  · exact ⟨none, rfl⟩

theorem nameModifiers_exists {registry : Registry} {bindings : Variables} {target : Entity}
    {arguments : List (String × Literal)} {children : Selected} {filters : Option Edit}
    (hchildren : children.Compilable registry bindings target)
    (hfilters : argumentModifier context target arguments = .ok filters) (naming : Naming) :
    ∃ references named,
      nameModifiers context target arguments children naming = .ok (references, named) := by
  obtain ⟨projection, hprojection⟩ :
      ∃ projection, projectionModifier context target children = .ok projection :=
    projectionModifier_ok hchildren.whole
  exact ⟨_, _, nameModifiers_ok.mpr ⟨projection, filters, hprojection, hfilters, rfl, rfl⟩⟩

/-- A node stands under the key of its selection. -/
theorem relationNode_key (relation : Relation) (key : String) (references : List String)
    (below : List RelationNode) : (relationNode relation key references below).key = key := by
  unfold relationNode RelationNode.key
  by_cases h : key = relation.name
  · simp [h]
  · simp [h]

/-- What compiles can be compiled, and takes no key again. -/
theorem compilable_of_compileFields {selected : Selected} {entity : Entity} {taken : List String}
    {naming : Naming} {out : List RelationNode × Naming}
    (h : compileFields context entity taken selected naming = .ok out) :
    selected.Compilable context.registry context.bindings entity
      ∧ ∀ key ∈ selected.relationKeys entity, key ∉ taken := by
  induction selected generalizing entity taken naming out with
  | none => exact ⟨trivial, fun key hkey => absurd hkey (by simp [Selected.relationKeys])⟩
  | missing fragment rest => exact absurd h (by simp [compileFields])
  | field name asName arguments children rest ihChildren ihRest =>
      cases hrelation : entity.relation? name with
      | none =>
          rw [compileFields_plain hrelation] at h
          obtain ⟨hrest, hkeys⟩ := ihRest h
          rw [relationKeys_plain hrelation]
          refine ⟨⟨?_, hrest⟩, hkeys⟩
          intro other hother
          exact absurd (hrelation.symm.trans hother) (by simp)
      | some relation =>
          obtain ⟨nodes, after⟩ := out
          obtain ⟨htaken, references, named, below, between, others, hown, hbelow, hothers, -⟩ :=
            (compileFields_relation hrelation).mp h
          obtain ⟨_, filters, -, hfilters, -⟩ := nameModifiers_ok.mp hown
          obtain ⟨hrest, hkeys⟩ := ihRest hothers
          obtain ⟨hchildren, -⟩ := ihChildren () hbelow
          rw [relationKeys_relation hrelation]
          refine ⟨⟨?_, hrest⟩, ?_⟩
          · intro other hother
            obtain rfl : relation = other := Option.some.inj (hrelation.symm.trans hother)
            exact ⟨fun hmem => hkeys _ hmem List.mem_cons_self, ⟨filters, hfilters⟩, hchildren⟩
          · intro key hkey
            rcases List.mem_cons.mp hkey with rfl | hkey
            · exact htaken
            · exact fun hmem => hkeys key hkey (List.mem_cons_of_mem _ hmem)

/-- What can be compiled compiles if no key is taken. -/
theorem compileFields_exists {selected : Selected} {entity : Entity} {taken : List String}
    {naming : Naming} (h : selected.Compilable context.registry context.bindings entity)
    (hkeys : ∀ key ∈ selected.relationKeys entity, key ∉ taken) :
    ∃ out, compileFields context entity taken selected naming = .ok out := by
  induction selected generalizing entity taken naming with
  | none => exact ⟨_, rfl⟩
  | missing fragment rest => exact absurd h (by simp [Selected.Compilable])
  | field name asName arguments children rest ihChildren ihRest =>
      obtain ⟨hown, hrest⟩ := h
      cases hrelation : entity.relation? name with
      | none =>
          rw [relationKeys_plain hrelation] at hkeys
          rw [compileFields_plain hrelation]
          exact ihRest hrest hkeys
      | some relation =>
          obtain ⟨hkey, ⟨filters, hfilters⟩, hchildren⟩ := hown relation hrelation
          rw [relationKeys_relation hrelation, List.forall_mem_cons] at hkeys
          have hown : argumentModifier context (context.registry.entity relation.target) arguments
              = .ok filters := hfilters
          obtain ⟨references, named, hnamed⟩ := nameModifiers_exists hchildren hown naming
          obtain ⟨⟨below, between⟩, hbelow⟩ :=
            ihChildren () hchildren fun _ _ => List.not_mem_nil
          have hothers : ∀ other ∈ rest.relationKeys entity,
              other ∉ responseKey name asName :: taken := by
            intro other hother hmem
            rcases List.mem_cons.mp hmem with rfl | hmem
            · exact hkey hother
            · exact hkeys.2 other hother hmem
          obtain ⟨⟨others, after⟩, hothers⟩ := ihRest hrest hothers
          exact ⟨_, (compileFields_relation hrelation).mpr ⟨hkeys.1, references, named, below,
            between, others, hnamed, hbelow, hothers, rfl⟩⟩

/-- **Which selections compile**, whatever the settings. -/
theorem compile_ok_iff {entity : Entity} {selected : Selected} :
    (∃ load, compile context entity selected = .ok load)
      ↔ selected.Compilable context.registry context.bindings entity := by
  constructor
  · rintro ⟨load, h⟩
    obtain ⟨naming, hok, -⟩ := compile_ok.mp h
    exact (compilable_of_compileFields hok).1
  · intro h
    obtain ⟨⟨nodes, naming⟩, hok⟩ := compileFields_exists h (fun _ _ => List.not_mem_nil)
    exact ⟨⟨nodes, naming.modifiers⟩, compile_ok.mpr ⟨naming, hok, rfl⟩⟩

/-- Nodes that mirror a selection have the keys of its relations. -/
theorem Mirrors.keys {modifiers : ModifierTable} {entity : Entity} {selected : Selected}
    {nodes : List RelationNode} (h : Mirrors context modifiers entity selected nodes) :
    nodes.map RelationNode.key = selected.relationKeys entity := by
  induction h with
  | none => rfl
  | plain hname _ ih =>
      rw [relationKeys_plain hname]
      exact ih
  | relation hname _ _ _ _ _ _ ih =>
      rw [relationKeys_relation hname, List.map_cons, ih, relationNode_key]

end Plan

end GraphFetch
