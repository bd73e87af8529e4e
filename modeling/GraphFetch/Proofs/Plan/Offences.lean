/-
Why selections fail.

A selection that cannot be compiled has a place that is to blame, at whatever depth: a spread
of a fragment that is not there, a relation with an argument that does not resolve, or a
relation under a key that a later one of the same set has too.  Such places are what every
pass over a selection reports, and a selection with one is not compiled.  So a pass over a
selection that was compiled finds nothing to report.
-/
import GraphFetch.Engine.Shaped
import GraphFetch.Proofs.Plan.Selections

namespace GraphFetch

/-- Whether an error is about some place in a selection set or below it. -/
inductive Selected.Offends (registry : Registry) (bindings : Variables) :
    Entity → Selected → PlanError → Prop
  | missing {entity : Entity} (fragment : String) (rest : Selected) :
      Offends registry bindings entity (.missing fragment rest) (.unknownFragment fragment)
  | literal {entity : Entity} {name : String} {asName : Option String}
      {arguments : List (String × Literal)} {children : Unit → Selected} {rest : Selected}
      {relation : Relation} {error : PlanError} (hrelation : entity.relation? name = some relation)
      (harguments : Plan.argumentModifier ⟨registry, bindings, {}⟩
        (registry.entity relation.target) arguments = .error error) :
      Offends registry bindings entity (.field name asName arguments children rest) error
  | duplicate {entity : Entity} {name : String} {asName : Option String}
      {arguments : List (String × Literal)} {children : Unit → Selected} {rest : Selected}
      {relation : Relation} (hrelation : entity.relation? name = some relation)
      (hkey : responseKey name asName ∈ rest.relationKeys entity) :
      Offends registry bindings entity (.field name asName arguments children rest)
        (.duplicateRelation entity.name (responseKey name asName))
  | nested {entity : Entity} {name : String} {asName : Option String}
      {arguments : List (String × Literal)} {children : Unit → Selected} {rest : Selected}
      {relation : Relation} {error : PlanError} (hrelation : entity.relation? name = some relation)
      (hnested : Offends registry bindings (registry.entity relation.target) (children ()) error) :
      Offends registry bindings entity (.field name asName arguments children rest) error
  | later {entity : Entity} {name : String} {asName : Option String}
      {arguments : List (String × Literal)} {children : Unit → Selected} {rest : Selected}
      {error : PlanError} (hlater : Offends registry bindings entity rest error) :
      Offends registry bindings entity (.field name asName arguments children rest) error

namespace Selected

variable {registry : Registry} {bindings : Variables} {entity : Entity} {selected : Selected}
  {error : PlanError}

/-- A selection with a place that is to blame cannot be compiled. -/
theorem Offends.not_compilable (h : selected.Offends registry bindings entity error) :
    ¬ selected.Compilable registry bindings entity := by
  induction h with
  | missing fragment rest => exact id
  | literal hrelation harguments =>
      rintro ⟨hown, -⟩
      obtain ⟨-, ⟨filters, hfilters⟩, -⟩ := hown _ hrelation
      exact nomatch harguments.symm.trans hfilters
  | duplicate hrelation hkey => exact fun h => (h.1 _ hrelation).1 hkey
  | nested hrelation _ ih => exact fun h => ih (h.1 _ hrelation).2.2
  | later _ ih => exact fun h => ih h.2

end Selected

/-! ### Compiling -/

namespace Plan

variable {context : PlanContext}

theorem collectColumns_error {entity : Entity} {columns : List String} {selected : Selected}
    {error : PlanError} (h : collectColumns entity columns selected = .error error)
    (registry : Registry) (bindings : Variables) :
    selected.Offends registry bindings entity error := by
  induction selected generalizing columns with
  | none => exact nomatch h
  | missing fragment rest =>
      cases h
      exact .missing fragment rest
  | field name asName arguments children rest _ ih =>
      rw [collectColumns] at h
      exact .later (ih h)

theorem projectionModifier_error {entity : Entity} {selected : Selected} {error : PlanError}
    (h : projectionModifier context entity selected = .error error) (registry : Registry)
    (bindings : Variables) : selected.Offends registry bindings entity error := by
  unfold projectionModifier at h
  split at h
  · rcases Outcome.bind_error.mp h with h | ⟨columns, -, h⟩
    · exact collectColumns_error h registry bindings
    · split at h
      · cases h
      · cases h
  · cases h

theorem nameModifiers_error {target : Entity} {arguments : List (String × Literal)}
    {children : Selected} {naming : Naming} {error : PlanError}
    (h : nameModifiers context target arguments children naming = .error error) :
    children.Offends context.registry context.bindings target error
      ∨ argumentModifier context target arguments = .error error := by
  unfold nameModifiers at h
  rcases Outcome.bind_error.mp h with h | ⟨projection, -, h⟩
  · exact Or.inl (projectionModifier_error h _ _)
  · rcases Outcome.bind_error.mp h with h | ⟨filters, -, h⟩
    · exact Or.inr h
    · cases h

/-- What compiling reports of a relation is about its key, its arguments, what is selected below
it, or the fields that come later. -/
theorem compileFields_relation_error {entity : Entity} {name : String} {relation : Relation}
    (hrelation : entity.relation? name = some relation) {taken : List String}
    {asName : Option String} {arguments : List (String × Literal)} {children : Unit → Selected}
    {rest : Selected} {naming : Naming} {error : PlanError}
    (h : compileFields context entity taken (.field name asName arguments children rest) naming
      = .error error) :
    (responseKey name asName ∈ taken
        ∧ error = .duplicateRelation entity.name (responseKey name asName))
      ∨ (∃ naming, nameModifiers context (context.registry.entity relation.target) arguments
          (children ()) naming = .error error)
      ∨ (∃ naming, compileFields context (context.registry.entity relation.target) [] (children ())
          naming = .error error)
      ∨ ∃ naming, compileFields context entity (responseKey name asName :: taken) rest naming
          = .error error := by
  rw [compileFields, hrelation] at h
  dsimp only at h
  split at h
  · rename_i htaken
    cases h
    exact Or.inl ⟨List.contains_iff_mem.mp htaken, rfl⟩
  · rcases Outcome.bind_error.mp h with h | ⟨⟨references, named⟩, -, h⟩
    · exact Or.inr (Or.inl ⟨_, h⟩)
    · rcases Outcome.bind_error.mp h with h | ⟨⟨below, between⟩, -, h⟩
      · exact Or.inr (Or.inr (Or.inl ⟨_, h⟩))
      · rcases Outcome.bind_error.mp h with h | ⟨⟨others, after⟩, -, h⟩
        · exact Or.inr (Or.inr (Or.inr ⟨_, h⟩))
        · cases h

/-- **What compiling reports is about some place of the selection**, or about a key that was taken
before. -/
theorem compileFields_error {selected : Selected} {entity : Entity} {taken : List String}
    {naming : Naming} {error : PlanError}
    (h : compileFields context entity taken selected naming = .error error) :
    selected.Offends context.registry context.bindings entity error
      ∨ ∃ key ∈ selected.relationKeys entity, key ∈ taken
          ∧ error = .duplicateRelation entity.name key := by
  induction selected generalizing entity taken naming with
  | none => exact nomatch h
  | missing fragment rest =>
      cases h
      exact Or.inl (.missing fragment rest)
  | field name asName arguments children rest ihChildren ihRest =>
      cases hrelation : entity.relation? name with
      | none =>
          rw [compileFields_plain hrelation] at h
          rw [Selected.relationKeys_plain hrelation]
          exact (ihRest h).imp_left .later
      | some relation =>
          rw [Selected.relationKeys_relation hrelation]
          rcases compileFields_relation_error hrelation h with
            ⟨htaken, rfl⟩ | ⟨naming, hown⟩ | ⟨naming, hbelow⟩ | ⟨naming, hrest⟩
          · exact Or.inr ⟨_, List.mem_cons_self, htaken, rfl⟩
          · rcases nameModifiers_error hown with hchildren | harguments
            · exact Or.inl (.nested hrelation hchildren)
            · exact Or.inl (.literal hrelation harguments)
          · rcases ihChildren () hbelow with hchildren | ⟨key, -, hkey, -⟩
            · exact Or.inl (.nested hrelation hchildren)
            · exact absurd hkey (by simp)
          · rcases ihRest hrest with hlater | ⟨key, hmem, hkey, rfl⟩
            · exact Or.inl (.later hlater)
            · rcases List.mem_cons.mp hkey with rfl | htaken
              · exact Or.inl (.duplicate hrelation hmem)
              · exact Or.inr ⟨key, List.mem_cons_of_mem _ hmem, htaken, rfl⟩

/-- **What compiling reports is about some place of the selection.** -/
theorem compile_error {entity : Entity} {selected : Selected} {error : PlanError}
    (h : compile context entity selected = .error error) :
    selected.Offends context.registry context.bindings entity error := by
  unfold compile at h
  rcases Outcome.bind_error.mp h with h | ⟨⟨relations, naming⟩, -, h⟩
  · rcases compileFields_error h with hoffends | ⟨key, -, hkey, -⟩
    · exact hoffends
    · exact absurd hkey (by simp)
  · cases h

end Plan

/-! ### Shaping -/

namespace Shaped

section

variable {shape : Row → Except PlanError Json} {error : PlanError}

mutual

/-- What is reported of the rows in a value is reported of one of them. -/
theorem shapeRows_error : ∀ {value : Json}, shapeRows shape value = .error error →
    ∃ row, shape row = .error error
  | .arr items, h => by
    rw [shapeRows] at h
    rcases Outcome.bind_error.mp h with h | ⟨shaped, -, h⟩
    · exact shapeItems_error h
    · cases h
  | .obj row, h => by
    rw [shapeRows] at h
    exact ⟨row, h⟩
  | .null, h | .bool _, h | .num _, h | .str _, h => by
    rw [shapeRows] at h
    · cases h
    all_goals simp

theorem shapeItems_error : ∀ {items : List Json}, shapeItems shape items = .error error →
    ∃ row, shape row = .error error
  | [], h => by
    rw [shapeItems] at h
    cases h
  | item :: rest, h => by
    rw [shapeItems] at h
    rcases Outcome.bind_error.mp h with h | ⟨shaped, -, h⟩
    · exact shapeRows_error h
    · rcases Outcome.bind_error.mp h with h | ⟨others, -, h⟩
      · exact shapeItems_error h
      · cases h

end

end

/-- **What shaping reports is about some place of the selection.** -/
theorem shapeFields_error {registry : Registry} {selected : Selected} {entity : Entity} {row : Row}
    {output : List (String × Json)} {error : PlanError}
    (h : shapeFields registry entity row output selected = .error error) (bindings : Variables) :
    selected.Offends registry bindings entity error := by
  induction selected generalizing entity row output with
  | none => exact nomatch h
  | missing fragment rest =>
      cases h
      exact .missing fragment rest
  | field name asName arguments children rest ihChildren ihRest =>
      rw [shapeFields] at h
      split at h
      · exact .later (ihRest h)
      split at h
      · rename_i relation hrelation
        split at h
        · rcases Outcome.bind_error.mp h with h | ⟨shaped, -, h⟩
          · obtain ⟨related, hrelated⟩ := shapeRows_error h
            exact .nested hrelation (ihChildren () (Outcome.map_error.mp hrelated))
          · exact .later (ihRest h)
        · exact .later (ihRest h)
      · exact .later (ihRest h)

theorem ofValue_error {registry : Registry} {selected : Unit → Selected} {entity : Entity}
    {value : Json} {error : PlanError}
    (h : ofValue registry entity selected value = .error error) (bindings : Variables) :
    (selected ()).Offends registry bindings entity error := by
  obtain ⟨row, hrow⟩ := shapeRows_error h
  exact shapeFields_error (Outcome.map_error.mp hrow) bindings

end Shaped

end GraphFetch
