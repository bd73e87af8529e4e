/-
Selections with fields left out.

A path of response keys leads from a selection to one of the sets below it, and narrowing
leaves of that set the fields that answer under one key.  What can be said of a selection
field by field can be said of one with fewer fields: it compiles, its parts keep apart, its
names are names.
-/
import GraphFetch.Proofs.Document.Names
import GraphFetch.Proofs.Plan.Selections

namespace GraphFetch

namespace Selected

/-! ### Narrowing -/

/-- The fields that answer under a key. -/
def only (key : String) : Selected → Selected
  | .none => .none
  | .missing fragment rest => .missing fragment (only key rest)
  | .field name asName arguments children rest =>
    if responseKey name asName = key then .field name asName arguments children (only key rest)
    else only key rest

/-- The fields with a change made to what is selected below those that answer under a key. -/
def changeBelow (key : String) (change : Selected → Selected) : Selected → Selected
  | .none => .none
  | .missing fragment rest => .missing fragment (changeBelow key change rest)
  | .field name asName arguments children rest =>
    let below := if responseKey name asName = key then fun _ => change (children ()) else children
    .field name asName arguments below (changeBelow key change rest)

/-- The selection with the fields that answer under one key for all those of the set on a path. -/
def narrow (key : String) : List String → Selected → Selected
  | [] => only key
  | step :: path => changeBelow step (narrow key path)

/-- Whether something holds for the names of the fields that answer under a key and for what is
selected below them. -/
def Under (key : String) (holds : String → Selected → Prop) : Selected → Prop
  | .none => True
  | .missing _ rest => Under key holds rest
  | .field name asName _ children rest =>
    (responseKey name asName = key → holds name (children ())) ∧ Under key holds rest

/-- Whether a path leads over relations only. -/
def Leads (registry : Registry) : List String → Entity → Selected → Prop
  | [], _, _ => True
  | step :: path, entity, selected =>
    selected.Under step fun name children => ∃ relation, entity.relation? name = some relation
      ∧ Leads registry path (registry.entity relation.target) children

/-! ### Fewer fields -/

/-- Some of the fields of a selection, and some of those below them. -/
inductive Part : Selected → Selected → Prop
  | none : Part .none .none
  | missing {fragment : String} {rest part : Selected} (hrest : Part rest part) :
      Part (.missing fragment rest) (.missing fragment part)
  | keep {name : String} {asName : Option String} {arguments : List (String × Literal)}
      {children fewer : Unit → Selected} {rest part : Selected}
      (hbelow : Part (children ()) (fewer ())) (hrest : Part rest part) :
      Part (.field name asName arguments children rest) (.field name asName arguments fewer part)
  | drop {name : String} {asName : Option String} {arguments : List (String × Literal)}
      {children : Unit → Selected} {rest part : Selected} (hrest : Part rest part) :
      Part (.field name asName arguments children rest) part

theorem Part.refl (selected : Selected) : Part selected selected := by
  induction selected with
  | none => exact .none
  | missing fragment rest ih => exact .missing ih
  | field name asName arguments children rest ihChildren ih => exact .keep (ihChildren ()) ih

theorem part_only (key : String) (selected : Selected) : Part selected (selected.only key) := by
  induction selected with
  | none => exact .none
  | missing fragment rest ih => exact .missing ih
  | field name asName arguments children rest _ ih =>
      rw [only]
      split
      · exact .keep (.refl _) ih
      · exact .drop ih

theorem part_changeBelow {key : String} {change : Selected → Selected}
    (hchange : ∀ selected, Part selected (change selected)) (selected : Selected) :
    Part selected (selected.changeBelow key change) := by
  induction selected with
  | none => exact .none
  | missing fragment rest ih => exact .missing ih
  | field name asName arguments children rest _ ih =>
      refine .keep ?_ ih
      split
      · exact hchange _
      · exact .refl _

/-- **A narrowed selection is a part of the whole one.** -/
theorem part_narrow (key : String) (path : List String) (selected : Selected) :
    Part selected (selected.narrow key path) := by
  induction path generalizing selected with
  | nil => exact part_only key selected
  | cons step path ih => exact part_changeBelow ih selected

namespace Part

variable {selected part : Selected} {entity : Entity}

theorem relationKeys (h : Part selected part) :
    part.relationKeys entity ⊆ selected.relationKeys entity := by
  induction h with
  | none => exact fun _ h => h
  | missing _ ih => exact ih
  | @keep name asName arguments children fewer rest part _ _ _ ih =>
      cases hrelation : entity.relation? name with
      | none =>
          rw [relationKeys_plain hrelation, relationKeys_plain hrelation]
          exact ih
      | some relation =>
          rw [relationKeys_relation hrelation, relationKeys_relation hrelation]
          exact List.cons_subset_cons _ ih
  | @drop name asName arguments children rest part _ ih =>
      cases hrelation : entity.relation? name with
      | none =>
          rw [relationKeys_plain hrelation]
          exact ih
      | some relation =>
          rw [relationKeys_relation hrelation]
          exact List.subset_cons_of_subset _ ih

theorem ownerColumns (h : Part selected part) :
    part.ownerColumns entity ⊆ selected.ownerColumns entity := by
  induction h with
  | none => exact fun _ h => h
  | missing _ ih => exact ih
  | @keep name asName arguments children fewer rest part _ _ _ ih =>
      unfold Selected.ownerColumns
      split
      · exact List.cons_subset_cons _ ih
      · exact ih
  | @drop name asName arguments children rest part _ ih =>
      rw [Selected.ownerColumns]
      split
      · exact List.subset_cons_of_subset _ ih
      · exact ih

theorem plainNames (h : Part selected part) :
    part.plainNames entity ⊆ selected.plainNames entity := by
  induction h with
  | none => exact fun _ h => h
  | missing _ ih => exact ih
  | @keep name asName arguments children fewer rest part _ _ _ ih =>
      unfold Selected.plainNames
      split
      · exact ih
      · exact List.cons_subset_cons _ ih
  | @drop name asName arguments children rest part _ ih =>
      rw [Selected.plainNames]
      split
      · exact ih
      · exact List.subset_cons_of_subset _ ih

/-- Parts of a selection that keep apart do so without the others. -/
theorem apart {foundBy : Option String} (h : Part selected part)
    (hapart : selected.Apart entity foundBy) : part.Apart entity foundBy where
  not_column := fun key hkey => hapart.not_column key (h.relationKeys hkey)
  not_stored := fun key hkey => hapart.not_stored key (h.relationKeys hkey)
  not_virtual := fun key hkey => hapart.not_virtual key (h.relationKeys hkey)
  not_joined := fun key hkey hmem =>
    hapart.not_joined key (h.relationKeys hkey) (h.ownerColumns hmem)
  not_found := fun key hkey => hapart.not_found key (h.relationKeys hkey)

theorem legible (h : Part selected part) (hlegible : selected.Legible entity) :
    part.Legible entity where
  not_plain := fun key hkey hmem =>
    hlegible.not_plain key (h.relationKeys hkey) (h.plainNames hmem)
  no_introspection := fun name hname => hlegible.no_introspection name (h.plainNames hname)

/-- What holds for the sets below a selection holds for those below a part of it. -/
theorem setsBelow {registry : Registry} {admits : Entity → Option String → Selected → Prop}
    (hadmits : ∀ {entity foundBy selected part}, Part selected part →
      admits entity foundBy selected → admits entity foundBy part)
    (h : Part selected part) (hbelow : selected.Below registry admits entity) :
    part.Below registry admits entity := by
  induction h generalizing entity with
  | none => trivial
  | missing _ ih => exact ih hbelow
  | keep hchildren _ ihBelow ih =>
      refine ⟨?_, ih hbelow.2⟩
      intro relation hrelation
      obtain ⟨hset, hsets⟩ := hbelow.1 relation hrelation
      exact ⟨hadmits hchildren hset, ihBelow hsets⟩
  | drop _ ih => exact ih hbelow.2

/-- **A part of a selection that can be compiled can be compiled.** -/
theorem compilable {registry : Registry} {bindings : Variables} (h : Part selected part)
    (hcompilable : selected.Compilable registry bindings entity) :
    part.Compilable registry bindings entity := by
  induction h generalizing entity with
  | none => trivial
  | missing _ _ => exact absurd hcompilable (by simp [Compilable])
  | keep _ hrest ihBelow ih =>
      refine ⟨?_, ih hcompilable.2⟩
      intro relation hrelation
      obtain ⟨hkey, hfilters, hchildren⟩ := hcompilable.1 relation hrelation
      exact ⟨fun hmem => hkey (hrest.relationKeys hmem), hfilters, ihBelow hchildren⟩
  | drop _ ih => exact ih hcompilable.2

theorem wellNamed (h : Part selected part) (hnamed : selected.WellNamed) : part.WellNamed := by
  induction h with
  | none => trivial
  | missing _ ih => exact ih hnamed
  | keep _ _ ihBelow ih =>
      obtain ⟨hname, hasName, hchildren, hrest⟩ := hnamed
      exact ⟨hname, hasName, ihBelow hchildren, ih hrest⟩
  | drop _ ih => exact ih hnamed.2.2.2

end Part

end Selected

end GraphFetch
