/-
Loads that tell of the rows they were made for.

A load attaches one relation after the other, so the rows that a relation is dealt out to
carry others already.  What is attached stands under keys that no later join reads and no
later relation puts anything under: so owners ask for the same rows as before, and what was
attached is still there in the end.  By induction on the nodes, that is on the selection
they mirror, what a load attaches is what is told of the rows; and it succeeds exactly if
all that can be fetched.
-/
import GraphFetch.Proofs.Engine.Reading

namespace GraphFetch

open Database (ownerKeys partnersOf hasKey relationValue Covers project)
open Plan (relationNode relationNode_key Mirrors)
open Normalized (changeRows normalizeRow)
open Selected (relationKeys_plain relationKeys_relation)

namespace Selected

theorem ownerColumns_plain {entity : Entity} {name : String} (h : entity.relation? name = .none)
    (asName : Option String) (arguments : List (String × Literal)) (children : Unit → Selected)
    (rest : Selected) :
    ownerColumns entity (.field name asName arguments children rest)
      = ownerColumns entity rest := by
  rw [ownerColumns, h]

theorem ownerColumns_relation {entity : Entity} {name : String} {relation : Relation}
    (h : entity.relation? name = some relation) (asName : Option String)
    (arguments : List (String × Literal)) (children : Unit → Selected) (rest : Selected) :
    ownerColumns entity (.field name asName arguments children rest)
      = relation.join.ownerColumn :: ownerColumns entity rest := by
  rw [ownerColumns, h]

theorem plainNames_rest {entity : Entity} {name : String} {asName : Option String}
    {arguments : List (String × Literal)} {children : Unit → Selected} {rest : Selected} :
    rest.plainNames entity ⊆ plainNames entity (.field name asName arguments children rest) := by
  intro other hother
  unfold plainNames
  split
  · exact hother
  · exact List.mem_cons_of_mem _ hother

theorem mem_plainNames {entity : Entity} {name : String} (h : entity.relation? name = .none)
    (htype : name ≠ "__typename") (asName : Option String) (arguments : List (String × Literal))
    (children : Unit → Selected) (rest : Selected) :
    name ∈ plainNames entity (.field name asName arguments children rest) := by
  unfold plainNames
  rw [if_neg (by simp [h, htype])]
  exact List.mem_cons_self

end Selected

namespace Reading

variable {reading : Reading}

/-- What a load made of rows, each of which carries other relations already: their own members
stay, and whatever their plain fields may tell, the relations tell of the rows as well. -/
structure Loaded (telling : reading.Telling) (entity : Entity) (rows : List Row)
    (selected : Selected) (nodes : List RelationNode) (extra load : Row → Row) : Prop where
  distinct : ∀ row ∈ rows, Named.Distinct (load row)
  same : ∀ row ∈ rows, ∀ name ∉ selected.relationKeys entity,
    Named.find? name (load row) = Named.find? name (extra row)
  told : ∀ value : Row → String → Json,
    (∀ row ∈ rows, ∀ name ∈ selected.plainNames entity,
      telling.tells entity row name (value row name)) →
    ∃ members, reading.Tells telling.tells entity rows selected members
      ∧ ∀ row ∈ rows,
        Attached reading.database.registry entity (value row) (load row) selected nodes
          (members row)

/-! ### One selection set -/

/-- **Loaded rows of a set, projected, normalized and shaped, have the members that are told of
them.** -/
theorem Loaded.shaped {telling : reading.Telling} (hclear : reading.database.Clear)
    {entity : Entity} (hentity : entity ∈ reading.database.registry.entities)
    {foundBy : Option String} {selected : Selected}
    (hadmits : telling.admits entity foundBy selected)
    (hnodup : (selected.relationKeys entity).Nodup) {rows : List Row}
    (hrows : ∀ row ∈ rows, row ∈ reading.database.table entity.table) {nodes : List RelationNode}
    (hkeys : nodes.map RelationNode.key = selected.relationKeys entity) {query : Query}
    (hcovers : Covers entity (selected.reads entity) query reading.selects) {load : Row → Row}
    (h : Loaded telling entity rows selected nodes id load) :
    ∃ members, reading.Tells telling.tells entity rows selected members
      ∧ ∀ row ∈ rows, Shaped.shapeFields reading.database.registry entity
          (normalizeRow reading.database.registry entity nodes (project query nodes (load row))) []
          selected = .ok (Named.ofList (members row)) := by
  have hown := (hclear.built entity hentity).toOwnNames
  have hapart := telling.apart hadmits
  let value (row : Row) (name : String) : Json := (Named.find? name
    (normalizeRow reading.database.registry entity nodes
      (project query nodes (load row)))).getD .null
  have hvalue : ∀ row ∈ rows, ∀ name ∈ selected.plainNames entity,
      telling.tells entity row name (value row name) := by
    intro row hrow
    refine telling.shown hentity hadmits (hrows row hrow) hkeys ?_
    exact Reading.shows hown hapart (h.distinct row hrow) hkeys (hclear.clear entity hentity)
      (hclear.rows entity hentity row (hrows row hrow)) (h.same row hrow) hcovers
  obtain ⟨members, htells, hattached⟩ := h.told value hvalue
  refine ⟨members, htells, ?_⟩
  intro row hrow
  exact (hattached row hrow).shaped hown hapart (h.distinct row hrow) hkeys hnodup fun _ _ => rfl

/-- The members of related rows are what is dealt out to an owner in the end. -/
theorem shaped_related {entity : Entity} {query : Query} {below : List RelationNode}
    {children : Selected} {load : Row → Row} {members : Row → List (String × Json)}
    {found : List Row}
    (hshaped : ∀ row ∈ found, Shaped.shapeFields reading.database.registry entity
      (normalizeRow reading.database.registry entity below (project query below (load row))) []
      children = .ok (Named.ofList (members row)))
    {column : String}
    (hcolumn : ∀ row ∈ found, Named.find? column (load row) = Named.find? column row)
    (keys : List Json) (kind : RelationKind) :
    Shaped.shapeRows
        (fun related =>
          (Shaped.shapeFields reading.database.registry entity related [] children).map
          .obj)
        (changeRows (normalizeRow reading.database.registry entity below)
          (relationValue kind (((found.map load).filter (hasKey column keys)).map
            (project query below))))
      = .ok (relationValue kind ((found.filter (hasKey column keys)).map fun row =>
          Named.ofList (members row))) := by
  have hfilter : (found.map load).filter (hasKey column keys)
      = (found.filter (hasKey column keys)).map load := by
    rw [List.filter_map]
    refine congrArg _ (List.filter_congr fun row hrow => ?_)
    exact Database.hasKey_congr (hcolumn row hrow)
  rw [hfilter, Normalized.changeRows_relationValue, List.map_map, List.map_map]
  refine Shaped.shapeRows_relationValue kind ?_
  intro row hrow
  exact Outcome.map_ok.mpr ⟨_, hshaped row (List.mem_filter.mp hrow).1, rfl⟩

/-! ### A whole load -/

section Load

variable {modifiers : ModifierTable}

/-- Owners to which the relations of a selection can be attached one after the other: none of these
answers under a column by which another joins its owners, and whatever was attached before, the
owners have kept those columns. -/
structure Attachable (telling : reading.Telling) (entity : Entity) (rows : List Row)
    (selected : Selected) (extra : Row → Row) : Prop where
  entity_mem : entity ∈ reading.database.registry.entities
  joined : ∀ key ∈ selected.relationKeys entity, key ∉ selected.ownerColumns entity
  below : selected.Below reading.database.registry telling.admits entity
  kept : ∀ row ∈ rows, ∀ column ∈ selected.ownerColumns entity,
    Named.find? column (extra row) = Named.find? column row

namespace Attachable

variable {telling : reading.Telling} {entity : Entity} {rows : List Row}

/-- Nothing was attached yet to rows as they are fetched. -/
theorem fetched (hentity : entity ∈ reading.database.registry.entities)
    {foundBy : Option String} {selected : Selected}
    (hadmits : telling.admits entity foundBy selected)
    (hbelow : selected.Below reading.database.registry telling.admits entity) (rows : List Row) :
    Attachable telling entity rows selected id :=
  ⟨hentity, (telling.apart hadmits).not_joined, hbelow, fun _ _ _ _ => rfl⟩

variable {name : String} {asName : Option String} {arguments : List (String × Literal)}
  {children : Unit → Selected} {rest : Selected} {extra : Row → Row}

theorem plain (hname : entity.relation? name = none)
    (h : Attachable telling entity rows (.field name asName arguments children rest) extra) :
    Attachable telling entity rows rest extra := by
  have hjoined := h.joined
  have hkept := h.kept
  rw [relationKeys_plain hname, Selected.ownerColumns_plain hname] at hjoined
  rw [Selected.ownerColumns_plain hname] at hkept
  exact ⟨h.entity_mem, hjoined, h.below.2, hkept⟩

section Relation

variable {relation : Relation} (hname : entity.relation? name = some relation)
  (h : Attachable telling entity rows (.field name asName arguments children rest) extra)

include hname h

/-- What is attached stands under no column by which later relations join their owners. -/
theorem onward (value : Row → Json) : Attachable telling entity rows rest fun row =>
    Named.put (responseKey name asName) (value row) (extra row) := by
  have hjoined := h.joined
  have hkept := h.kept
  rw [relationKeys_relation hname, Selected.ownerColumns_relation hname] at hjoined
  rw [Selected.ownerColumns_relation hname] at hkept
  refine ⟨h.entity_mem, fun key hkey hmem => ?_, h.below.2, fun row hrow column hcolumn => ?_⟩
  · exact hjoined key (List.mem_cons_of_mem _ hkey) (List.mem_cons_of_mem _ hmem)
  · have hne : column ≠ responseKey name asName := by
      rintro rfl
      exact hjoined _ List.mem_cons_self (List.mem_cons_of_mem _ hcolumn)
    rw [Named.find?_put_of_ne hne, hkept row hrow column (List.mem_cons_of_mem _ hcolumn)]

theorem target_mem (hclear : reading.database.Clear) :
    reading.database.registry.entity relation.target ∈ reading.database.registry.entities :=
  (hclear.built entity h.entity_mem).target_mem name relation (Named.mem_of_find? hname)

theorem admits : telling.admits (reading.database.registry.entity relation.target)
    (some relation.join.relatedColumn) (children ()) :=
  (h.below.1 relation hname).1

/-- Rows that a relation finds have nothing attached yet. -/
theorem beneath (hclear : reading.database.Clear) (found : List Row) :
    Attachable telling (reading.database.registry.entity relation.target) found (children ()) id :=
  .fetched (h.target_mem hname hclear) (h.admits hname) (h.below.1 relation hname).2 found

/-- What the first relation does to owners that carry others already. -/
theorem loadNode_ok (hclear : reading.database.Clear) {below : List RelationNode}
    {projection filters : Option Edit} {references : List String}
    (hprojection : Plan.projectionModifier reading.context
      (reading.database.registry.entity relation.target) (children ()) = .ok projection)
    (hfilters : Plan.argumentModifier reading.context
      (reading.database.registry.entity relation.target) arguments = .ok filters)
    (happlied : ∀ query, Database.modifiedQuery modifiers query references
      = .ok (query.applyAll (projection.toList ++ filters.toList))) {out : List Row} :
    (Database.loadNode reading.database modifiers reading.skipsUndefined entity
        (relationNode relation (responseKey name asName) references below) (rows.map extra)).result
        = .ok out
      ↔ ∃ found related, reading.related relation arguments (children ()) rows = some found
        ∧ (Database.loadNodes reading.database modifiers reading.skipsUndefined
            (reading.database.registry.entity relation.target) below found).result = .ok related
        ∧ (rows.map fun row => Named.put (responseKey name asName) (relationValue relation.kind
            ((related.filter (hasKey relation.join.relatedColumn (partnersOf relation.join
              (reading.database.linked relation.join
                (ownerKeys relation.join.ownerColumn rows)) row))).map
              (project (reading.relationQuery relation projection filters) below))) (extra row))
          = out := by
  have hown : relation.name = name := (hclear.built entity h.entity_mem).name_of_relation? hname
  have hkept := h.kept
  rw [Selected.ownerColumns_relation hname] at hkept
  exact Reading.loadNode_ok (hown.symm ▸ hname) hprojection hfilters happlied
    fun row hrow => hkept row hrow _ List.mem_cons_self

end Relation

end Attachable

/-- A plain field before the others changes nothing about a load. -/
theorem Loaded.plain {telling : reading.Telling} {entity : Entity} {rows : List Row} {name : String}
    {asName : Option String} {arguments : List (String × Literal)} {children : Unit → Selected}
    {rest : Selected} {nodes : List RelationNode} {extra load : Row → Row}
    (hname : entity.relation? name = none)
    (h : Loaded telling entity rows rest nodes extra load) :
    Loaded telling entity rows (.field name asName arguments children rest) nodes extra load := by
  refine ⟨h.distinct, ?_, ?_⟩
  · rw [relationKeys_plain hname]
    exact h.same
  · intro value hvalue
    obtain ⟨members, htells, hattached⟩ := h.told value fun row hrow other hother =>
      hvalue row hrow other (Selected.plainNames_rest hother)
    refine ⟨_, .plain hname ?_ htells, fun row hrow => .plain hname (hattached row hrow)⟩
    intro htype row hrow
    exact hvalue row hrow name (Selected.mem_plainNames hname htype _ _ _ _)

/-- A relation before the others is attached first, and stands to the end. -/
theorem Loaded.relation {telling : reading.Telling} {entity : Entity} {rows found : List Row}
    {name : String} {asName : Option String} {arguments : List (String × Literal)}
    {children : Unit → Selected} {rest : Selected} {nodes below : List RelationNode}
    {extra load : Row → Row} {relation : Relation} {references : List String} {value : Row → Json}
    {membersBelow : Row → List (String × Json)} (hname : entity.relation? name = some relation)
    (hkey : responseKey name asName ∉ rest.relationKeys entity)
    (hfound : reading.related relation arguments (children ()) rows = some found)
    (htellsBelow : reading.Tells telling.tells
      (reading.database.registry.entity relation.target) found
      (children ()) membersBelow)
    (hshaped : ∀ row, Shaped.shapeRows
        (fun related => (Shaped.shapeFields reading.database.registry
          (reading.database.registry.entity relation.target) related [] (children ())).map .obj)
        (changeRows (normalizeRow reading.database.registry
          (reading.database.registry.entity relation.target) below) (value row))
      = .ok (relationValue relation.kind
        ((reading.partners relation rows found row).map fun partner =>
          Named.ofList (membersBelow partner))))
    (h : Loaded telling entity rows rest nodes
      (fun row => Named.put (responseKey name asName) (value row) (extra row)) load) :
    Loaded telling entity rows (.field name asName arguments children rest)
      (relationNode relation (responseKey name asName) references below :: nodes) extra load := by
  refine ⟨h.distinct, ?_, ?_⟩
  · intro row hrow other hother
    rw [relationKeys_relation hname, List.mem_cons, not_or] at hother
    rw [h.same row hrow other hother.2, Named.find?_put_of_ne hother.1]
  · intro told htold
    obtain ⟨members, htells, hattached⟩ := h.told told fun row hrow other hother =>
      htold row hrow other (Selected.plainNames_rest hother)
    refine ⟨_, .relation hname hfound htellsBelow htells, fun row hrow => ?_⟩
    have hstands : Named.find? (responseKey name asName) (load row) = some (value row) := by
      rw [h.same row hrow _ hkey]
      exact Named.find?_put_self _ _ _
    exact .relation hname hstands (hshaped row) (hattached row hrow)

/-- **What a load attaches is told of the rows it was made for.** -/
theorem loadNodes_loaded {telling : reading.Telling} (hclear : reading.database.Clear)
    {entity : Entity}
    {selected : Selected} {nodes : List RelationNode}
    (h : Mirrors reading.context modifiers entity selected
      nodes) (hcompilable : selected.Compilable reading.database.registry reading.bindings entity)
    {rows : List Row} {extra : Row → Row}
    (hattachable : Attachable telling entity rows selected extra)
    (hdistinct : ∀ row ∈ rows, Named.Distinct (extra row)) {loaded : List Row}
    (hloaded : (Database.loadNodes reading.database modifiers reading.skipsUndefined entity nodes
      (rows.map extra)).result = .ok loaded) :
    ∃ load, rows.map load = loaded ∧ Loaded telling entity rows selected nodes extra load := by
  induction h generalizing rows extra loaded with
  | none =>
      refine ⟨extra, Database.loadNodes_nil_ok.mp hloaded, ?_⟩
      exact ⟨hdistinct, fun _ _ _ _ => rfl,
        fun value _ => ⟨_, .none, fun _ _ => .none⟩⟩
  | plain hname _ ih =>
      obtain ⟨load, hload, hrest⟩ := ih hcompilable.2 (hattachable.plain hname) hdistinct hloaded
      exact ⟨load, hload, hrest.plain hname⟩
  | @relation entity name asName arguments children rest nodes below relation references projection
      filters hname hprojection hfilters happlied hmirrors _ ihBelow ihRest =>
      obtain ⟨hkeyFree, -, hcompilableBelow⟩ := hcompilable.1 relation hname
      have htarget := hattachable.target_mem hname hclear
      have hadmits := hattachable.admits hname
      obtain ⟨between, hnode, hrest⟩ := Database.loadNodes_cons_ok.mp hloaded
      obtain ⟨found, related, hfound, hrelated, rfl⟩ :=
        (hattachable.loadNode_ok hname hclear hprojection hfilters happlied).mp hnode
      have hfoundRows := related_table hfound
      have hfoundDistinct : ∀ row ∈ found, Named.Distinct (id row) :=
        fun row hrow => hclear.rows _ htarget row (hfoundRows row hrow)
      obtain ⟨loadBelow, rfl, hloadedBelow⟩ := ihBelow hcompilableBelow
        (hattachable.beneath hname hclear found) hfoundDistinct
        ((List.map_id found).symm ▸ hrelated)
      -- What is told below is settled here, since the values of its plain fields are.
      have hcovers := relationQuery_covers (hclear.filters _ htarget) hprojection hfilters
      obtain ⟨membersBelow, htellsBelow, hshapedBelow⟩ := hloadedBelow.shaped hclear htarget hadmits
        hcompilableBelow.keys_nodup hfoundRows hmirrors.keys hcovers
      have hsameColumn : ∀ row ∈ found,
          Named.find? relation.join.relatedColumn (loadBelow row)
            = Named.find? relation.join.relatedColumn row :=
        fun row hrow => hloadedBelow.same row hrow _
          fun hkey => (telling.apart hadmits).not_found _ hkey rfl
      obtain ⟨load, hload, hloadedRest⟩ := ihRest hcompilable.2 (hattachable.onward hname _)
        (fun row hrow => (hdistinct row hrow).put _ _) hrest
      refine ⟨load, hload, hloadedRest.relation hname hkeyFree hfound htellsBelow fun row => ?_⟩
      exact shaped_related hshapedBelow hsameColumn _ relation.kind

/-- **A load succeeds if all its relations can be fetched.** -/
theorem loadNodes_exists {telling : reading.Telling} (hclear : reading.database.Clear)
    {entity : Entity} {selected : Selected} {nodes : List RelationNode}
    (h : Mirrors reading.context modifiers entity selected
      nodes) {rows : List Row} {extra : Row → Row}
    (hattachable : Attachable telling entity rows selected extra)
    (hloads : reading.Loads entity rows selected) :
    ∃ loaded, (Database.loadNodes reading.database modifiers reading.skipsUndefined entity nodes
      (rows.map extra)).result = .ok loaded := by
  induction h generalizing rows extra with
  | none => exact ⟨_, Database.loadNodes_nil_ok.mpr rfl⟩
  | plain hname _ ih => exact ih (hattachable.plain hname) hloads.2
  | relation hname hprojection hfilters happlied _ _ ihBelow ihRest =>
      obtain ⟨hfetch, hloadsRest⟩ := hloads
      obtain ⟨found, hfound, hloadsBelow⟩ := hfetch _ hname
      obtain ⟨related, hrelated⟩ := ihBelow (hattachable.beneath hname hclear found) hloadsBelow
      rw [List.map_id] at hrelated
      have hnode := (hattachable.loadNode_ok hname hclear hprojection hfilters happlied).mpr
        ⟨found, related, hfound, hrelated, rfl⟩
      obtain ⟨loaded, hloaded⟩ := ihRest (hattachable.onward hname _) hloadsRest
      exact ⟨loaded, Database.loadNodes_cons_ok.mpr ⟨_, hnode, hloaded⟩⟩

end Load

end Reading

end GraphFetch
