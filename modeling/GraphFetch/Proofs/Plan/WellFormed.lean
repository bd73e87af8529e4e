/-
Which selections compile, as they are written.

Relations lead from a selection set to the sets below their fields, and from there on.  In
each set that they lead to, three things have to be right: the fragments that are spread in it
are there, no null and no object is written in the arguments of its relations, and no two of
its relations share a key.  Nothing is asked of a set that only plain fields lead to, and keys
are told apart within a set only, with its fragments and groups, but not from one set to
another.

The nodes that come out are the relations of each such set in the order of the document.
-/
import GraphFetch.Proofs.Document.Expansion
import GraphFetch.Proofs.Plan.Arguments
import GraphFetch.Proofs.Plan.Selections

namespace GraphFetch

/-! ### Selections that are well formed -/

namespace Fragments

/-- Whether a selection set of an entity leads to another one over relations. -/
inductive LeadsTo (registry : Registry) (fragments : Fragments) (owner : Entity)
    (level : List Selection) : Entity → List Selection → Prop
  | here : LeadsTo registry fragments owner level owner level
  | onward {entity : Entity} {selections : List Selection} {relation : Relation}
      {field : WrittenField} (hfield : Stands fragments field.selection selections)
      (hrelation : entity.relation? field.name = some relation)
      (h : LeadsTo registry fragments owner level (registry.entity relation.target)
        field.selections) :
      LeadsTo registry fragments owner level entity selections

/-- The keys of the relations among fields. -/
def relationKeys (entity : Entity) (fields : List WrittenField) : List String :=
  (fields.filter fun field => (entity.relation? field.name).isSome).map WrittenField.key

/-- Whether a selection set of an entity and all sets that it leads to over relations have their
fragments, arguments that resolve and relations under keys of their own. -/
structure WellFormed (registry : Registry) (fragments : Fragments) (entity : Entity)
    (selections : List Selection) : Prop where
  resolved : ∀ owner level, LeadsTo registry fragments owner level entity selections →
    fragments.Resolved level
  supported : ∀ owner level, LeadsTo registry fragments owner level entity selections →
    ∀ field : WrittenField, Stands fragments field.selection level →
      (owner.relation? field.name).isSome →
        ∀ argument ∈ field.arguments, ¬ argument.2.Unsupported
  apart : ∀ owner level, LeadsTo registry fragments owner level entity selections →
    ∀ fields, Gathers fragments level fields → (relationKeys owner fields).Nodup

variable {registry : Registry} {fragments : Fragments} {entity : Entity}
  {selections : List Selection} {fields : List WrittenField}

theorem relationKeys_plain {field : WrittenField}
    (h : entity.relation? field.name = none) :
    relationKeys entity (field :: fields) = relationKeys entity fields := by
  rw [relationKeys, List.filter_cons_of_neg (by simp [h]), relationKeys]

theorem relationKeys_relation {field : WrittenField} {relation : Relation}
    (h : entity.relation? field.name = some relation) :
    relationKeys entity (field :: fields) = field.key :: relationKeys entity fields := by
  rw [relationKeys, List.filter_cons_of_pos (by simp [h]), List.map_cons, relationKeys]

theorem relationKeys_eq_nil :
    relationKeys entity fields = [] ↔ ∀ field ∈ fields, entity.relation? field.name = none := by
  simp [relationKeys]

/-- **What is asked of a selection set is asked of its own fields, and of the sets below its
relations.** -/
theorem wellFormed_iff (h : Gathers fragments selections fields) :
    WellFormed registry fragments entity selections
      ↔ (relationKeys entity fields).Nodup
        ∧ ∀ field ∈ fields, ∀ relation, entity.relation? field.name = some relation →
          (∀ argument ∈ field.arguments, ¬ argument.2.Unsupported)
            ∧ WellFormed registry fragments (registry.entity relation.target) field.selections := by
  constructor
  · intro hformed
    refine ⟨hformed.apart entity selections .here fields h, ?_⟩
    intro field hfield relation hrelation
    have hstands := h.mem_iff.mp hfield
    refine ⟨hformed.supported entity selections .here field hstands (by simp [hrelation]), ?_⟩
    exact {
      resolved := fun owner level hleads =>
        hformed.resolved owner level (.onward hstands hrelation hleads)
      supported := fun owner level hleads =>
        hformed.supported owner level (.onward hstands hrelation hleads)
      apart := fun owner level hleads =>
        hformed.apart owner level (.onward hstands hrelation hleads) }
  · rintro ⟨hkeys, hown⟩
    constructor
    · rintro owner level (_ | ⟨hfield, hrelation, hleads⟩)
      · exact h.resolved
      · exact (hown _ (h.mem_iff.mpr hfield) _ hrelation).2.resolved owner level hleads
    · rintro owner level (_ | ⟨hfield, hrelation, hleads⟩)
      · intro field hfield hrelation
        obtain ⟨relation, hrelation⟩ := Option.isSome_iff_exists.mp hrelation
        exact (hown field (h.mem_iff.mpr hfield) relation hrelation).1
      · exact (hown _ (h.mem_iff.mpr hfield) _ hrelation).2.supported owner level hleads
    · rintro owner level (_ | ⟨hfield, hrelation, hleads⟩)
      · intro others hothers
        rwa [hothers.unique h]
      · exact (hown _ (h.mem_iff.mpr hfield) _ hrelation).2.apart owner level hleads

end Fragments

/-! ### Compiling what is written -/

namespace Selected

open Fragments (Gathers WellFormed)

variable {registry : Registry} {bindings : Variables} {fragments : Fragments} {entity : Entity}

theorem relationKeys_listed (fields : List WrittenField) :
    (fragments.listed fields).relationKeys entity = Fragments.relationKeys entity fields := by
  induction fields with
  | nil => rfl
  | cons field rest ih =>
      rw [Fragments.listed]
      cases hrelation : entity.relation? field.name with
      | none => rw [relationKeys_plain hrelation, Fragments.relationKeys_plain hrelation, ih]
      | some relation =>
          rw [relationKeys_relation hrelation, Fragments.relationKeys_relation hrelation, ih]
          rfl

/-- Fields can be compiled if no two relations among them share a key and each can be by itself. -/
theorem compilable_listed {fields : List WrittenField} :
    (fragments.listed fields).Compilable registry bindings entity
      ↔ (Fragments.relationKeys entity fields).Nodup
        ∧ ∀ field ∈ fields, ∀ relation, entity.relation? field.name = some relation →
          (∀ argument ∈ field.arguments, ¬ argument.2.Unsupported)
            ∧ (fragments.expand field.selections).Compilable registry bindings
              (registry.entity relation.target) := by
  induction fields with
  | nil => simp [Fragments.listed, Compilable, Fragments.relationKeys]
  | cons field rest ih =>
      rw [Fragments.listed, Compilable, ih, List.forall_mem_cons, relationKeys_listed]
      cases hrelation : entity.relation? field.name with
      | none => simp [Fragments.relationKeys_plain hrelation]
      | some relation =>
          rw [Fragments.relationKeys_relation hrelation, List.nodup_cons]
          simp only [Option.some.injEq, forall_eq', Plan.argumentModifier_ok_iff]
          constructor
          · rintro ⟨⟨hkey, hown⟩, hkeys, hrest⟩
            exact ⟨⟨hkey, hkeys⟩, hown, hrest⟩
          · rintro ⟨⟨hkey, hkeys⟩, hown, hrest⟩
            exact ⟨⟨hkey, hown⟩, hkeys, hrest⟩

/-- **The fields of a selection set can be compiled exactly if the set is well formed.** -/
theorem compilable_iff_wellFormed {selections : List Selection}
    (h : fragments.Acyclic selections) :
    (fragments.expand selections).Compilable registry bindings entity
      ↔ WellFormed registry fragments entity selections := by
  induction h using Fragments.Acyclic.levels generalizing entity with
  | step selections h ih =>
      have hiff : ∀ fields, Gathers fragments selections fields →
          ((fragments.expand selections).Compilable registry bindings entity
            ↔ WellFormed registry fragments entity selections) := by
        intro fields hfields
        rw [hfields.expand_eq h, compilable_listed, Fragments.wellFormed_iff hfields]
        refine and_congr_right fun _ => forall₂_congr fun field hfield => ?_
        refine forall₂_congr fun relation _ => and_congr_right fun _ => ?_
        exact ih fields hfields field hfield
      -- Either way the set gathers its fields.
      constructor
      · intro hcompilable
        obtain ⟨fields, hfields⟩ := h.gathers_of_whole hcompilable.whole
        exact (hiff fields hfields).mp hcompilable
      · intro hformed
        obtain ⟨fields, hfields⟩ := h.gathers_of_resolved (hformed.resolved entity selections .here)
        exact (hiff fields hfields).mpr hformed

end Selected

/-! ### Nodes of what is written -/

/-- Whether nodes are a level of a tree of nodes: its roots, or all children of a node in it. -/
inductive RelationNode.Level (level : List RelationNode) : List RelationNode → Prop
  | here : Level level level
  | deeper {nodes : List RelationNode} {node : RelationNode} (hnode : node ∈ nodes)
      (h : Level level node.children) : Level level nodes

theorem EagerLoad.expression_eq_empty {load : EagerLoad} :
    load.expression = "" ↔ load.relations = [] := by
  unfold EagerLoad.expression Expression.render
  cases load.relations with
  | nil => simp [Expression.renderChars]
  | cons node rest =>
      constructor
      · intro h
        have hchars : Expression.renderChars (node :: rest) = [] :=
          String.ofList_injective (h.trans (rfl : "" = String.ofList []))
        exact absurd hchars (List.cons_ne_nil _ _)
      · intro h
        exact absurd h (List.cons_ne_nil _ _)

namespace Plan

open Fragments (Gathers LeadsTo Stands WellFormed)
open RelationNode (Level)

/-- Nodes that stand for the relations among fields, one for one and in order, each with the
relation's name, with an alias just if the key of the field is another one, and over nodes that
stand for what is selected below the field. -/
inductive Depicts (registry : Registry) (fragments : Fragments) :
    Entity → List WrittenField → List RelationNode → Prop
  | nil {entity : Entity} : Depicts registry fragments entity [] []
  | plain {entity : Entity} {field : WrittenField}
      {fields : List WrittenField} {nodes : List RelationNode}
      (hfield : entity.relation? field.name = none)
      (hrest : Depicts registry fragments entity fields nodes) :
      Depicts registry fragments entity (field :: fields) nodes
  | relation {entity : Entity} {field : WrittenField}
      {fields below : List WrittenField} {nodes children : List RelationNode}
      {relation : Relation} {references : List String}
      (hfield : entity.relation? field.name = some relation)
      (hbelow : Gathers fragments field.selections below)
      (hchildren : Depicts registry fragments (registry.entity relation.target) below children)
      (hrest : Depicts registry fragments entity fields nodes) :
      Depicts registry fragments entity (field :: fields)
        (⟨relation.name, if field.key = relation.name then none else some field.key, references,
          children⟩ :: nodes)

section

variable {context : PlanContext} {registry : Registry} {fragments : Fragments} {entity : Entity}
  {selections : List Selection} {fields : List WrittenField}
  {nodes : List RelationNode}

/-- Nodes have the keys of the relations that they stand for. -/
theorem Depicts.keys (h : Depicts registry fragments entity fields nodes) :
    nodes.map RelationNode.key = Fragments.relationKeys entity fields := by
  induction h with
  | nil => rfl
  | plain hfield _ ih => rw [ih, Fragments.relationKeys_plain hfield]
  | @relation _ field _ _ _ children relation references hfield _ _ _ _ ih =>
      rw [List.map_cons, ih, Fragments.relationKeys_relation hfield]
      exact congrArg (· :: _) (relationNode_key relation field.key references children)

theorem Depicts.of_mem (h : Depicts registry fragments entity fields nodes) {node : RelationNode}
    (hnode : node ∈ nodes) :
    ∃ field ∈ fields, ∃ relation below, entity.relation? field.name = some relation
      ∧ Gathers fragments field.selections below
      ∧ Depicts registry fragments (registry.entity relation.target) below node.children := by
  induction h with
  | nil => exact absurd hnode List.not_mem_nil
  | plain _ _ ih =>
      obtain ⟨field, hfield, hown⟩ := ih hnode
      exact ⟨field, List.mem_cons_of_mem _ hfield, hown⟩
  | relation hfield hbelow hchildren _ _ ih =>
      rcases List.mem_cons.mp hnode with rfl | hnode
      · exact ⟨_, List.mem_cons_self, _, _, hfield, hbelow, hchildren⟩
      · obtain ⟨field, hfield, hown⟩ := ih hnode
        exact ⟨field, List.mem_cons_of_mem _ hfield, hown⟩

/-- Each level of nodes stands for a set that relations lead to. -/
theorem Depicts.level {level : List RelationNode} (hlevel : Level level nodes)
    (h : Depicts registry fragments entity fields nodes)
    (hfields : Gathers fragments selections fields) :
    ∃ owner set inner, LeadsTo registry fragments owner set entity selections
      ∧ Gathers fragments set inner ∧ Depicts registry fragments owner inner level := by
  induction hlevel generalizing entity selections fields with
  | here => exact ⟨entity, selections, fields, .here, hfields, h⟩
  | deeper hnode _ ih =>
      obtain ⟨field, hfield, relation, below, hrelation, hbelow, hchildren⟩ := h.of_mem hnode
      obtain ⟨owner, set, inner, hleads, hinner, hlevel⟩ := ih hchildren hbelow
      have hstands := hfields.mem_iff.mp hfield
      exact ⟨owner, set, inner, .onward hstands hrelation hleads, hinner, hlevel⟩

/-- **No two nodes of a level have one key** if they stand for a set that is well formed. -/
theorem Depicts.keys_nodup {level : List RelationNode} (hlevel : Level level nodes)
    (h : Depicts registry fragments entity fields nodes)
    (hfields : Gathers fragments selections fields)
    (hformed : WellFormed registry fragments entity selections) :
    (level.map RelationNode.key).Nodup := by
  obtain ⟨owner, set, inner, hleads, hinner, hdepicts⟩ := h.level hlevel hfields
  rw [hdepicts.keys]
  exact hformed.apart owner set hleads inner hinner

/-- What is compiled of fields stands for them if what is compiled below them does. -/
theorem depicts_of_listed (hacyclic : ∀ field ∈ fields, fragments.Acyclic field.selections)
    (hbelow : ∀ field ∈ fields, ∀ {entity taken naming nodes after below},
      compileFields context entity taken (fragments.expand field.selections) naming
        = .ok (nodes, after) →
      Gathers fragments field.selections below →
        Depicts context.registry fragments entity below nodes)
    {taken : List String} {naming after : Naming}
    (h : compileFields context entity taken (fragments.listed fields) naming = .ok (nodes, after)) :
    Depicts context.registry fragments entity fields nodes := by
  induction fields generalizing taken naming nodes with
  | nil =>
      cases h
      exact .nil
  | cons field rest ih =>
      rw [List.forall_mem_cons] at hacyclic
      have hlater := fun other (hother : other ∈ rest) =>
        @hbelow other (List.mem_cons_of_mem _ hother)
      rw [Fragments.listed] at h
      cases hrelation : entity.relation? field.name with
      | none =>
          rw [compileFields_plain hrelation] at h
          exact .plain hrelation (ih hacyclic.2 hlater h)
      | some relation =>
          obtain ⟨-, references, named, children, between, others, -, hchildren, hothers, rfl⟩ :=
            (compileFields_relation hrelation).mp h
          have hwhole := (compilable_of_compileFields hchildren).1.whole
          obtain ⟨below, hgathers⟩ := hacyclic.1.gathers_of_whole hwhole
          exact .relation hrelation hgathers (hbelow field List.mem_cons_self hchildren hgathers)
            (ih hacyclic.2 hlater hothers)

/-- **What is compiled of a selection set stands for the fields that it gathers.** -/
theorem depicts_of_compileFields (hacyclic : fragments.Acyclic selections) {taken : List String}
    {naming after : Naming}
    (h : compileFields context entity taken (fragments.expand selections) naming
      = .ok (nodes, after)) (hfields : Gathers fragments selections fields) :
    Depicts context.registry fragments entity fields nodes := by
  induction hacyclic using Fragments.Acyclic.levels
    generalizing entity taken naming nodes after fields with
  | step selections hacyclic ih =>
      rw [hfields.expand_eq hacyclic] at h
      exact depicts_of_listed (hfields.acyclic hacyclic)
        (fun field hfield _ _ _ _ _ _ => ih fields hfields field hfield) h

/-- **Selections compile exactly if they are well formed, and the nodes are those of the relations
that are written.** -/
theorem compile_iff_wellFormed (hacyclic : fragments.Acyclic selections) :
    ((∃ load, compile context entity (fragments.expand selections) = .ok load)
        ↔ WellFormed context.registry fragments entity selections)
      ∧ ∀ load, compile context entity (fragments.expand selections) = .ok load →
        (∃ fields, Gathers fragments selections fields
          ∧ Depicts context.registry fragments entity fields load.relations)
        ∧ (∀ level, Level level load.relations → (level.map RelationNode.key).Nodup)
        ∧ (load.expression = "" ↔ ∀ field : WrittenField,
            Stands fragments field.selection selections → entity.relation? field.name = none) := by
  have hiff : (∃ load, compile context entity (fragments.expand selections) = .ok load)
      ↔ WellFormed context.registry fragments entity selections :=
    compile_ok_iff.trans (Selected.compilable_iff_wellFormed hacyclic)
  refine ⟨hiff, fun load hload => ?_⟩
  have hformed := hiff.mp ⟨load, hload⟩
  obtain ⟨fields, hfields⟩ :=
    hacyclic.gathers_of_resolved (hformed.resolved entity selections .here)
  obtain ⟨naming, hcompiled, -⟩ := compile_ok.mp hload
  have hdepicts := depicts_of_compileFields hacyclic hcompiled hfields
  refine ⟨⟨fields, hfields, hdepicts⟩, fun level hlevel => ?_, ?_⟩
  · exact hdepicts.keys_nodup hlevel hfields hformed
  · rw [EagerLoad.expression_eq_empty, ← List.map_eq_nil_iff, hdepicts.keys,
      Fragments.relationKeys_eq_nil]
    exact forall_congr' fun field => imp_congr_left hfields.mem_iff

end

/-! ### Posts as entries -/

namespace Entries

/-- A post with its comments under another key, and the drafts of an author. -/
def fragments : Fragments := [
  ("Entry", [.field "title" none [] [] [], .group none [] [.field "comments" (some "remarks") [] []
    [.field "text" none [] [] []]]]),
  ("Drafts", [.field "posts" (some "drafts") [("published", .boolean false)] []
    [.spread "Entry" []]])]

/-- Published posts, and drafts by a fragment. -/
def selections : List Selection :=
  [.field "posts" none [("published", .boolean true)] [] [.spread "Entry" []], .spread "Drafts" []]

theorem acyclic (selections : List Selection) : fragments.Acyclic selections := by
  refine Fragments.acyclic_of_rank (fun name => if name = "Drafts" then 1 else 0) ?_
  simp [fragments, Fragments.spreads, Fragments.spreadsOne]

/-- The load compiled for authors. -/
def compiled (selections : List Selection) : Except PlanError EagerLoad :=
  compile Posts.planning (Posts.planning.registry.entity 0) (fragments.expand selections)

end Entries

/-- Posts may be selected twice under keys of their own, but not as drafts from two places. -/
theorem compile_iff_wellFormed_entries :
    (∃ load, Entries.compiled Entries.selections = .ok load ∧ load.expression ≠ ""
        ∧ load.relations.map RelationNode.key = ["posts", "drafts"]
        ∧ ∃ fields, Gathers Entries.fragments Entries.selections fields
          ∧ Depicts Posts.planning.registry Entries.fragments (Posts.planning.registry.entity 0)
            fields load.relations)
      ∧ WellFormed Posts.planning.registry Entries.fragments (Posts.planning.registry.entity 0)
        Entries.selections
      ∧ ¬ WellFormed Posts.planning.registry Entries.fragments (Posts.planning.registry.entity 0)
        (Entries.selections ++ [.group none [] [.spread "Drafts" []]]) := by
  have hkeys : (Entries.compiled Entries.selections).map
      (fun load => load.relations.map RelationNode.key) = .ok ["posts", "drafts"] := rfl
  obtain ⟨load, hload, hloadKeys⟩ := Outcome.map_ok.mp hkeys
  obtain ⟨hiff, hloads⟩ := @compile_iff_wellFormed Posts.planning Entries.fragments
    (Posts.planning.registry.entity 0) Entries.selections (Entries.acyclic _)
  obtain ⟨hfields, -, hempty⟩ := hloads load hload
  refine ⟨⟨load, hload, fun hexpression => ?_, hloadKeys, hfields⟩, hiff.mp ⟨load, hload⟩, ?_⟩
  · have hplain := hempty.mp hexpression ⟨"posts", none, [("published", .boolean true)],
      [], [.spread "Entry" []]⟩ (.here List.mem_cons_self)
    exact absurd hplain (by decide)
  · intro hformed
    have hagain := (@compile_iff_wellFormed Posts.planning Entries.fragments
      (Posts.planning.registry.entity 0)
      (Entries.selections ++ [.group none [] [.spread "Drafts" []]])
      (Entries.acyclic _)).1
    obtain ⟨load, hcompiled⟩ := hagain.mpr hformed
    have hfails : Entries.compiled (Entries.selections ++ [.group none [] [.spread "Drafts" []]])
        = .error (.duplicateRelation "Author" "drafts") := rfl
    exact nomatch hfails.symm.trans hcompiled

end Plan

end GraphFetch
