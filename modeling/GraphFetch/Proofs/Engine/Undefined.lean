/-
Arguments without a value.

Where queries skip what is undefined, an argument whose variable has no value does nothing: its
filter is asked only by queries that do not skip.  So it may as well be left out, of root fields
and of relations at any depth.  The mode is a flag that a root query hands down to the query of
every relation, which it reaches if no hook, filter or modifier changes it.

Leaving arguments out changes how many modifiers a load has, and so how they are named.  What
is compared is therefore what the names stand for: a load refers by its names, read back from
its expression, to the modifiers of the fields that it was compiled from.
-/
import GraphFetch.Proofs.Engine.Agreement
import GraphFetch.Proofs.Plan.ReadBack

namespace GraphFetch

open Outcome (Both)

/-! ### Documents without undefined arguments -/

/-- Whether arguments are others without some of those whose value is a variable that has none. -/
inductive Drops (bound : Variables) : List (String × Literal) → List (String × Literal) → Prop
  | nil : Drops bound [] []
  | keep {argument : String × Literal} {arguments others : List (String × Literal)}
      (hrest : Drops bound arguments others) :
      Drops bound (argument :: arguments) (argument :: others)
  | drop {name unbound : String} {arguments others : List (String × Literal)}
      (hunbound : Named.find? unbound bound = none) (hrest : Drops bound arguments others) :
      Drops bound ((name, .var unbound) :: arguments) others

/-- Whether a literal is a variable that has no value. -/
def Literal.isUndefined (bound : Variables) : Literal → Bool
  | .var name => (Named.find? name bound).isNone
  | _ => false

theorem drops_filter (bound : Variables) (arguments : List (String × Literal)) :
    Drops bound arguments (arguments.filter fun argument => !argument.2.isUndefined bound) := by
  induction arguments with
  | nil => exact .nil
  | cons argument rest ih =>
      obtain ⟨name, literal⟩ := argument
      cases hundefined : literal.isUndefined bound with
      | false =>
          rw [List.filter_cons_of_pos (by simp [hundefined])]
          exact .keep ih
      | true =>
          rw [List.filter_cons_of_neg (by simp [hundefined])]
          cases literal with
          | var unbound => exact .drop (Option.isNone_iff_eq_none.mp hundefined) ih
          | _ => cases hundefined

mutual

/-- A selection without the arguments, at any depth, that have no value. -/
def Selection.definedOne (bound : Variables) : Selection → Selection
  | .field name asName arguments directives children =>
    .field name asName (arguments.filter fun argument => !argument.2.isUndefined bound) directives
      (defined bound children)
  | .spread fragment directives => .spread fragment directives
  | .group condition directives children => .group condition directives (defined bound children)

/-- Selections without the arguments, at any depth, that have no value. -/
def Selection.defined (bound : Variables) : List Selection → List Selection
  | [] => []
  | selection :: rest => definedOne bound selection :: defined bound rest

end

theorem Selection.defined_rewrites (bound : Variables) : ∀ selections : List Selection,
    Selection.Rewrites (Drops bound) selections (Selection.defined bound selections)
  | [] => by
    rw [defined]
    exact .nil
  | .field _ _ arguments _ children :: rest => by
    rw [defined, definedOne]
    exact .field (drops_filter bound arguments) (defined_rewrites bound children)
      (defined_rewrites bound rest)
  | .spread _ _ :: rest => by
    rw [defined, definedOne]
    exact .spread (defined_rewrites bound rest)
  | .group _ _ children :: rest => by
    rw [defined, definedOne]
    exact .group (defined_rewrites bound children) (defined_rewrites bound rest)

namespace Document

/-- The document without the arguments that have no value. -/
def defined (bound : Variables) (document : Document) : Document where
  operations := document.operations.map fun operation =>
    { operation with selections := Selection.defined bound operation.selections }
  fragments := document.fragments.map fun fragment =>
    (fragment.1, Selection.defined bound fragment.2)

theorem defined_rewrites (bound : Variables) (document : Document) :
    document.Rewrites (Drops bound) (document.defined bound) where
  operations := List.forall₂_map_right_iff.mpr (List.forall₂_same.mpr fun operation _ =>
    ⟨rfl, rfl, Selection.defined_rewrites bound operation.selections⟩)
  fragments := List.forall₂_map_right_iff.mpr (List.forall₂_same.mpr fun fragment _ =>
    ⟨rfl, Selection.defined_rewrites bound fragment.2⟩)

/-- Leaving arguments out changes no variable. -/
theorem bound_defined (bound : Variables) (document : Document) (operationName : Option String)
    (bindings : Variables) :
    (document.defined bound).bound operationName bindings
      = document.bound operationName bindings := by
  have hselected : Both
      (fun operation other : Operation => operation.name = other.name
        ∧ operation.declared = other.declared)
      (document.selectOperation operationName)
      ((document.defined bound).selectOperation operationName) :=
    selectOperation_both (fun _ _ h => h.1)
      (List.forall₂_map_right_iff.mpr (List.forall₂_same.mpr fun _ _ => ⟨rfl, rfl⟩)) operationName
  unfold Document.bound Operation.withDefaults
  rcases hselected.elim with ⟨error, herror, herror'⟩ | ⟨operation, other, hok, hok', -, hdeclared⟩
  · rw [herror, herror']
  · rw [hok, hok']
    dsimp only
    rw [hdeclared]

end Document

/-! ### Queries that skip -/

/-- Whether queries are the same, and skip what is undefined. -/
def Query.SameSkipping (query other : Query) : Prop := query = other ∧ query.skipsUndefined = true

theorem Keeps.skipping {edits : List Edit} (h : Keeps Query.skipsUndefined edits) :
    Carries Query.SameSkipping edits edits := by
  rintro query _ ⟨rfl, hskips⟩
  exact ⟨rfl, (h query).trans hskips⟩

theorem Query.SameSkipping.alike {query other : Query} (h : query.SameSkipping other) :
    query.Alike True other := h.1 ▸ .refl query

namespace Plan

variable {bound : Variables} {arguments others : List (String × Literal)}

/-- An argument without a value does nothing to a query that skips it. -/
theorem argumentEdits_none (entity : Entity) (name : String) :
    Carries Query.SameSkipping (argumentEdits entity name none) [] := by
  rintro query _ ⟨rfl, hskips⟩
  unfold argumentEdits
  cases entity.filter? name with
  | none => exact ⟨rfl, hskips⟩
  | some filter =>
      show Query.SameSkipping (query.apply (.unlessSkipping (filter none))) query
      rw [Query.apply, if_pos hskips]
      exact ⟨rfl, hskips⟩

/-- **Arguments without a value may be left out** where queries skip what is undefined. -/
theorem allArgumentEdits_drops {entity : Entity}
    (hfilters : entity.FiltersKeep Query.skipsUndefined)
    (h : Drops bound arguments others) :
    Both (Carries Query.SameSkipping) (allArgumentEdits bound entity arguments)
      (allArgumentEdits bound entity others) := by
  induction h with
  | nil => exact .ok .nil
  | @keep argument arguments others _ ih =>
      have hvalue : Both Eq (argumentValue bound argument.2) (argumentValue bound argument.2) :=
        .same _ fun _ _ => rfl
      refine hvalue.bind fun value _ _ _ hsame => ih.bind fun edits edits' _ _ hedits => .pure ?_
      rw [← hsame]
      have hkeeps : Keeps Query.skipsUndefined (argumentEdits entity argument.1 value) :=
        argumentEdits_all (Keeps.composes Query.skipsUndefined) hfilters argument.1 value
      exact hkeeps.skipping.append hedits
  | @drop name unbound arguments others hunbound _ ih =>
      have hvalue : argumentValue bound (.var unbound) = .ok none := by
        unfold argumentValue
        rw [Literal.resolve, hunbound]
      rw [allArgumentEdits, hvalue]
      rcases ih.elim with ⟨error, herror, herror'⟩ | ⟨edits, edits', hok, hok', hedits⟩
      · rw [herror, herror']
        exact .error error
      · rw [hok, hok']
        exact .ok ((argumentEdits_none entity name).append hedits)

/-! ### Loads -/

variable {context : PlanContext}

/-- A relation's modifiers can be named with its undefined arguments exactly if they can without. -/
theorem nameModifiers_drops {entity : Entity} (hfilters : entity.FiltersKeep Query.skipsUndefined)
    {children below : Selected} (h : Drops context.bindings arguments others)
    (hchildren : children.Rewrites (Drops context.bindings) below) (before before' : Naming) :
    Both (fun _ _ => True ∧ True) (nameModifiers context entity arguments children before)
      (nameModifiers context entity others below before') := by
  have hprojection : Both (fun _ _ => True) (projectionModifier context entity children)
      (projectionModifier context entity below) := by
    rw [projectionModifier_rewrites rfl _ hchildren]
    exact .same _ fun _ _ => trivial
  exact hprojection.bind fun _ _ _ _ _ =>
    (argumentModifier_both (allArgumentEdits_drops hfilters h)).bind fun _ _ _ _ _ =>
      .pure ⟨trivial, trivial⟩

/-- **Loads of fields with and without undefined arguments attach the same** to queries that skip.
-/
theorem compile_drops (hbuilt : context.registry.Built)
    (hfilters : ∀ entity ∈ context.registry.entities, entity.FiltersKeep Query.skipsUndefined)
    (hprefixes : Settings.checkPrefixes context.settings.filterPrefixes = .ok ())
    (hreadable : Readable context.settings.filterPrefixes) {entity : Entity}
    (hentity : entity ∈ context.registry.entities) {selected other : Selected}
    (hnamed : selected.WellNamed) (h : selected.Rewrites (Drops context.bindings) other) :
    Both (Engine.LoadsAgree True Query.SameSkipping) (compile context entity selected)
      (compile context entity other) := by
  have hkeep := Registry.entity_all hfilters fun _ _ hfilter => nomatch hfilter
  have hself : ∀ query : Query, query.skipsUndefined = true → query.SameSkipping query :=
    fun _ hskips => ⟨rfl, hskips⟩
  have hselect : ∀ columns, Carries Query.SameSkipping [.select columns] [.select columns] :=
    fun _ => Keeps.skipping (.single fun _ => rfl)
  have hcompiled := compile_both rfl (fun _ _ => True) (fun _ _ => True)
    (fun id {_ _ _ _ before before'} hdrops hchildren _ =>
      nameModifiers_drops (hkeep id) hdrops hchildren before before') h entity trivial
  rcases hcompiled.elim with ⟨error, herror, herror'⟩ | ⟨load, load', hok, hok', hnodes, -⟩
  · rw [herror, herror']
    exact .error error
  · rw [hok, hok']
    refine .ok ⟨hnodes, ?_⟩
    rintro query _ ⟨-, hskips⟩
    obtain ⟨-, -, -, -, hmirrors⟩ := compile_numbered hprefixes hok
    obtain ⟨-, -, -, -, hmirrors'⟩ := compile_numbered hprefixes hok'
    rw [hskips, compile_parse hbuilt hprefixes hreadable hentity hnamed hok,
      compile_parse hbuilt hprefixes hreadable hentity (h.wellNamed hnamed) hok']
    exact .ok (hmirrors.sameNodes Query.SameSkipping.alike hself hselect rfl rfl
      (fun id {_ _} hdrops => argumentModifier_both (allArgumentEdits_drops (hkeep id) hdrops))
      hmirrors' h)

end Plan

/-! ### Requests -/

namespace Engine

variable {engine : Engine}

/-- A root field is planned the same without undefined arguments. -/
theorem Carrying.plansAgree_drops (hcarrying : engine.Carrying True Query.SameSkipping)
    (hbuilt : engine.registry.Built)
    (hfilters : ∀ entity ∈ engine.registry.entities, entity.FiltersKeep Query.skipsUndefined)
    (hprefixes : engine.settings.query.filterPrefixes = {}) {root : BoundRootField}
    {selection selection' : RootSelection} (hroot : engine.rootField? selection.name = some root)
    (hentity : engine.registry.entity root.entity ∈ engine.registry.entities)
    (hnamed : (selection.children ()).WellNamed) {bound : Variables}
    (hselection : selection.Rewrites (Drops bound) selection') {context : RequestContext}
    {payload payload' : Json} :
    engine.PlansAgree True root ⟨selection, bound, payload, context⟩
      ⟨selection', bound, payload', context⟩ := by
  refine hcarrying.plansAgree hroot rfl hselection.children ?_ ?_
  · refine Plan.compile_drops hbuilt hfilters ?_ ?_ hentity hnamed hselection.children
    · exact hprefixes ▸ Plan.checkPrefixes_default
    · exact hprefixes ▸ Plan.readable_default
  · exact Plan.argumentModifier_both
      (Plan.allArgumentEdits_drops (hfilters _ hentity) hselection.arguments)

/-- **Arguments without a value are erased where queries skip what is undefined.**  Without a cache
or a fetch of its own, an operation of a document is answered the same, by the same statements,
with and without any of the arguments of its fields, at any depth, whose value is a variable that
neither the request nor a default gives one; in particular without all of them. -/
theorem execute_defined {registrations : List Registration} {database : Database}
    (hregistry : Registry.build registrations = .ok database.registry) {settings : Settings}
    (hskips : settings.query.skipUndefined = true)
    (hprefixes : settings.query.filterPrefixes = {}) {fields : List RootField} {hook : QueryHook}
    (hengine : build database.registry settings database.execute fields hook false = .ok engine)
    (hhook : ∀ context, Keeps Query.skipsUndefined (hook context))
    (hfields : ∀ field ∈ fields, Keeps Query.skipsUndefined field.modifier.toList)
    (hfilters : ∀ registration ∈ registrations, ∀ name filter,
      (name, filter) ∈ registration.filters → ∀ value, Keeps Query.skipsUndefined (filter value))
    {text : String} {document : Document} (hdocument : Document.parse text = .ok document)
    {operationName : Option String} {bindings : Variables}
    (hfetches : engine.FetchesAll document operationName bindings) :
    let bound := document.bound operationName bindings
    document.Rewrites (Drops bound) (document.defined bound)
      ∧ (document.defined bound).bound operationName bindings = bound
      ∧ ∀ other, document.Rewrites (Drops bound) other →
          other.bound operationName bindings = bound →
          ∀ context payload payload' backend backend',
            Execution.Agrees True
                (engine.executeDocument document operationName bindings payload context backend).1
                (engine.executeDocument other operationName bindings payload' context backend').1
              ∧ (Asks payload document operationName bindings →
                  Asks payload' other operationName bindings →
                  Execution.Agrees True (engine.execute payload context backend).1
                    (engine.execute payload' context backend').1) := by
  intro bound
  refine ⟨document.defined_rewrites bound, document.bound_defined bound operationName bindings, ?_⟩
  intro other hrewrites hbound context payload payload' backend backend'
  have hbuilt := Registry.build_built hregistry
  obtain ⟨hparts, hexecutor, rfl, rfl, hcache⟩ := build_parts hengine
  have hcarrying : engine.Carrying True Query.SameSkipping := {
    alike := Query.SameSkipping.alike
    hooked := fun entity context => ⟨rfl, (hhook context _).trans hskips⟩
    select := fun columns => Keeps.skipping (.single fun _ => rfl)
    modifier := fun name root hroot => by
      obtain ⟨-, field, hfield, hmodifier⟩ := build_roots hbuilt hengine hroot
      exact hmodifier ▸ (hfields field hfield).skipping }
  have hkeep : ∀ entity ∈ database.registry.entities, entity.FiltersKeep Query.skipsUndefined :=
    Registry.filters_all (Keeps.composes Query.skipsUndefined)
      (fun _ hsimple => hsimple.keeps_skipsUndefined) hregistry hfilters
  rw [← hparts] at hbuilt hkeep
  refine executeDocument_agrees hexecutor hcache (Drops bound) (Document.parse_read hdocument)
    hrewrites (fun _ hdrops => hdrops) hfetches ?_ context payload payload' backend backend'
  intro selection selection' root hselection hnamed hroot context payload payload'
  have hentity := (build_roots (Registry.build_built hregistry) hengine hroot).1
  rw [hbound]
  exact hcarrying.plansAgree_drops hbuilt hkeep hprefixes hroot (hparts ▸ hentity) hnamed hselection

end Engine

/-! ### Authors without a title to look for -/

namespace Blog

/-- The settings under which queries skip what is undefined. -/
def skipping : Settings := { query := { skipUndefined := true } }

/-- Asks for authors and their posts by variables, one of which alone has a value. -/
def undefinedText : String :=
  "query ($word: String = \"%e%\") \x7b authors(name: $name) \x7b name "
    ++ "posts(titleLike: $word, title: $title) \x7b title tags(label: $label) \x7b label \x7d "
    ++ "\x7d \x7d \x7d"

/-- Asks for the same by the variable that has a value. -/
def definedText : String :=
  "query ($word: String = \"%e%\") \x7b authors \x7b name posts(titleLike: $word) "
    ++ "\x7b title tags \x7b label \x7d \x7d \x7d \x7d"

def undefinedDocument : Document where
  operations := [⟨.query, none, [⟨"word", some (.string "%e%")⟩],
    [.field "authors" none [("name", .var "name")] [] [
      .leaf "name",
      .field "posts" none [("titleLike", .var "word"), ("title", .var "title")] [] [
        .leaf "title",
        .field "tags" none [("label", .var "label")] [] [.leaf "label"]]]]⟩]
  fragments := []

set_option maxRecDepth 2000 in
theorem undefined_parsed : Document.parse undefinedText = .ok undefinedDocument := by
  unfold undefinedText
  simp only [Document.parse_eq, String.toList_append, String.reduceToList]
  rfl

theorem undefined_asks : Asks (.obj [("query", .str undefinedText)]) undefinedDocument none [] :=
  ⟨_, rfl, undefined_parsed, rfl, rfl⟩

theorem defined_asks : Asks (.obj [("query", .str definedText)])
    (undefinedDocument.defined (undefinedDocument.bound none [])) none [] := by
  refine .of_text ?_
  unfold definedText
  simp only [String.toList_append, String.reduceToList]
  rfl

end Blog

namespace Engine

/-- Authors, posts and tags are answered alike without the three variables that have no value, by
four statements. -/
theorem execute_defined_blog :
    let engine := (Blog.answering Blog.skipping).uncached
    let document := Blog.undefinedDocument
    let erased := document.defined (document.bound none [])
    let run := (engine.execute (.obj [("query", .str Blog.undefinedText)]) .empty .fresh).1
    let other := (engine.execute (.obj [("query", .str Blog.definedText)]) .empty .fresh).1
    Blog.skipping.query.skipUndefined = true
      ∧ document.Rewrites (Drops (document.bound none [])) erased
      ∧ erased.bound none [] = document.bound none []
      ∧ run.response = other.response ∧ run.activity.statements = other.activity.statements
      ∧ run.activity.statements.length = 4 ∧ run.response.errors.isEmpty = true := by
  obtain ⟨hrewrites, hbound, hanswered⟩ := execute_defined Blog.tables_built
    (show Blog.skipping.query.skipUndefined = true from rfl) rfl
    (show build _ Blog.skipping _ Blog.rootFields (fun _ => []) false
      = .ok (Blog.answering Blog.skipping).uncached from rfl)
    (fun _ => .nil) (fun field hfield => Blog.root_unmodified field hfield ▸ .nil)
    (fun registration hregistration name filter hfilter =>
      absurd (Blog.no_filters registration hregistration ▸ hfilter) (List.not_mem_nil))
    (show Document.parse Blog.undefinedText = .ok Blog.undefinedDocument from
      Blog.undefined_parsed)
    (show FetchesAll _ _ none [] from fun _ _ selection _ =>
      Blog.answering_fetches Blog.skipping selection)
  have hagrees := (hanswered _ hrewrites hbound .empty _ _ .fresh .fresh).2 Blog.undefined_asks
    Blog.defined_asks
  exact ⟨rfl, hrewrites, hbound, hagrees.response, hagrees.statements trivial, by decide +kernel,
    by decide +kernel⟩

end Engine

end GraphFetch
