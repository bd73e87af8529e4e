/-
Documents with and without their fragments.

An operation whose spreads resolve and run in no circle can be written out.  Without a
cache, and unless an entity has a fetch of its own, the executor is then asked the same and
the response is the same, member by member: nothing that is done for a root field sees
whether a fragment brought a field in.

This is a statement about documents.  Texts are read with a bound on their nesting, so a
document that could be read may be too deep to be read once it is written out.
-/
import GraphFetch.Proofs.Engine.Caching
import GraphFetch.Proofs.Engine.RootFields
import GraphFetch.Proofs.Engine.Walks

namespace GraphFetch

/-! ### Documents written out -/

/-- Whether every spread that an operation of a document leads to can be written out. -/
def Document.Spreadable (document : Document) : Prop :=
  ∀ operation ∈ document.operations, document.fragments.Spreadable operation.selections

/-- Whether an operation is another with its selections written out. -/
structure Operation.Inlines (fragments : Fragments) (operation written : Operation) : Prop where
  kind : operation.kind = written.kind
  name : operation.name = written.name
  declared : operation.declared = written.declared
  selections : fragments.Inlines operation.selections written.selections

/-- Whether the operations of a document are those of another, written out.  Which fragments it
keeps does not matter. -/
def Document.Inlines (document written : Document) : Prop :=
  List.Forall₂ (Operation.Inlines document.fragments) document.operations written.operations

theorem Document.Spreadable.inlines {document : Document} (h : document.Spreadable) :
    ∃ written, written.fragments = [] ∧ document.Inlines written := by
  have hall : ∀ operations : List Operation,
      (∀ operation ∈ operations, document.fragments.Spreadable operation.selections) →
      ∃ written, List.Forall₂ (Operation.Inlines document.fragments) operations written := by
    intro operations
    induction operations with
    | nil => exact fun _ => ⟨[], .nil⟩
    | cons operation rest ih =>
        intro hspreadable
        obtain ⟨selections, hselections, -⟩ :=
          (hspreadable operation List.mem_cons_self).writtenWithin (Nat.le_refl _)
        obtain ⟨written, hwritten⟩ := ih fun other hother =>
          hspreadable other (List.mem_cons_of_mem _ hother)
        exact ⟨{ operation with selections } :: written,
          .cons ⟨rfl, rfl, rfl, hselections⟩ hwritten⟩
  obtain ⟨operations, hoperations⟩ := hall document.operations h
  exact ⟨⟨operations, []⟩, rfl, hoperations⟩

/-! ### Root fields written out -/

/-- Whether a field is another with what is selected below it written out. -/
structure WrittenField.Inlines (fragments : Fragments) (field written : WrittenField) : Prop where
  name : field.name = written.name
  asName : field.asName = written.asName
  arguments : field.arguments = written.arguments
  selections : fragments.Inlines field.selections written.selections

namespace Fragments

variable {fragments others : Fragments}

theorem Gathers.append {selections more : List Selection} {fields found : List WrittenField}
    (h : Gathers fragments selections fields) (hmore : Gathers fragments more found) :
    Gathers fragments (selections ++ more) (fields ++ found) := by
  induction h with
  | nil => exact hmore
  | field _ ih => exact .field ih
  | group hchildren _ _ ih =>
      rw [List.append_assoc]
      exact .group hchildren ih
  | spread hbody hinner _ _ ih =>
      rw [List.append_assoc]
      exact .spread hbody hinner ih

/-- Selections gather fields, and written out they gather these written out. -/
theorem Inlines.gathers {selections out : List Selection} (h : Inlines fragments selections out) :
    ∃ found fields, Gathers fragments selections found ∧ Gathers others out fields
      ∧ List.Forall₂ (WrittenField.Inlines fragments) found fields := by
  induction h with
  | nil => exact ⟨[], [], .nil, .nil, .nil⟩
  | field hchildren _ _ ih =>
      obtain ⟨found, fields, hfound, hfields, hboth⟩ := ih
      exact ⟨_, _, .field hfound, .field hfields, .cons ⟨rfl, rfl, rfl, hchildren⟩ hboth⟩
  | spread hbody _ _ ihInner ih =>
      obtain ⟨inner, written, hinner, hwritten, hinside⟩ := ihInner
      obtain ⟨found, fields, hfound, hfields, hboth⟩ := ih
      exact ⟨_, _, .spread hbody hinner hfound, hwritten.append hfields,
        List.rel_append hinside hboth⟩
  | group _ _ ihChildren ih =>
      obtain ⟨inner, written, hinner, hwritten, hinside⟩ := ihChildren
      obtain ⟨found, fields, hfound, hfields, hboth⟩ := ih
      exact ⟨_, _, .group hinner hfound, hwritten.append hfields, List.rel_append hinside hboth⟩

/-- The root fields of selections and of what is written out for them: both are found, and below a
field and the written one are the same fields. -/
theorem Spreadable.rootFields {selections out : List Selection}
    (h : Spreadable fragments selections)
    (hout : Inlines fragments selections out) (others : Fragments) :
    ∃ found fields, Gathers fragments selections found
      ∧ fragments.rootFields selections = .ok found ∧ others.rootFields out = .ok fields
      ∧ List.Forall₂ (fun field written => WrittenField.Inlines fragments field written
          ∧ ∀ depth, fragments.length ≤ depth →
            fragments.expandWithin depth field.selections = others.expand written.selections)
        found fields := by
  obtain ⟨found, fields, hfound, hfields, hboth⟩ := @Inlines.gathers fragments others _ _ hout
  refine ⟨found, fields, hfound, hfound.rootFields h.acyclic,
    hfields.rootFields hout.allFields.acyclic, ?_⟩
  refine ((List.forall₂_and_left _ _).mpr ⟨hfound.spreadable h, hboth⟩).imp
    fun field written hfield => ⟨hfield.2, fun depth hdepth => ?_⟩
  exact hfield.1.fields_written hfield.2.selections hdepth others _

end Fragments

/-- Whether the four passes over an operation, each following the spreads itself, find the root
fields of one that is written out and do below them what is done there. -/
def Operation.PassesAgree (fragments others : Fragments) (operation written : Operation) : Prop :=
  ∀ depth, fragments.length ≤ depth → ∃ found fields,
    fragments.rootsWithin depth operation.selections = .ok found
      ∧ others.rootFields written.selections = .ok fields
      ∧ List.Forall₂ (WrittenField.Matches fragments others depth) found fields

theorem Operation.Inlines.passesAgree {fragments : Fragments} {operation written : Operation}
    (h : operation.Inlines fragments written)
    (hspreadable : fragments.Spreadable operation.selections) (others : Fragments) :
    operation.PassesAgree fragments others written := by
  intro depth hdepth
  obtain ⟨found, fields, hgathers, -, hfields, hboth⟩ :=
    hspreadable.rootFields h.selections others
  refine ⟨found, fields, hgathers.rootsWithin (hspreadable.acyclic.onward hdepth), hfields, ?_⟩
  refine hboth.imp fun field written hfield => ?_
  exact .of_fields hfield.1.name hfield.1.asName hfield.1.arguments (hfield.2 depth hdepth)

/-! ### Requests -/

/-- Whether requests are accepted for the same variables and root fields, however written. -/
structure AcceptedRequest.Alike (request other : AcceptedRequest) : Prop where
  bindings : request.bindings = other.bindings
  fields : List.Forall₂ RootSelection.Alike request.fields other.fields

/-- A document and what it is written out as are accepted alike. -/
theorem AcceptedRequest.ofDocument_inlines {document written : Document}
    (hdocument : document.Spreadable) (hwritten : document.Inlines written)
    (operationName : Option String) (bindings : Variables) :
    Outcome.Both Alike (ofDocument document operationName bindings)
      (ofDocument written operationName bindings) := by
  have hselected : Outcome.Both (Operation.Inlines document.fragments)
      (document.selectOperation operationName) (written.selectOperation operationName) :=
    Document.selectOperation_both (fun _ _ h => h.name) hwritten operationName
  refine (hselected.mapError EngineError.request).bind fun operation other hoperation _ hboth => ?_
  have hmember := Document.selectOperation_mem (Outcome.mapError_ok.mp hoperation)
  obtain ⟨found, fields, -, hfound, hfields, hsame⟩ :=
    (hdocument operation hmember).rootFields hboth.selections written.fragments
  have hdefaults : operation.withDefaults bindings = other.withDefaults bindings := by
    unfold Operation.withDefaults
    rw [hboth.declared]
  simp only [hfound, hfields, hdefaults, hboth.kind]
  split
  · exact .error _
  · refine .ok ⟨rfl, ?_⟩
    rw [List.forall₂_map_left_iff, List.forall₂_map_right_iff]
    refine hsame.imp fun field other hfield => ?_
    exact ⟨hfield.1.name, hfield.1.asName, hfield.1.arguments,
      funext fun _ => hfield.2 _ (Nat.le_refl _)⟩

/-! ### Without a cache -/

/-- Steps with the same values wherever they start, one after the other. -/
theorem Backend.bind_value {α β : Type} {first other : StateM Backend α}
    {next next' : α → StateM Backend β} {backend backend' : Backend}
    (hfirst : (first backend).1 = (other backend').1)
    (hnext : ∀ value after after', (next value after).1 = (next' value after').1) :
    ((first >>= next) backend).1 = ((other >>= next') backend').1 := by
  show (next (first backend).1 (first backend).2).1
    = (next' (other backend').1 (other backend').2).1
  rw [hfirst]
  exact hnext _ _ _

namespace Engine

variable {engine : Engine}

/-- Answers what was accepted, or says why nothing was. -/
def executeAccepted (engine : Engine) (accepted : Except EngineError AcceptedRequest)
    (payload : Json)
    (context : RequestContext) : StateM Backend Execution := do
  match accepted with
  | .error error => return ⟨.refused error.message, .none⟩
  | .ok request =>
    let answers ← engine.addAnswers payload context request.bindings request.fields .none
    return ⟨answers.toResponse, answers.activity⟩

/-- Answers an operation of a document. -/
def executeDocument (engine : Engine) (document : Document) (operationName : Option String)
    (bindings : Variables) (payload : Json) (context : RequestContext) : StateM Backend Execution :=
  engine.executeAccepted (AcceptedRequest.ofDocument document operationName bindings)
    payload context

theorem execute_eq (payload : Json) (context : RequestContext) : engine.execute payload context
    = engine.executeAccepted (AcceptedRequest.ofJson payload) payload context := rfl

theorem execute_asks {payload : Json} {document : Document} {operationName : Option String}
    {bindings : Variables} (h : Asks payload document operationName bindings)
    (context : RequestContext) : engine.execute payload context
      = engine.executeDocument document operationName bindings payload context := by
  unfold executeDocument
  rw [execute_eq, h.accepted]

theorem slot?_none (hcache : engine.hasCache = false) (root : BoundRootField)
    (input : ResolveInput) : engine.slot? root input = none := by
  unfold slot?
  simp [hcache]

theorem shape_alike {selection other : RootSelection} (h : selection.Alike other) (value : Json) :
    engine.shape selection value = engine.shape other value := by
  unfold shape
  rw [h.name, h.children]

section

variable {selection other : RootSelection} (halike : selection.Alike other)
  (hfetches : engine.Fetches selection)
include halike hfetches

/-- What a root field is answered without a cache depends neither on how it is written nor on the
payload or the backend. -/
theorem answer_free (hcache : engine.hasCache = false) (bindings : Variables)
    (context : RequestContext) (payload payload' : Json) (backend backend' : Backend) :
    (engine.answer ⟨selection, bindings, payload, context⟩ backend).1
      = (engine.answer ⟨other, bindings, payload', context⟩ backend').1 := by
  have hresolve : (engine.resolve ⟨selection, bindings, payload, context⟩ backend).1
      = (engine.resolve ⟨other, bindings, payload', context⟩ backend').1 := by
    cases hroot : engine.rootField? selection.name with
    | none =>
        have hrootOther : engine.rootField? other.name = none := halike.name ▸ hroot
        rw [resolve_none hroot, resolve_none hrootOther]
        dsimp only
        rw [halike.name]
    | some root =>
        have hrootOther : engine.rootField? other.name = some root := halike.name ▸ hroot
        have hcustom := hfetches root hroot
        have hfetch : engine.fetch root ⟨selection, bindings, payload, context⟩
          = engine.fetch root ⟨other, bindings, payload', context⟩ := fetch_eq halike rfl rfl
        rw [resolve_fetch hroot hcustom, resolve_fetch hrootOther hcustom, slot?_none hcache,
          slot?_none hcache, hfetch]
        dsimp only
        rw [Backend.fetch_none, Backend.fetch_none]
  rw [answer_eq, answer_eq, hresolve]
  simp only [shape_alike halike]

theorem plain_alike (bindings : Variables) (context : RequestContext) (payload payload' : Json) :
    engine.plain ⟨selection, bindings, payload, context⟩
      = engine.plain ⟨other, bindings, payload', context⟩ := by
  have hfree : engine.uncached.hasCache = false := rfl
  have hfetchesUncached : engine.uncached.Fetches selection := hfetches
  unfold plain
  rw [answer_free halike hfetchesUncached hfree]

theorem addAnswer_free (hcache : engine.hasCache = false) (bindings : Variables)
    (context : RequestContext) (payload payload' : Json) (answers : Answers)
    (backend backend' : Backend) :
    (engine.addAnswer ⟨selection, bindings, payload, context⟩ answers backend).1
      = (engine.addAnswer ⟨other, bindings, payload', context⟩ answers backend').1 := by
  unfold addAnswer
  dsimp only
  rw [← halike.name, ← halike.key]
  split
  · rfl
  · refine Backend.bind_value (answer_free halike hfetches hcache _ _ _ _ _ _)
      fun resolved _ _ => ?_
    cases resolved.result <;> rfl

end

theorem addAnswers_free (hcache : engine.hasCache = false) {fields others : List RootSelection}
    (halike : List.Forall₂ RootSelection.Alike fields others)
    (hfetches : ∀ selection ∈ fields, engine.Fetches selection) (bindings : Variables)
    (context : RequestContext) (payload payload' : Json) (answers : Answers)
    (backend backend' : Backend) :
    (engine.addAnswers payload context bindings fields answers backend).1
      = (engine.addAnswers payload' context bindings others answers backend').1 := by
  induction halike generalizing answers backend backend' with
  | nil => rfl
  | cons hfirst _ ih =>
      rw [List.forall_mem_cons] at hfetches
      rw [addAnswers, addAnswers]
      exact Backend.bind_value (addAnswer_free hfirst hfetches.1 hcache _ _ _ _ _ _ _)
        (ih hfetches.2)

/-- Whether no root field of an operation is answered by a fetch of its own. -/
def FetchesAll (engine : Engine) (document : Document) (operationName : Option String)
    (bindings : Variables) : Prop :=
  ∀ request, AcceptedRequest.ofDocument document operationName bindings = .ok request →
    ∀ selection ∈ request.fields, engine.Fetches selection

/-- Documents that are accepted alike are answered the same. -/
theorem executeDocument_free (hcache : engine.hasCache = false) {document other : Document}
    {operationName : Option String} {bindings : Variables}
    (halike : Outcome.Both AcceptedRequest.Alike
      (AcceptedRequest.ofDocument document operationName bindings)
      (AcceptedRequest.ofDocument other operationName bindings))
    (hfetches : engine.FetchesAll document operationName bindings)
    (context : RequestContext) (payload payload' : Json) (backend backend' : Backend) :
    (engine.executeDocument document operationName bindings payload context backend).1
      = (engine.executeDocument other operationName bindings payload' context backend').1 := by
  unfold executeDocument executeAccepted
  rcases halike.elim with ⟨error, herror, herror'⟩ | ⟨request, accepted, hok, hok', hboth⟩
  · rw [herror, herror']
    rfl
  · rw [hok, hok']
    dsimp only
    rw [← hboth.bindings]
    refine Backend.bind_value ?_ fun _ _ _ => rfl
    exact addAnswers_free hcache hboth.fields (hfetches request hok) _ _ _ _ _ _ _

/-- **Fragments are transparent.**  A document whose spreads resolve and run in no circle can be
written out, into operations that hold nothing but fields.  Each of the four passes over the
document, following spreads itself, does what is done with the document written out; and without a
cache or a fetch of its own the two are answered the same, with the same queries and statements in
the same order. -/
theorem execute_inlined {document : Document} (hdocument : document.Spreadable)
    (hcache : engine.hasCache = false) {operationName : Option String} {bindings : Variables}
    (hfetches : engine.FetchesAll document operationName bindings) :
    (∃ written, written.fragments = [] ∧ document.Inlines written)
      ∧ ∀ written, document.Inlines written →
        List.Forall₂ (fun operation other => Fragments.AllFields other.selections
            ∧ operation.PassesAgree document.fragments written.fragments other)
          document.operations written.operations
          ∧ ∀ context payload payload' backend backend',
              (engine.executeDocument document operationName bindings payload context backend).1
                  = (engine.executeDocument written operationName bindings payload' context
                      backend').1
                ∧ (Asks payload document operationName bindings →
                    Asks payload' written operationName bindings →
                    (engine.execute payload context backend).1
                      = (engine.execute payload' context backend').1) := by
  refine ⟨hdocument.inlines, fun written hwritten => ⟨?_, ?_⟩⟩
  · have hboth := (List.forall₂_and_left _ _).mpr ⟨hdocument, hwritten⟩
    exact hboth.imp fun operation other h => ⟨h.2.selections.allFields, h.2.passesAgree h.1 _⟩
  · intro context payload payload' backend backend'
    have halike := AcceptedRequest.ofDocument_inlines hdocument hwritten operationName bindings
    have hexecuted := executeDocument_free hcache halike hfetches context payload payload' backend
      backend'
    refine ⟨hexecuted, fun hasks hasks' => ?_⟩
    rw [execute_asks hasks, execute_asks hasks']
    exact hexecuted

end Engine

/-! ### Authors in fragments -/

namespace Blog

/-- Asks for authors in a fragment, for their posts in another that it spreads, and for tags in a
group. -/
def spreadingPayload : Json := .obj [("query", .str
  ("\x7b ...Writers ... \x7b tags \x7b label \x7d \x7d \x7d "
    ++ "fragment Works on Author \x7b posts \x7b title \x7d \x7d "
    ++ "fragment Writers on Query \x7b authors \x7b email ...Works \x7d \x7d"))]

def writtenPayload : Json := .obj [("query", .str
  "\x7b authors \x7b email posts \x7b title \x7d \x7d tags \x7b label \x7d \x7d")]

def spreadingDocument : Document where
  operations := [⟨.query, none, [],
    [.spread "Writers" [], .group none [] [.field "tags" none [] [] [.leaf "label"]]]⟩]
  fragments := [
    ("Works", [.field "posts" none [] [] [.leaf "title"]]),
    ("Writers", [.field "authors" none [] [] [.leaf "email", .spread "Works" []]])]

def writtenDocument : Document where
  operations := [⟨.query, none, [],
    [.field "authors" none [] [] [.leaf "email", .field "posts" none [] [] [.leaf "title"]],
      .field "tags" none [] [] [.leaf "label"]]⟩]
  fragments := []

set_option maxRecDepth 2000 in
theorem spreading_asks : Asks spreadingPayload spreadingDocument none [] := by
  refine .of_text ?_
  simp only [String.toList_append, String.reduceToList]
  rfl

theorem written_asks : Asks writtenPayload writtenDocument none [] := by
  refine .of_text ?_
  simp only [String.reduceToList]
  rfl

theorem spreadingDocument_spreadable : spreadingDocument.Spreadable := by
  intro operation hoperation
  obtain rfl := List.mem_singleton.mp hoperation
  let rank : String → Nat := fun name => if name = "Works" then 0 else 1
  exact Fragments.spreadable_of_rank rank (by decide) (by decide) (by decide)

theorem spreadingDocument_inlines : spreadingDocument.Inlines writtenDocument := by
  have hleaf : ∀ name, spreadingDocument.fragments.Inlines [.leaf name] [.leaf name] :=
    fun name => .field .nil .nil
  have hworks : spreadingDocument.fragments.Inlines [.spread "Works" []]
      [.field "posts" none [] [] [.leaf "title"]] := .spread rfl (.field (hleaf "title") .nil) .nil
  have hwriters : spreadingDocument.fragments.Inlines
      [.field "authors" none [] [] [.leaf "email", .spread "Works" []]]
      [.field "authors" none [] [] [.leaf "email", .field "posts" none [] [] [.leaf "title"]]] :=
    .field (.field .nil hworks) .nil
  refine .cons ⟨rfl, rfl, rfl, ?_⟩ .nil
  exact .spread rfl hwriters (.group (.field (hleaf "label") .nil) .nil)

/-- No root field of the blog is answered by a fetch of its own. -/
theorem answering_fetches (settings : Settings) (selection : RootSelection) :
    (answering settings).Fetches selection := by
  have hnone : ∀ field ∈ (answering {}).rootFields,
      ((tables.registry.entity field.2.entity).customFetch? field.2.cardinality).isNone = true :=
    List.all_eq_true.mp (by decide +kernel)
  intro root hroot
  have hfind : Named.find? selection.name (answering {}).rootFields = some root := hroot
  exact Option.isNone_iff_eq_none.mp (hnone _ (Named.mem_of_find? hfind))

end Blog

namespace Engine

/-- Authors, their posts and tags are answered alike, by three statements. -/
theorem execute_inlined_writers :
    let spread := ((Blog.answering {}).uncached.execute Blog.spreadingPayload .empty .fresh).1
    let written := ((Blog.answering {}).uncached.execute Blog.writtenPayload .empty .fresh).1
    Blog.spreadingDocument.Spreadable ∧ Blog.spreadingDocument.Inlines Blog.writtenDocument
      ∧ Asks Blog.spreadingPayload Blog.spreadingDocument none []
      ∧ Asks Blog.writtenPayload Blog.writtenDocument none []
      ∧ spread = written ∧ written.activity.statements.length = 3
      ∧ written.response.errors.isEmpty = true := by
  have hfetches : (Blog.answering {}).uncached.FetchesAll Blog.spreadingDocument none [] :=
    fun _ _ selection _ => Blog.answering_fetches {} selection
  obtain ⟨-, hwritten⟩ := execute_inlined Blog.spreadingDocument_spreadable
    (show (Blog.answering {}).uncached.hasCache = false from rfl) hfetches
  obtain ⟨-, hexecuted⟩ := hwritten _ Blog.spreadingDocument_inlines
  refine ⟨Blog.spreadingDocument_spreadable, Blog.spreadingDocument_inlines, Blog.spreading_asks,
    Blog.written_asks, ?_, by decide +kernel, by decide +kernel⟩
  exact (hexecuted .empty Blog.spreadingPayload Blog.writtenPayload .fresh .fresh).2
    Blog.spreading_asks Blog.written_asks

end Engine

end GraphFetch
