/-
Root fields on their own.

Root fields are answered one after the other, into one response.  Without a cache none of them
leaves anything behind that another could see, and if their response keys are distinct each adds
to the end of what is there.  So a response is put together from what each root field is answered
alone: a field that fails has its own error and null for its value, and takes nothing from the
others.

A request is reduced to one of its root fields by a document with nothing else in it than the
field as it is written, under the same fragments.  A fetch of an entity's own sees the same field
there, and could tell the difference only by reading the text of the document.
-/
import GraphFetch.Proofs.Engine.Inlined

namespace GraphFetch

/-! ### Texts of documents -/

/-- A payload with nothing for the text of its document, and otherwise as it is. -/
def Json.withoutText : Json → Json
  | .obj members =>
    .obj (members.map fun member => if member.1 = "query" then (member.1, .null) else member)
  | .arr (_ :: rest) => .arr (.null :: rest)
  | payload => payload

/-- Whether a fetch does not read the text of the document that it is for. -/
def CustomFetch.IgnoresText (custom : CustomFetch) : Prop :=
  ∀ (request : FetchRequest) (payload : Json), payload.withoutText = request.payload.withoutText →
    custom { request with payload } = custom request

/-! ### What a response shows of one root field -/

/-- What a root field is answered, as a response shows it. -/
structure FieldShare where
  value : Json
  errors : List ResponseError
  cache : List (String × CacheStatus)

namespace RootSelection

/-- What a response shows of a root field with an outcome; the name of the type is known without. -/
def share (selection : RootSelection) (outcome : Except EngineError (Json × CacheStatus)) :
    FieldShare :=
  if selection.name = "__typename" then ⟨.str "Query", [], []⟩
  else match outcome with
    | .ok (value, status) => ⟨value, [], [(selection.key, status)]⟩
    | .error error => ⟨.null, [⟨error.message, [selection.key]⟩], []⟩

theorem share_type {selection : RootSelection} (h : selection.name = "__typename")
    (outcome : Except EngineError (Json × CacheStatus)) :
    selection.share outcome = ⟨.str "Query", [], []⟩ := by
  unfold share
  rw [if_pos h]

theorem share_ok {selection : RootSelection} (h : selection.name ≠ "__typename") (value : Json)
    (status : CacheStatus) :
    selection.share (.ok (value, status)) = ⟨value, [], [(selection.key, status)]⟩ := by
  unfold share
  rw [if_neg h]

theorem share_error {selection : RootSelection} (h : selection.name ≠ "__typename")
    (error : EngineError) :
    selection.share (.error error) = ⟨.null, [⟨error.message, [selection.key]⟩], []⟩ := by
  unfold share
  rw [if_neg h]

variable (selection : RootSelection) (outcome : Except EngineError (Json × CacheStatus))

/-- A root field that fails shows null and one error, which names it. -/
theorem share_failed (h : (selection.share outcome).errors ≠ []) :
    (selection.share outcome).value = .null
      ∧ ∃ message, (selection.share outcome).errors = [⟨message, [selection.key]⟩] := by
  by_cases htype : selection.name = "__typename"
  · rw [share_type htype] at h
    exact absurd rfl h
  · cases outcome with
    | ok answered =>
        rw [share_ok htype] at h
        exact absurd rfl h
    | error error =>
        rw [share_error htype]
        exact ⟨rfl, _, rfl⟩

/-- The errors that a root field shows are its own. -/
theorem share_errors_path :
    ∀ error ∈ (selection.share outcome).errors, error.path = [selection.key] := by
  intro error herror
  obtain ⟨-, message, heq⟩ := selection.share_failed outcome (List.ne_nil_of_mem herror)
  rw [heq] at herror
  rw [List.mem_singleton.mp herror]

/-- How the cache behaved is shown of the root fields that do not fail, the names of types apart. -/
theorem share_cache : Named.names (selection.share outcome).cache
    = if (selection.share outcome).errors.isEmpty && selection.name != "__typename"
      then [selection.key] else [] := by
  by_cases htype : selection.name = "__typename"
  · simp [share_type htype, htype]
  · cases outcome with
    | ok answered => simp [share_ok htype, htype, Named.names]
    | error error => simp [share_error htype]

theorem names_cache (outcome : RootSelection → Except EngineError (Json × CacheStatus))
    (fields : List RootSelection) :
    Named.names (fields.flatMap fun selection => (selection.share (outcome selection)).cache)
      = (fields.filter fun selection => (selection.share (outcome selection)).errors.isEmpty
          && selection.name != "__typename").map key := by
  induction fields with
  | nil => rfl
  | cons first rest ih =>
      rw [List.flatMap_cons, Named.names_append, ih, first.share_cache, List.filter_cons]
      split <;> rfl

end RootSelection

/-! ### What answers hold of the root fields so far -/

/-- Whether answers hold just what some root fields are answered, in their order. -/
structure Answers.Show (answers : Answers)
    (outcome : RootSelection → Except EngineError (Json × CacheStatus))
    (fields : List RootSelection) : Prop where
  data : answers.data
    = fields.map fun selection => (selection.key, (selection.share (outcome selection)).value)
  errors : answers.errors
    = fields.flatMap fun selection => (selection.share (outcome selection)).errors
  cache : answers.cache
    = fields.flatMap fun selection => (selection.share (outcome selection)).cache

namespace Answers

variable {answers : Answers} {outcome : RootSelection → Except EngineError (Json × CacheStatus)}
  {fields : List RootSelection}

theorem Show.none : Answers.none.Show outcome [] := ⟨rfl, rfl, rfl⟩

theorem Show.names (h : answers.Show outcome fields) :
    Named.names answers.data = fields.map RootSelection.key := by
  rw [h.data, Named.names, List.map_map]
  rfl

/-- No key but those of the root fields so far is among the statuses. -/
theorem Show.cache_notMem (h : answers.Show outcome fields) {key : String}
    (hkey : key ∉ fields.map RootSelection.key) : key ∉ Named.names answers.cache := by
  rw [h.cache, RootSelection.names_cache]
  intro hmem
  obtain ⟨selection, hselection, rfl⟩ := List.mem_map.mp hmem
  exact hkey (List.mem_map_of_mem (List.mem_filter.mp hselection).1)

/-- Answers that hold one more root field, with a new key, at the end. -/
theorem Show.snoc (h : answers.Show outcome fields) {selection : RootSelection} {after : Answers}
    (hdata : after.data = answers.data
      ++ [(selection.key, (selection.share (outcome selection)).value)])
    (herrors : after.errors = answers.errors ++ (selection.share (outcome selection)).errors)
    (hcache : after.cache = answers.cache ++ (selection.share (outcome selection)).cache) :
    after.Show outcome (fields ++ [selection]) where
  data := by rw [hdata, h.data, List.map_append, List.map_singleton]
  errors := by rw [herrors, h.errors, List.flatMap_append, List.flatMap_singleton]
  cache := by rw [hcache, h.cache, List.flatMap_append, List.flatMap_singleton]

end Answers

namespace Engine

/-- One root field, whose key is new, adds what it is answered. -/
theorem addAnswer_shows (engine : Engine) {answers : Answers}
    {outcome : RootSelection → Except EngineError (Json × CacheStatus)}
    {fields : List RootSelection} (h : answers.Show outcome fields) {input : ResolveInput}
    (hkey : input.selection.key ∉ fields.map RootSelection.key) {backend : Backend}
    (houtcome : (engine.answer input backend).1.result = outcome input.selection) :
    (engine.addAnswer input answers backend).1.Show outcome (fields ++ [input.selection]) := by
  have hdata : input.selection.key ∉ Named.names answers.data := h.names ▸ hkey
  have hcache := h.cache_notMem hkey
  have hput : ∀ value, Named.put input.selection.key value answers.data
      = answers.data ++ [(input.selection.key, value)] := fun _ => Named.put_of_notMem hdata _
  unfold addAnswer
  dsimp only
  split
  · rename_i htype
    have hshare := RootSelection.share_type htype (outcome input.selection)
    refine h.snoc ?_ ?_ ?_
    · rw [hshare]
      exact hput _
    · rw [hshare, List.append_nil]
      rfl
    · rw [hshare, List.append_nil]
      rfl
  · rename_i htype
    simp only [bind, StateT.bind]
    rcases hanswer : engine.answer input backend with ⟨⟨activity, result⟩, after⟩
    rw [hanswer] at houtcome
    cases result with
    | ok answered =>
        have hshare := RootSelection.share_ok htype answered.1 answered.2
        rw [show Except.ok answered = outcome input.selection from houtcome] at hshare
        refine h.snoc ?_ ?_ ?_
        · rw [hshare]
          exact hput _
        · rw [hshare, List.append_nil]
          rfl
        · rw [hshare]
          exact Named.put_of_notMem hcache _
    | error error =>
        have hshare := RootSelection.share_error htype error
        rw [show Except.error error = outcome input.selection from houtcome] at hshare
        refine h.snoc ?_ ?_ ?_
        · rw [hshare]
          exact hput _
        · rw [hshare]
          rfl
        · rw [hshare, List.append_nil]
          rfl

variable {engine : Engine}

/-- Root fields whose outcomes do not depend on the backend add what they are answered, in order. -/
theorem addAnswers_shows {payload : Json} {context : RequestContext} {bindings : Variables}
    {outcome : RootSelection → Except EngineError (Json × CacheStatus)}
    (houtcome : ∀ selection backend,
      (engine.answer ⟨selection, bindings, payload, context⟩ backend).1.result = outcome selection)
    {seen fields : List RootSelection} {answers : Answers} (h : answers.Show outcome seen)
    (hkeys : ((seen ++ fields).map RootSelection.key).Nodup) (backend : Backend) :
    (engine.addAnswers payload context bindings fields answers backend).1.Show outcome
      (seen ++ fields) := by
  induction fields generalizing seen answers backend with
  | nil =>
      rw [List.append_nil]
      exact h
  | cons selection rest ih =>
      have hnew : selection.key ∉ seen.map RootSelection.key := by
        intro hmem
        rw [List.map_append, List.map_cons] at hkeys
        exact (List.nodup_append.mp hkeys).2.2 _ hmem _ List.mem_cons_self rfl
      have hstep := engine.addAnswer_shows h hnew
        (houtcome selection backend)
      have hkeys : ((seen ++ [selection] ++ rest).map RootSelection.key).Nodup := by
        rwa [List.append_assoc, List.singleton_append]
      have hrest := ih hstep hkeys
        (engine.addAnswer ⟨selection, bindings, payload, context⟩ answers backend).2
      rw [List.append_assoc, List.singleton_append] at hrest
      exact hrest

/-! ### Without a cache -/

/-- Whether no fetch of an entity's own that a root field is answered by reads the text of a
document. -/
def IgnoresText (engine : Engine) : Prop :=
  ∀ name root custom, engine.rootField? name = some root →
    (engine.registry.entity root.entity).customFetch? root.cardinality = some custom →
      custom.IgnoresText

/-- Without a cache what a root field is answered depends neither on the backend nor on the text of
the document. -/
theorem answer_result (hcache : engine.hasCache = false) (htext : engine.IgnoresText)
    (selection : RootSelection) (bindings : Variables) (context : RequestContext)
    {payload payload' : Json} (hsame : payload'.withoutText = payload.withoutText)
    (backend backend' : Backend) :
    (engine.answer ⟨selection, bindings, payload', context⟩ backend').1.result
      = (engine.answer ⟨selection, bindings, payload, context⟩ backend).1.result := by
  by_cases hfetches : engine.Fetches selection
  · rw [answer_free (.refl _) hfetches hcache]
  · unfold Fetches at hfetches
    push Not at hfetches
    obtain ⟨root, hroot, hcustom⟩ := hfetches
    obtain ⟨custom, hcustom⟩ := Option.ne_none_iff_exists'.mp hcustom
    have hfetch : (fetchCustom custom ⟨selection, bindings, payload', context⟩).result
        = (fetchCustom custom ⟨selection, bindings, payload, context⟩).result := by
      let request : FetchRequest := ⟨selection.toWrittenField, bindings, payload, context⟩
      have hasked : custom { request with payload := payload' } = custom request :=
        htext _ root custom hroot hcustom request payload' hsame
      unfold fetchCustom
      dsimp only
      rw [show custom ⟨selection.toWrittenField, bindings, payload', context⟩
        = custom ⟨selection.toWrittenField, bindings, payload, context⟩ from hasked]
      split <;> rfl
    rw [answer_eq, answer_eq, resolve_custom hroot hcustom, resolve_custom hroot hcustom]
    dsimp only
    rw [hfetch]

/-- What a request for one root field alone is answered. -/
def alone (engine : Engine) (payload : Json) (context : RequestContext) (bindings : Variables)
    (selection : RootSelection) : Response :=
  (engine.executeAccepted (.ok ⟨bindings, [selection]⟩) payload context .fresh).1.response

/-- What a request for root fields with distinct keys is answered, put together field by field. -/
theorem executeAccepted_shows (hcache : engine.hasCache = false) (htext : engine.IgnoresText)
    {payload payload' : Json} (hsame : payload'.withoutText = payload.withoutText)
    {fields : List RootSelection} (hkeys : (fields.map RootSelection.key).Nodup)
    (bindings : Variables) (context : RequestContext) (backend : Backend) :
    let share := fun selection : RootSelection => selection.share
      (engine.answer ⟨selection, bindings, payload, context⟩ .fresh).1.result
    (engine.executeAccepted (.ok ⟨bindings, fields⟩) payload' context backend).1.response
      = ⟨.obj (fields.map fun selection => (selection.key, (share selection).value)),
          fields.flatMap fun selection => (share selection).errors,
          fields.flatMap fun selection => (share selection).cache⟩ := by
  intro share
  have hshow : (engine.addAnswers payload' context bindings fields .none backend).1.Show
      (fun selection => (engine.answer ⟨selection, bindings, payload, context⟩ .fresh).1.result)
      fields :=
    addAnswers_shows
      (fun selection _ => answer_result hcache htext selection bindings context hsame _ _)
      .none hkeys backend
  show Response.mk (.obj _) _ _ = _
  rw [hshow.data, hshow.errors, hshow.cache]

/-- Requests for the same root field alone, with payloads that differ in the text of the document,
are answered the same. -/
theorem executeAccepted_alone (hcache : engine.hasCache = false) (htext : engine.IgnoresText)
    {payload payload' : Json} (hsame : payload'.withoutText = payload.withoutText)
    (selection : RootSelection) (bindings : Variables) (context : RequestContext)
    (backend : Backend) :
    (engine.executeAccepted (.ok ⟨bindings, [selection]⟩) payload' context backend).1.response
      = engine.alone payload context bindings selection := by
  have hkeys : ([selection].map RootSelection.key).Nodup := List.nodup_singleton _
  unfold alone
  rw [executeAccepted_shows hcache htext hsame hkeys, executeAccepted_shows hcache htext rfl hkeys]

end Engine

/-! ### Responses put together -/

/-- Whether a response is put together from what each root field is answered alone: under its own
key, in the order of the fields, with the errors of those that fail and their values null. -/
structure Response.Assembles (whole : Response) (fields : List RootSelection)
    (alone : RootSelection → Response) : Prop where
  keys : ∃ members, whole.data = .obj members
    ∧ Named.names members = fields.map RootSelection.key
  value : ∀ selection ∈ fields, ∃ value, whole.data.member? selection.key = some value
    ∧ (alone selection).data = .obj [(selection.key, value)]
  error : ∀ selection ∈ fields,
    Engine.errorsAt selection.key whole.errors = (alone selection).errors
  failed : ∀ selection ∈ fields, (alone selection).errors ≠ [] →
    whole.data.member? selection.key = some .null
      ∧ ∃ message, (alone selection).errors = [⟨message, [selection.key]⟩]
  errors : whole.errors = fields.flatMap fun selection => (alone selection).errors
  cache : Named.names whole.cache = (fields.filter fun selection =>
    (alone selection).errors.isEmpty && selection.name != "__typename").map RootSelection.key

/-- Of errors that name their root fields, those at a key are those of the field. -/
theorem errorsAt_flatMap {errors : RootSelection → List ResponseError}
    (hpath : ∀ selection, ∀ error ∈ errors selection, error.path = [selection.key])
    {fields : List RootSelection} (hkeys : (fields.map RootSelection.key).Nodup)
    {selection : RootSelection} (hselection : selection ∈ fields) :
    Engine.errorsAt selection.key (fields.flatMap errors) = errors selection := by
  have hown : ∀ other, Engine.errorsAt other.key (errors other) = errors other := fun other =>
    List.filter_eq_self.mpr fun error herror => decide_eq_true (hpath other error herror)
  have hother : ∀ other, other.key ≠ selection.key →
      Engine.errorsAt selection.key (errors other) = [] := by
    intro other hne
    refine List.filter_eq_nil_iff.mpr fun error herror heq => hne ?_
    have hpaths := (hpath other error herror).symm.trans (of_decide_eq_true heq)
    exact (List.cons.inj hpaths).1
  induction fields with
  | nil => exact absurd hselection (by simp)
  | cons first rest ih =>
      obtain ⟨hfirst, hrest⟩ := List.nodup_cons.mp hkeys
      have hsplit : Engine.errorsAt selection.key ((first :: rest).flatMap errors)
          = Engine.errorsAt selection.key (errors first)
            ++ Engine.errorsAt selection.key (rest.flatMap errors) := by
        rw [List.flatMap_cons]
        exact List.filter_append _ _
      rcases List.mem_cons.mp hselection with rfl | hmem
      · have hnone : Engine.errorsAt selection.key (rest.flatMap errors) = [] := by
          unfold Engine.errorsAt
          rw [List.filter_flatMap, List.flatMap_eq_nil_iff]
          exact fun other hmem => hother other fun heq =>
            hfirst (heq ▸ List.mem_map_of_mem hmem)
        rw [hsplit, hown, hnone, List.append_nil]
      · have hne : first.key ≠ selection.key := fun heq => hfirst (heq ▸ List.mem_map_of_mem hmem)
        rw [hsplit, hother first hne, ih hrest hmem, List.nil_append]

/-- A response of the values, errors and statuses of root fields is put together from them. -/
theorem Response.assembles {fields : List RootSelection} {share : RootSelection → FieldShare}
    {outcome : RootSelection → Except EngineError (Json × CacheStatus)}
    (hshare : ∀ selection, share selection = selection.share (outcome selection))
    (hkeys : (fields.map RootSelection.key).Nodup) {alone : RootSelection → Response}
    (halone : ∀ selection, alone selection = ⟨.obj [(selection.key, (share selection).value)],
      (share selection).errors, (share selection).cache⟩) :
    Response.Assembles ⟨.obj (fields.map fun selection => (selection.key, (share selection).value)),
      fields.flatMap fun selection => (share selection).errors,
      fields.flatMap fun selection => (share selection).cache⟩ fields alone := by
  have hnames : Named.names (fields.map fun selection => (selection.key, (share selection).value))
      = fields.map RootSelection.key := by
    rw [Named.names, List.map_map]
    rfl
  have hfind : ∀ selection ∈ fields, Named.find? selection.key
      (fields.map fun selection => (selection.key, (share selection).value))
        = some (share selection).value := by
    intro selection hselection
    refine Named.Distinct.find? ?_ (List.mem_map_of_mem hselection)
    unfold Named.Distinct
    rwa [hnames]
  refine ⟨⟨_, rfl, hnames⟩, ?_, ?_, ?_, ?_, ?_⟩
  · intro selection hselection
    refine ⟨_, hfind selection hselection, ?_⟩
    rw [halone]
  · intro selection hselection
    rw [halone]
    refine errorsAt_flatMap (fun other => ?_) hkeys hselection
    rw [hshare]
    exact other.share_errors_path _
  · intro selection hselection herrors
    rw [halone, hshare] at herrors
    obtain ⟨hnull, hmessage⟩ := selection.share_failed _ herrors
    refine ⟨(hfind selection hselection).trans ?_, ?_⟩
    · rw [hshare, hnull]
    · rw [halone, hshare]
      exact hmessage
  · simp only [halone]
  · simp only [halone, hshare]
    exact RootSelection.names_cache outcome fields

/-! ### Documents with one root field -/

/-- A document with nothing but one root field of one operation, under the same fragments. -/
def Document.only (document : Document) (operation : Operation) (field : WrittenField) :
    Document where
  operations := [{ operation with selections := [field.selection] }]
  fragments := document.fragments

theorem Fragments.rootFields_selection (fragments : Fragments) (field : WrittenField) :
    fragments.rootFields [field.selection] = .ok [field] := by
  unfold rootFields
  rw [rootsWithin_eq, rootsOf, rootsOf, WrittenField.selection, rootsOfOne]
  rfl

/-- The operation that a name selects has it. -/
theorem Document.selectOperation_named {document : Document} {name : String}
    {operation : Operation} (h : document.selectOperation (some name) = .ok operation) :
    (operation.name == some name) = true := by
  unfold Document.selectOperation at h
  dsimp only at h
  split at h
  · rename_i hfind
    cases h
    have hnamed := List.find?_some hfind
    exact hnamed
  · exact absurd h (by simp)

/-- An operation that is selected is selected where it is the only one. -/
theorem Document.selectOperation_only {document : Document} {operationName : Option String}
    {operation : Operation} (h : document.selectOperation operationName = .ok operation)
    (field : WrittenField) : (document.only operation field).selectOperation operationName
      = .ok { operation with selections := [field.selection] } := by
  cases operationName with
  | none => rfl
  | some name =>
      have hname := Document.selectOperation_named h
      unfold Document.selectOperation Document.only
      simp [hname]

namespace AcceptedRequest

/-- What an operation of a document is accepted as. -/
theorem ofDocument_ok {document : Document} {operationName : Option String} {bindings : Variables}
    {operation : Operation} (hselected : document.selectOperation operationName = .ok operation)
    {request : AcceptedRequest} :
    ofDocument document operationName bindings = .ok request ↔ operation.kind = .query
      ∧ ∃ found, document.fragments.rootFields operation.selections = .ok found
        ∧ request = ⟨operation.withDefaults bindings, found.map (·.root document.fragments)⟩ := by
  unfold ofDocument
  rw [hselected]
  by_cases hkind : operation.kind = .query
  · cases hfields : document.fragments.rootFields operation.selections with
    | error error => simp [Except.mapError, bind, Except.bind, hkind, hfields]
    | ok found =>
        simp [Except.mapError, bind, Except.bind, pure, Except.pure, hkind, hfields, eq_comm]
  · simp [Except.mapError, bind, Except.bind, hkind, throw, throwThe, MonadExceptOf.throw]

/-- A document with nothing but a root field of an operation is accepted as that root field. -/
theorem ofDocument_only {document : Document} {operationName : Option String}
    {operation : Operation} (hselected : document.selectOperation operationName = .ok operation)
    (hkind : operation.kind = .query) (field : WrittenField) (bindings : Variables) :
    ofDocument (document.only operation field) operationName bindings
      = .ok ⟨operation.withDefaults bindings, [field.root document.fragments]⟩ :=
  (ofDocument_ok (Document.selectOperation_only hselected field)).mpr
    ⟨hkind, [field], document.fragments.rootFields_selection field, rfl⟩

end AcceptedRequest

namespace Engine

variable {engine : Engine}

/-- **Root fields are isolated.**  Without a cache, and if no fetch of an entity's own reads the
text of the document, a request whose response keys are distinct is answered with what each of its
root fields is answered alone.  A request for a root field alone is any that is accepted as just
that field, as it is written and over the same selection.  For a request that was read from a
document there is one: its root fields are those that the selections of the operation gather, and
each of them is left alone by the document with nothing but the field in the operation. -/
theorem execute_isolated (hcache : engine.hasCache = false) (htext : engine.IgnoresText)
    {payload : Json} {request : AcceptedRequest}
    (haccepted : AcceptedRequest.ofJson payload = .ok request)
    (hkeys : (request.fields.map RootSelection.key).Nodup) (context : RequestContext)
    (backend : Backend) :
    let alone := engine.alone payload context request.bindings
    (engine.execute payload context backend).1.response.Assembles request.fields alone
      ∧ (∀ selection payload' backend', payload'.withoutText = payload.withoutText →
          AcceptedRequest.ofJson payload' = .ok ⟨request.bindings, [selection]⟩ →
            (engine.execute payload' context backend').1.response = alone selection)
      ∧ ∀ document operationName bindings operation,
          Asks payload document operationName bindings →
          document.selectOperation operationName = .ok operation →
            ∃ found, document.fragments.Gathers operation.selections found
              ∧ request.fields = found.map (·.root document.fragments)
              ∧ ∀ field ∈ found, ∀ payload' backend',
                  payload'.withoutText = payload.withoutText →
                    (engine.executeDocument (document.only operation field) operationName
                          bindings payload' context backend').1.response
                        = alone (field.root document.fragments)
                      ∧ (Asks payload' (document.only operation field) operationName bindings →
                          (engine.execute payload' context backend').1.response
                            = alone (field.root document.fragments)) := by
  intro alone
  have hwhole := @executeAccepted_shows engine hcache htext payload payload rfl request.fields
    hkeys request.bindings context backend
  have halone : ∀ selection, alone selection = _ := fun selection =>
    @executeAccepted_shows engine hcache htext payload payload rfl [selection]
      (List.nodup_singleton _) request.bindings context .fresh
  refine ⟨?_, ?_, ?_⟩
  · rw [execute_eq, haccepted, hwhole]
    refine Response.assembles (fun _ => rfl) hkeys fun selection => ?_
    rw [halone]
    simp
  · intro selection payload' backend' hsame haccepted'
    rw [execute_eq, haccepted']
    exact executeAccepted_alone hcache htext hsame selection request.bindings context backend'
  · intro document operationName bindings operation hasks hselected
    rw [hasks.accepted] at haccepted
    obtain ⟨hkind, found, hfound, rfl⟩ := (AcceptedRequest.ofDocument_ok hselected).mp haccepted
    refine ⟨found, Fragments.rootFields_gathers hfound, rfl, ?_⟩
    intro field _ payload' backend' hsame
    have hdocument : (engine.executeDocument (document.only operation field) operationName
        bindings payload' context backend').1.response
          = alone (field.root document.fragments) := by
      unfold executeDocument
      rw [AcceptedRequest.ofDocument_only hselected hkind]
      exact executeAccepted_alone hcache htext hsame _ _ context backend'
    refine ⟨hdocument, fun hasks' => ?_⟩
    rw [execute_asks hasks']
    exact hdocument

end Engine

/-! ### Six root fields -/

namespace Lobby

def column (name : String) : String × Column := (name, ⟨name, name, false⟩)

def page : Entity where
  id := 0
  name := "Page"
  table := "pages"
  columns := [column "title"]
  relations := []
  virtuals := []
  filters := []
  customSingle := none
  customList := none

/-- Greets whom its argument names, and without one nobody. -/
def greet : CustomFetch := fun request =>
  match request.field.arguments with
  | [("name", .string name)] => .ok (.obj [("text", .str name)])
  | _ => .error (.datasource "nobody there")

def greeting : Entity where
  id := 1
  name := "Greeting"
  table := "greetings"
  columns := [column "text"]
  relations := []
  virtuals := []
  filters := []
  customSingle := some greet
  customList := none

def database : Database where
  registry := ⟨[page, greeting]⟩
  tables := [("pages", [[("title", .str "Home")]])]

def desk : Engine where
  registry := database.registry
  settings := {}
  executor := database.execute
  rootFields := [("pages", ⟨"pages", 0, .list, none⟩), ("greeting", ⟨"greeting", 1, .single, none⟩)]
  hook := fun _ => []
  hasCache := false

/-- A payload for an operation with these root fields, and fragments for a page. -/
def asking (fields : String) : Json := .obj [("query", .str ("\x7b " ++ fields
  ++ " \x7d fragment Front on Query \x7b pages \x7b ...Titles \x7d \x7d "
  ++ "fragment Titles on Page \x7b title \x7d"))]

/-- A greeting for somebody. -/
def helloText : String := "hello: greeting(name: \"Ada\") \x7b text \x7d "

def payload : Json := asking ("__typename " ++ helloText
  ++ "bye: greeting \x7b text \x7d gone \x7b title \x7d lost: pages \x7b ...Lost \x7d ...Front")

theorem asking_withoutText (fields : String) :
    (asking fields).withoutText = .obj [("query", .null)] := by
  simp [asking, Json.withoutText]

def fragments : Fragments := [
  ("Front", [.field "pages" none [] [] [.spread "Titles" []]]), ("Titles", [.leaf "title"])]

/-- The root field that a fetch of its own answers by its argument. -/
def hello : WrittenField :=
  ⟨"greeting", some "hello", [("name", .string "Ada")], [], [.leaf "text"]⟩

/-- The root field that a fragment brings in. -/
def front : WrittenField := ⟨"pages", none, [], [], [.spread "Titles" []]⟩

def operation : Operation where
  kind := .query
  name := none
  declared := []
  selections := [
    .leaf "__typename",
    hello.selection,
    .field "greeting" (some "bye") [] [] [.leaf "text"],
    .field "gone" none [] [] [.leaf "title"],
    .field "pages" (some "lost") [] [] [.spread "Lost" []],
    .spread "Front" []]

def document : Document := ⟨[operation], fragments⟩

def request : AcceptedRequest :=
  (AcceptedRequest.ofDocument document none []).toOption.getD default

set_option maxRecDepth 2000 in
theorem asks : Asks payload document none [] := by
  refine .of_text ?_
  unfold helloText
  simp only [String.toList_append, String.reduceToList]
  rfl

theorem accepted : AcceptedRequest.ofJson payload = .ok request := asks.accepted.trans rfl

set_option maxRecDepth 2000 in
theorem asks_hello : Asks (asking helloText) (document.only operation hello) none [] := by
  refine .of_text ?_
  unfold helloText
  simp only [String.toList_append, String.reduceToList]
  rfl

theorem asks_front :
    Asks (asking "pages \x7b ...Titles \x7d") (document.only operation front) none [] := by
  refine .of_text ?_
  simp only [String.toList_append, String.reduceToList]
  rfl

/-- The root fields that the operation gathers, of the greetings and of the fragment. -/
theorem gathers_fields : ∃ found, fragments.Gathers operation.selections found ∧ hello ∈ found
    ∧ front ∈ found := by
  refine ⟨_, .field (.field (.field (.field (.field (.spread rfl (.field .nil) .nil))))), ?_, ?_⟩
  · exact List.mem_cons_of_mem _ List.mem_cons_self
  · exact List.mem_of_mem_getLast? rfl

theorem greet_ignoresText : greet.IgnoresText := fun _ _ _ => rfl

theorem desk_ignoresText : desk.IgnoresText := by
  intro name root custom hroot hcustom
  have hmember := Named.mem_of_find? hroot
  simp only [desk, List.mem_cons, List.not_mem_nil, or_false, Prod.mk.injEq] at hmember
  rcases hmember with ⟨-, rfl⟩ | ⟨-, rfl⟩
  · exact absurd hcustom (by simp [desk, database, Registry.entity, page, Entity.customFetch?])
  · obtain rfl : greet = custom := Option.some.inj hcustom
    exact greet_ignoresText

end Lobby

namespace Engine

/-- Of six root fields three succeed and three fail, each with what it is answered alone. -/
theorem execute_isolated_lobby :
    let response := (Lobby.desk.execute Lobby.payload .empty .fresh).1.response
    let alone := Lobby.desk.alone Lobby.payload .empty []
    let hello := (Lobby.desk.execute (Lobby.asking Lobby.helloText) .empty .fresh).1
    let front := (Lobby.desk.execute (Lobby.asking "pages \x7b ...Titles \x7d") .empty .fresh).1
    AcceptedRequest.ofJson Lobby.payload = .ok Lobby.request
      ∧ Lobby.request.fields.map RootSelection.key
          = ["__typename", "hello", "bye", "gone", "lost", "pages"]
      ∧ Lobby.desk.IgnoresText
      ∧ response.Assembles Lobby.request.fields alone
      ∧ hello.response = alone (Lobby.hello.root Lobby.fragments)
      ∧ front.response = alone (Lobby.front.root Lobby.fragments)
      ∧ response.data.text = "\x7b\"__typename\":\"Query\",\"hello\":\x7b\"text\":\"Ada\"\x7d,"
          ++ "\"bye\":null,\"gone\":null,\"lost\":null,\"pages\":[\x7b\"title\":\"Home\"\x7d]\x7d"
      ∧ response.errors.map ResponseError.path = [["bye"], ["gone"], ["lost"]] := by
  have hkeys : Lobby.request.fields.map RootSelection.key
      = ["__typename", "hello", "bye", "gone", "lost", "pages"] := rfl
  obtain ⟨hassembles, -, hdocument⟩ := @execute_isolated Lobby.desk rfl Lobby.desk_ignoresText
    _ _ Lobby.accepted (by rw [hkeys]; decide) .empty .fresh
  obtain ⟨found, hfound, -, halone⟩ :=
    hdocument Lobby.document none [] Lobby.operation Lobby.asks rfl
  obtain ⟨fields, hfields, hhello, hfront⟩ := Lobby.gathers_fields
  obtain rfl : fields = found := hfields.unique hfound
  have hsame : ∀ fields, (Lobby.asking fields).withoutText = Lobby.payload.withoutText := by
    intro fields
    unfold Lobby.payload
    rw [Lobby.asking_withoutText, Lobby.asking_withoutText]
  have hrun : Lobby.desk.execute Lobby.payload .empty
      = Lobby.desk.executeAccepted (.ok Lobby.request) Lobby.payload .empty := by
    rw [execute_eq, Lobby.accepted]
  refine ⟨Lobby.accepted, hkeys, Lobby.desk_ignoresText, hassembles, ?_, ?_, ?_, ?_⟩
  · exact (halone Lobby.hello hhello _ .fresh (hsame _)).2 Lobby.asks_hello
  · exact (halone Lobby.front hfront _ .fresh (hsame _)).2 Lobby.asks_front
  · rw [hrun]
    decide +kernel
  · rw [hrun]
    decide +kernel

end Engine

end GraphFetch
