/-
Answers through a cache.

A run is a sequence of requests with time passing between them, over a backend in which
anything may go wrong.  A key says which field of which request it is for, but nothing of
the context: root fields of one key are one field of one request, up to the member that
disables the cache and the context.  What is fetched depends on nothing else, so a cache
can at most give what was fetched for the same field under another context.

A hit asks the executor nothing, and a request that disables the cache leaves it alone.
-/
import GraphFetch.Proofs.Cache.Fetch
import GraphFetch.Proofs.Cache.Key
import GraphFetch.Proofs.Engine.Requests
import GraphFetch.Proofs.Engine.Uncached
import GraphFetch.Proofs.Outcome

namespace GraphFetch

/-! ### Runs -/

/-- What happens to an engine: time passes, or a request comes in. -/
inductive Event
  | wait (duration : Nat)
  | request (payload : Json) (context : RequestContext)

namespace Engine

variable (engine : Engine)

/-- What an event leaves of the backend. -/
def handle (backend : Backend) : Event → Backend
  | .wait duration => backend.advance duration
  | .request payload context => (engine.execute payload context backend).2

/-- What events leave of the backend. -/
def after (events : List Event) (backend : Backend) : Backend := events.foldl engine.handle backend

/-! ### What is kept -/

/-- What the key of a root field stands for. -/
def keyContent (root : BoundRootField) (input : ResolveInput) : Json :=
  CacheKey.content (root.name ++ ":" ++ input.selection.key) input.payload
    engine.settings.cache.bypassField input.bindings

/-- A root field that some event asks for. -/
structure Asked (events : List Event) (root : BoundRootField) (input : ResolveInput) : Prop where
  event : .request input.payload input.context ∈ events
  accepted : ∃ fields, AcceptedRequest.ofJson input.payload = .ok ⟨input.bindings, fields⟩
    ∧ input.selection ∈ fields
  bound : engine.rootField? input.selection.name = some root

/-- What the cache is trusted with in a run: keys of one hash are one, values are read back from
their texts, and no document gives two root fields one response key. -/
structure Cacheable (events : List Event) : Prop where
  bypassField : engine.settings.cache.bypassField ∉ payloadFields
  distinct : ∀ {payload context request}, .request payload context ∈ events →
    AcceptedRequest.ofJson payload = .ok request → (request.fields.map RootSelection.key).Nodup
  representable : ∀ {root input}, engine.Asked events root input →
    (engine.keyContent root input).Representable
  hash : ∀ {root input root' input'}, engine.Asked events root input →
    engine.Asked events root' input' →
    Blake3.hexHash (engine.keyContent root input).text
      = Blake3.hexHash (engine.keyContent root' input').text →
    (engine.keyContent root input).text = (engine.keyContent root' input').text
  readable : ∀ {root input value}, engine.Asked events root input →
    (engine.fetch root input).2 = .ok value → Json.parse? value.text = some value

/-! ### Keys -/

/-- A field and a response key in one text, taken apart at the last colon. -/
theorem eq_of_append_colon {a b k l : String} (hk : Document.IsName k) (hl : Document.IsName l)
    (h : a ++ ":" ++ k = b ++ ":" ++ l) : k = l := by
  have hcolon : ∀ {name : String}, Document.IsName name →
      ∀ c ∈ name.toList.reverse, (c != ':') = true := by
    intro name hname c hc
    rw [bne_iff_ne]
    rintro rfl
    exact absurd (hname.2 ':' (List.mem_reverse.mp hc)) (by decide)
  have htake : ∀ {a k : String}, Document.IsName k →
      ((a ++ ":" ++ k).toList.reverse.takeWhile (· != ':')) = k.toList.reverse := by
    intro a k hk
    have hsplit : (a ++ ":" ++ k).toList.reverse = k.toList.reverse ++ ':' :: a.toList.reverse := by
      simp
    rw [hsplit, List.takeWhile_append_of_pos (hcolon hk)]
    simp
  have hboth : k.toList.reverse = l.toList.reverse := by rw [← htake hk, h, htake hl]
  exact String.toList_injective (List.reverse_injective hboth)

theorem slot?_eq_some {root : BoundRootField} {input : ResolveInput} {slot : CacheSlot}
    (h : engine.slot? root input = some slot) :
    CacheKey.isBypassed input.payload engine.settings.cache.bypassField = false
      ∧ slot.key = CacheKey.text engine.settings.cache.keyPrefix
          (Blake3.hexHash (engine.keyContent root input).text)
      ∧ slot.ttl = engine.settings.cache.ttl := by
  unfold slot? at h
  dsimp only at h
  split at h
  · rename_i hcache
    cases h
    simp only [Bool.and_eq_true, Bool.not_eq_true'] at hcache
    exact ⟨hcache.2, rfl, rfl⟩
  · exact absurd h (by simp)

variable {engine}

/-- **Root fields of one key are one field of one request, up to the member that disables the
cache and the context.** -/
theorem eq_of_slot_key {events : List Event} (cacheable : engine.Cacheable events)
    {root root' : BoundRootField} {input input' : ResolveInput} {slot slot' : CacheSlot}
    (hasked : engine.Asked events root input) (hasked' : engine.Asked events root' input')
    (hslot : engine.slot? root input = some slot) (hslot' : engine.slot? root' input' = some slot')
    (hkey : slot.key = slot'.key) :
    root = root' ∧ input.selection = input'.selection ∧ input.bindings = input'.bindings
      ∧ CacheKey.withoutBypass engine.settings.cache.bypassField input.payload
        = CacheKey.withoutBypass engine.settings.cache.bypassField input'.payload := by
  rw [(engine.slot?_eq_some hslot).2.1, (engine.slot?_eq_some hslot').2.1] at hkey
  have hhash := String.append_right_inj _ |>.mp hkey
  have hcontent := Json.text_injective (cacheable.representable hasked)
    (cacheable.representable hasked') (cacheable.hash hasked hasked' hhash)
  obtain ⟨hfield, hpayload, -⟩ := CacheKey.content_inj.mp hcontent
  obtain ⟨fields, haccepted, hmember⟩ := hasked.accepted
  obtain ⟨fields', haccepted', hmember'⟩ := hasked'.accepted
  have hnames := AcceptedRequest.ofJson_wellNamed haccepted _ hmember
  have hnames' := AcceptedRequest.ofJson_wellNamed haccepted' _ hmember'
  have hsame : AcceptedRequest.ofJson input.payload = AcceptedRequest.ofJson input'.payload := by
    rw [← AcceptedRequest.ofJson_withoutBypass cacheable.bypassField, hpayload,
      AcceptedRequest.ofJson_withoutBypass cacheable.bypassField]
  rw [haccepted, haccepted', Except.ok.injEq, AcceptedRequest.mk.injEq] at hsame
  have hkeys := eq_of_append_colon hnames.2.1 hnames'.2.1 hfield
  have hselection : input.selection = input'.selection :=
    List.inj_on_of_nodup_map (cacheable.distinct hasked.event haccepted) hmember
      (hsame.2 ▸ hmember') hkeys
  refine ⟨?_, hselection, hsame.1, hpayload⟩
  have hroot := hasked.bound
  rw [hselection, hasked'.bound] at hroot
  exact (Option.some.inj hroot).symm

/-! ### One root field -/

/-- Whether a root field is answered by a query, not by a fetch of its own. -/
def Fetches (engine : Engine) (selection : RootSelection) : Prop :=
  ∀ root, engine.rootField? selection.name = some root →
    (engine.registry.entity root.entity).customFetch? root.cardinality = none

/-- What is fetched depends neither on the payload nor on how the field is written. -/
theorem fetch_eq {root : BoundRootField} {input input' : ResolveInput}
    (hselection : input.selection.Alike input'.selection)
    (hbindings : input.bindings = input'.bindings)
    (hcontext : input.context = input'.context) :
    engine.fetch root input = engine.fetch root input' := by
  unfold fetch plan
  rw [hselection.children, hselection.arguments, hbindings, hcontext]

/-! ### Whole runs -/

/-- What a response shows: its data and its errors. -/
def shown (response : Response) : Json × List ResponseError := (response.data, response.errors)

theorem Asked.mono {events later : List Event} (h : ∀ event ∈ events, event ∈ later)
    {root : BoundRootField} {input : ResolveInput} (hasked : engine.Asked events root input) :
    engine.Asked later root input :=
  ⟨h _ hasked.event, hasked.accepted, hasked.bound⟩

theorem Cacheable.mono {events later : List Event} (h : ∀ event ∈ events, event ∈ later)
    (cacheable : engine.Cacheable later) : engine.Cacheable events where
  bypassField := cacheable.bypassField
  distinct := fun hevent => cacheable.distinct (h _ hevent)
  representable := fun hasked => cacheable.representable (hasked.mono h)
  hash := fun hasked hasked' => cacheable.hash (hasked.mono h) (hasked'.mono h)
  readable := fun hasked => cacheable.readable (hasked.mono h)

theorem execute_uncached (engine : Engine) (payload : Json) (context : RequestContext)
    (backend : Backend) :
    match AcceptedRequest.ofJson payload with
      | .error error =>
        (engine.uncached.execute payload context backend).1.response = .refused error.message
      | .ok request => shown (engine.uncached.execute payload context backend).1.response
        = (engine.plainFields payload request.bindings (fun _ => context) request.fields
            ([], [])).map Json.obj id := by
  unfold execute
  cases haccepted : AcceptedRequest.ofJson payload with
  | error error => rfl
  | ok request =>
      dsimp only
      rw [show (([], []) : View) = viewOf .none from rfl,
        ← engine.addAnswers_uncached payload context
        request.bindings request.fields .none backend]
      rfl

/-- What a response shows under a key. -/
theorem shown_at {response : Response} {view : View} (h : shown response = view.map Json.obj id)
    (key : String) :
    response.data.member? key = Named.find? key view.1
      ∧ errorsAt key response.errors = errorsAt key view.2 := by
  have hdata : response.data = .obj view.1 := congrArg Prod.fst h
  have herrors : response.errors = view.2 := congrArg Prod.snd h
  rw [hdata, herrors]
  exact ⟨rfl, rfl⟩

/-- **What a response shows under the key of a root field** is what that field is answered, if no
other has the key. -/
theorem execute_own (engine : Engine) {payload : Json} {request : AcceptedRequest}
    (haccepted : AcceptedRequest.ofJson payload = .ok request)
    (hkeys : (request.fields.map RootSelection.key).Nodup) {selection : RootSelection}
    (hselection : selection ∈ request.fields) (context : RequestContext) (backend : Backend) :
    let response := (engine.uncached.execute payload context backend).1.response
    let own := addField selection (engine.plain ⟨selection, request.bindings, payload, context⟩)
      ([], [])
    response.data.member? selection.key = Named.find? selection.key own.1
      ∧ errorsAt selection.key response.errors = errorsAt selection.key own.2 := by
  have hshown := engine.execute_uncached payload context backend
  simp only [haccepted] at hshown
  obtain ⟨hdata, herrors⟩ := shown_at hshown selection.key
  have hnone : errorsAt selection.key (([], []) : View).2 = [] := rfl
  obtain ⟨hownData, hownErrors⟩ := engine.plainFields_own hkeys hselection hnone
  exact ⟨hdata.trans hownData, herrors.trans hownErrors⟩

/-- A root field that is answered shows its value and no error. -/
theorem execute_own_ok (engine : Engine) {payload : Json} {request : AcceptedRequest}
    (haccepted : AcceptedRequest.ofJson payload = .ok request)
    (hkeys : (request.fields.map RootSelection.key).Nodup) {selection : RootSelection}
    (hselection : selection ∈ request.fields) (htype : selection.name ≠ "__typename")
    {context : RequestContext} {value : Json}
    (hvalue : engine.plain ⟨selection, request.bindings, payload, context⟩ = .ok value)
    (backend : Backend) :
    let response := (engine.uncached.execute payload context backend).1.response
    response.data.member? selection.key = some value
      ∧ errorsAt selection.key response.errors = [] := by
  obtain ⟨hdata, herrors⟩ := engine.execute_own haccepted hkeys hselection context backend
  rw [hvalue, addField, if_neg htype] at hdata herrors
  exact ⟨hdata.trans (Named.find?_put_self _ _ _), herrors⟩

/-! ### What a cache leaves as it is -/

/-- A hit through a slot did not run its source. -/
theorem fetch_hit {slot : Option CacheSlot} {source : Except EngineError Json}
    {accepts : Json → Bool} {backend : Backend} {value : Json}
    (h : (Backend.fetch slot source accepts backend).1.result = .ok (value, .hit)) :
    (Backend.fetch slot source accepts backend).1.ran = false := by
  have hstatus : ∀ {status : CacheStatus}, status ≠ .hit →
      (source.map fun value => (value, status)) ≠ .ok (value, .hit) := by
    intro status hne heq
    cases source with
    | error error => cases heq
    | ok found => exact hne (Prod.mk.inj (Except.ok.inj heq)).2
  cases slot with
  | none =>
      rw [Backend.fetch_none] at h
      exact absurd h (hstatus (by decide))
  | some slot =>
      rcases Backend.fetch_result slot source accepts backend with ⟨_, _, hhit, -, -⟩ | hmiss
      · rw [hhit]
      · rw [hmiss] at h
        exact absurd h (hstatus (by decide))

/-- A hit asks the executor nothing. -/
theorem answer_hit {input : ResolveInput} {backend : Backend} {value : Json}
    (h : (engine.answer input backend).1.result = .ok (value, .hit)) :
    (engine.answer input backend).1.activity = .none := by
  rw [answer_eq] at h ⊢
  obtain ⟨⟨found, status⟩, hresolved, hshaped⟩ := Outcome.bind_ok.mp h
  obtain ⟨shaped, -, hpair⟩ := Outcome.bind_ok.mp hshaped
  obtain ⟨-, rfl⟩ := Prod.mk.inj (Except.ok.inj hpair)
  show (engine.resolve input backend).1.activity = .none
  cases hroot : engine.rootField? input.selection.name with
  | none => rw [resolve_none hroot]
  | some root =>
      cases hcustom : (engine.registry.entity root.entity).customFetch? root.cardinality with
      | some custom =>
          rw [resolve_custom hroot hcustom] at hresolved
          unfold fetchCustom at hresolved
          dsimp only at hresolved
          split at hresolved <;> cases hresolved
      | none =>
          rw [resolve_fetch hroot hcustom] at hresolved ⊢
          have hran := fetch_hit hresolved
          dsimp only
          rw [hran]
          rfl

theorem slot?_bypassed {input : ResolveInput}
    (h : CacheKey.isBypassed input.payload engine.settings.cache.bypassField = true)
    (root : BoundRootField) : engine.slot? root input = none := by
  unfold slot?
  simp [h]

theorem resolve_bypassed {input : ResolveInput}
    (h : CacheKey.isBypassed input.payload engine.settings.cache.bypassField = true)
    (backend : Backend) : (engine.resolve input backend).2 = backend := by
  cases hroot : engine.rootField? input.selection.name with
  | none => rw [resolve_none hroot]
  | some root =>
      cases hcustom : (engine.registry.entity root.entity).customFetch? root.cardinality with
      | some custom => rw [resolve_custom hroot hcustom]
      | none =>
          rw [resolve_fetch hroot hcustom, slot?_bypassed h]
          rfl

theorem addAnswers_bypassed {payload : Json}
    (h : CacheKey.isBypassed payload engine.settings.cache.bypassField = true)
    {context : RequestContext} {bindings : Variables} {fields : List RootSelection}
    (answers : Answers) (backend : Backend) :
    (engine.addAnswers payload context bindings fields answers backend).2 = backend := by
  induction fields generalizing answers with
  | nil => rfl
  | cons selection rest ih =>
      have hfirst := (engine.addAnswer_eq ⟨selection, bindings, payload, context⟩ answers
        backend).2
      have hanswer : (engine.answer ⟨selection, bindings, payload, context⟩ backend).2 = backend :=
        resolve_bypassed h backend
      rw [hanswer, ite_self] at hfirst
      have hrest := ih (engine.addAnswer ⟨selection, bindings, payload, context⟩ answers backend).1
      rw [addAnswers]
      simp only [bind, StateT.bind]
      rcases hanswered : engine.addAnswer ⟨selection, bindings, payload, context⟩ answers backend
        with ⟨added, after⟩
      rw [hanswered] at hfirst hrest
      rw [show after = backend from hfirst]
      exact hrest

/-- A request that disables the cache leaves the backend alone. -/
theorem execute_bypassed {payload : Json}
    (h : CacheKey.isBypassed payload engine.settings.cache.bypassField = true)
    (context : RequestContext) (backend : Backend) :
    (engine.execute payload context backend).2 = backend := by
  unfold execute
  cases AcceptedRequest.ofJson payload with
  | error error => rfl
  | ok request => exact addAnswers_bypassed h .none backend

/-- A root field is answered the same under all contexts, if it is not answered by a fetch of its
own and the hook makes no difference between them. -/
theorem plain_context (hhook : ∀ context other, engine.hook context = engine.hook other)
    {input : ResolveInput} (hfetches : engine.Fetches input.selection) (context : RequestContext) :
    engine.plain { input with context } = engine.plain input := by
  rw [plain_eq, plain_eq]
  congr 1
  unfold plainResolve
  dsimp only
  cases hroot : engine.rootField? input.selection.name with
  | none => rfl
  | some root =>
      simp only [hfetches root hroot]
      unfold fetch plan
      rw [hhook context input.context]

/-! ### Root fields of one key -/

/-- What was fetched for a root field is given to the next one with the same key. -/
theorem resolve_again {root : BoundRootField} {input other : ResolveInput}
    (hroot : engine.rootField? input.selection.name = some root)
    (hother : engine.rootField? other.selection.name = some root)
    (hcustom : (engine.registry.entity root.entity).customFetch? root.cardinality = none)
    {slot : CacheSlot} (hslot : engine.slot? root input = some slot)
    (hsame : engine.slot? root other = some slot) (httl : slot.ttl = none) {value : Json}
    (hfetch : (engine.fetch root input).2 = .ok value)
    (hfull : Normalized.isEmpty value = false) (hread : Json.parse? value.text = some value) :
    (engine.resolve other (engine.answer input .fresh).2).1.result = .ok (value, .hit) := by
  rw [answer_eq]
  dsimp only
  rw [resolve_fetch hroot hcustom, resolve_fetch hother hcustom]
  dsimp only
  rw [hslot, hsame, hfetch]
  have haccepts : (!Normalized.isEmpty value) = true := by rw [hfull]; rfl
  rw [Backend.fetch_again httl haccepts hread]

end Engine

end GraphFetch
