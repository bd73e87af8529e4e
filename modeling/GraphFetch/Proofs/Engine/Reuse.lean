/-
What a run leaves in the cache, and who is given it.

The invariant of a run is that every entry of the backend was left by some request of it.
When that request was answered, one of its root fields was reported as a miss, and the text
of what had been fetched for the field was put under the field's key, to end after the time
to live from then.

So a root field that is no hit is answered as without a cache.  A hit gives the value of an
entry that has not ended.  The entry is no younger than the request, since no two root
fields of a request have one key; so an earlier request left it.  A key says which field of
which request it is for, but nothing of the context, and hence what was fetched then is what
is fetched now under the context of then.
-/
import GraphFetch.Proofs.Engine.Caching
import GraphFetch.Proofs.Engine.Offences
import Mathlib.Data.List.Induction

namespace GraphFetch

/-! ### Time -/

/-- How long an event takes. -/
def Event.duration : Event → Nat
  | .wait duration => duration
  | .request _ _ => 0

/-- The time after events. -/
def elapsed (events : List Event) : Nat := (events.map Event.duration).sum

@[simp]
theorem elapsed_append (events more : List Event) :
    elapsed (events ++ more) = elapsed events + elapsed more := by
  simp [elapsed]

namespace Engine

variable {engine : Engine}

/-! ### Root fields that go through the cache -/

/-- Whether a root field is answered through the cache, and where its value is kept. -/
structure Cached (engine : Engine) (root : BoundRootField) (input : ResolveInput)
    (slot : CacheSlot) : Prop where
  bound : engine.rootField? input.selection.name = some root
  queried : (engine.registry.entity root.entity).customFetch? root.cardinality = none
  slot : engine.slot? root input = some slot

theorem Cached.fetches {root : BoundRootField} {input : ResolveInput} {slot : CacheSlot}
    (h : engine.Cached root input slot) : engine.Fetches input.selection := by
  intro other hother
  obtain rfl := Option.some.inj (h.bound.symm.trans hother)
  exact h.queried

/-- The entry that a root field leaves if it is fetched at a time: under its key the text of what is
fetched for it, which ends after the time to live. -/
def Leaves (engine : Engine) (now : Nat) (input : ResolveInput) (key : String)
    (entry : StoreEntry) : Prop :=
  ∃ root slot value, engine.Cached root input slot ∧ key = slot.key
    ∧ (engine.fetch root input).2 = .ok value ∧ entry = Backend.entryFor now slot value

/-- What was fetched for a root field can be given the shape of its selection. -/
theorem shape_fetched {root : BoundRootField} {input : ResolveInput} {value : Json}
    (hroot : engine.rootField? input.selection.name = some root)
    (hfetch : (engine.fetch root input).2 = .ok value) :
    ∃ shaped, engine.shape input.selection value = .ok shaped := by
  unfold shape
  rw [hroot]
  dsimp only
  cases hshaped : Shaped.ofValue engine.registry (engine.registry.entity root.entity)
      input.selection.children value with
  | ok shaped => exact ⟨shaped, rfl⟩
  | error error =>
      -- the selection lacks a fragment, and then it would not have been fetched
      obtain ⟨reported, hplan⟩ :=
        plan_offends (Or.inr (Shaped.ofValue_error hshaped input.bindings))
      rw [fetch_plan hplan] at hfetch
      cases hfetch

/-- **What a root field resolves to** is what it resolves to without a cache, and then it is no hit,
or the value of an entry that is shown under its key. -/
theorem resolve_spec (engine : Engine) (input : ResolveInput) (backend : Backend) :
    (∃ status, status ≠ .hit ∧ (engine.resolve input backend).1.result
        = (engine.plainResolve input).map fun value => (value, status))
      ∨ ∃ root slot entry value, engine.Cached root input slot ∧ backend.Shows slot.key entry
        ∧ Json.parse? entry.value = some value
        ∧ (engine.resolve input backend).1.result = .ok (value, .hit) := by
  unfold plainResolve
  cases hroot : engine.rootField? input.selection.name with
  | none =>
      rw [resolve_none hroot]
      exact Or.inl ⟨.bypass, by decide, rfl⟩
  | some root =>
      cases hcustom : (engine.registry.entity root.entity).customFetch? root.cardinality with
      | some custom =>
          rw [resolve_custom hroot hcustom]
          refine Or.inl ⟨.bypass, by decide, ?_⟩
          simp only [hcustom]
          unfold fetchCustom
          dsimp only
          cases custom _ <;> rfl
      | none =>
          rw [resolve_fetch hroot hcustom]
          simp only [hcustom]
          cases hslot : engine.slot? root input with
          | none => exact Or.inl ⟨.bypass, by decide, rfl⟩
          | some slot =>
              rcases Backend.fetch_result slot (engine.fetch root input).2
                  (fun value => !Normalized.isEmpty value) backend with
                ⟨value, entry, hhit, hshows, hparse⟩ | hmiss
              · rw [hhit]
                exact Or.inr ⟨root, slot, entry, value, ⟨hroot, hcustom, hslot⟩,
                  hshows, hparse, rfl⟩
              · rw [hmiss]
                exact Or.inl ⟨.miss, by decide, rfl⟩

/-- A value that a root field resolves to is answered in the shape of its selection. -/
theorem answer_resolved {input : ResolveInput} {backend : Backend} {value : Json}
    {status : CacheStatus} (h : (engine.resolve input backend).1.result = .ok (value, status)) :
    (engine.answer input backend).1.result
      = (engine.shape input.selection value).map fun shaped => (shaped, status) := by
  rw [answer_eq, h]
  show (engine.shape input.selection value).bind _ = _
  cases engine.shape input.selection value <;> rfl

/-- **What a root field is answered** is what it is answered without a cache, and then it is no hit,
or the value of an entry that is shown under its key, in the shape of its selection. -/
theorem answer_spec (engine : Engine) (input : ResolveInput) (backend : Backend) :
    (∃ status, status ≠ .hit ∧ (engine.answer input backend).1.result
        = (engine.plain input).map fun value => (value, status))
      ∨ ∃ root slot entry value, engine.Cached root input slot ∧ backend.Shows slot.key entry
        ∧ Json.parse? entry.value = some value
        ∧ (engine.answer input backend).1.result
          = (engine.shape input.selection value).map fun shaped => (shaped, .hit) := by
  rcases engine.resolve_spec input backend with
    ⟨status, hstatus, hresult⟩ | ⟨root, slot, entry, value, hcached, hshows, hparse, hresult⟩
  · refine Or.inl ⟨status, hstatus, ?_⟩
    rw [plain_eq]
    cases hplain : engine.plainResolve input with
    | error error =>
        rw [answer_eq, hresult, hplain]
        rfl
    | ok value =>
        rw [hplain] at hresult
        exact answer_resolved hresult
  · exact Or.inr ⟨root, slot, entry, value, hcached, hshows, hparse, answer_resolved hresult⟩

/-- **What a root field leaves in the cache**: no entry but those there were and, if it is a miss,
its own; and it takes no time. -/
theorem answer_leaves (engine : Engine) (input : ResolveInput) (backend : Backend) :
    (∀ key entry, (key, entry) ∈ (engine.answer input backend).2.store.entries →
        (key, entry) ∈ backend.store.entries
          ∨ (engine.Leaves backend.now input key entry
            ∧ ∃ shaped, (engine.answer input backend).1.result = .ok (shaped, .miss)))
      ∧ backend.Instant (engine.answer input backend).2 := by
  rw [show (engine.answer input backend).2 = (engine.resolve input backend).2 from rfl]
  cases hroot : engine.rootField? input.selection.name with
  | none =>
      rw [resolve_none hroot]
      exact ⟨fun _ _ h => Or.inl h, .refl backend⟩
  | some root =>
      cases hcustom : (engine.registry.entity root.entity).customFetch? root.cardinality with
      | some custom =>
          rw [resolve_custom hroot hcustom]
          exact ⟨fun _ _ h => Or.inl h, .refl backend⟩
      | none =>
          have hresolve := resolve_fetch hroot hcustom backend
          rw [hresolve]
          obtain ⟨hleaves, hinstant⟩ := Backend.fetch_leaves (engine.slot? root input)
            (engine.fetch root input).2 (fun value => !Normalized.isEmpty value) backend
          refine ⟨fun key entry h => ?_, hinstant⟩
          rcases hleaves key entry h with
            hheld | ⟨slot, value, hslot, hkey, hvalue, hentry, hresult⟩
          · exact Or.inl hheld
          · obtain ⟨shaped, hshaped⟩ := shape_fetched hroot hvalue
            refine Or.inr ⟨⟨root, slot, value, ⟨hroot, hcustom, hslot⟩, hkey, hvalue, hentry⟩,
              shaped, ?_⟩
            have hmiss : (engine.resolve input backend).1.result = .ok (value, .miss) := by
              rw [hresolve]
              exact hresult
            rw [answer_resolved hmiss, hshaped]
            rfl

/-! ### What a run keeps to -/

/-- An entry that a request of a run left in the cache for a root field that was reported as a
miss. -/
def Left (engine : Engine) (faults : Nat → Faults) (past : List Event) (input : ResolveInput)
    (key : String) (entry : StoreEntry) : Prop :=
  ∃ before since fields, past = before ++ .request input.payload input.context :: since
    ∧ AcceptedRequest.ofJson input.payload = .ok ⟨input.bindings, fields⟩
    ∧ input.selection ∈ fields ∧ engine.Leaves (elapsed before) input key entry
    ∧ (engine.execute input.payload input.context
        (engine.after before (.failing faults))).1.response.cacheStatus? input.selection.key
      = some .miss

/-- What a run keeps to: the clock shows the time that has passed, the store is in order, and every
entry was left by a request of the run. -/
structure Kept (engine : Engine) (faults : Nat → Faults) (past : List Event) : Prop where
  now : (engine.after past (.failing faults)).now = elapsed past
  coherent : (engine.after past (.failing faults)).store.Coherent
  left : ∀ key entry, (key, entry) ∈ (engine.after past (.failing faults)).store.entries →
    ∃ earlier, engine.Left faults past earlier key entry

/-- After a run a root field is answered from what an earlier request left under another context:
there is an entry under its key that has not ended, and it was put for a request that was the same
but for the member that disables the cache, and that was reported as a miss under the response
key. -/
def Reuses (engine : Engine) (faults : Nat → Faults) (past : List Event) (input : ResolveInput)
    (other : RequestContext) : Prop :=
  let bypassField := engine.settings.cache.bypassField
  ∃ root slot entry before earlier since, engine.Cached root input slot
    ∧ (slot.key, entry) ∈ (engine.after past (.failing faults)).store.entries
    ∧ entry.Live (elapsed past)
    ∧ past = before ++ .request earlier other :: since
    ∧ entry.expiresAt = ExpiringMap.ending (elapsed before) engine.settings.cache.ttl
    ∧ CacheKey.isBypassed earlier bypassField = false
    ∧ CacheKey.withoutBypass bypassField earlier = CacheKey.withoutBypass bypassField input.payload
    ∧ (engine.execute earlier other
        (engine.after before (.failing faults))).1.response.cacheStatus? input.selection.key
      = some .miss

variable {faults : Nat → Faults} {past : List Event}

theorem Left.append {input : ResolveInput} {key : String} {entry : StoreEntry}
    (h : engine.Left faults past input key entry) (later : List Event) :
    engine.Left faults (past ++ later) input key entry := by
  obtain ⟨before, since, fields, rfl, hrest⟩ := h
  exact ⟨before, since ++ later, fields, by simp, hrest⟩

/-- What is left for a root field was asked for. -/
theorem Left.asked {events : List Event} (hpast : past ⊆ events) {input : ResolveInput}
    {key : String} {entry : StoreEntry} (h : engine.Left faults past input key entry) :
    ∃ root slot value, engine.Asked events root input ∧ engine.slot? root input = some slot
      ∧ key = slot.key ∧ (engine.fetch root input).2 = .ok value ∧ entry.value = value.text := by
  obtain ⟨before, since, fields, rfl, haccepted, hmember, hleaves, -⟩ := h
  obtain ⟨root, slot, value, hcached, hkey, hvalue, rfl⟩ := hleaves
  exact ⟨root, slot, value, ⟨hpast (by simp), ⟨fields, haccepted, hmember⟩, hcached.bound⟩,
    hcached.slot, hkey, hvalue, rfl⟩

/-- **What is left under the key of a root field** is what is fetched for that field under the
context of the request that left it. -/
theorem Left.value {events : List Event} (cacheable : engine.Cacheable events)
    (hpast : past ⊆ events) {root : BoundRootField} {input earlier : ResolveInput}
    (hasked : engine.Asked events root input) {slot : CacheSlot}
    (hcached : engine.Cached root input slot) {entry : StoreEntry}
    (hleft : engine.Left faults past earlier slot.key entry) {value : Json}
    (hparse : Json.parse? entry.value = some value) :
    ∃ shaped, engine.shape input.selection value = .ok shaped
      ∧ engine.plain { input with context := earlier.context } = .ok shaped := by
  obtain ⟨root', slot', value', hasked', hslot', hkey, hfetch, hentry⟩ := hleft.asked hpast
  obtain ⟨rfl, hselection, hbindings, -⟩ :=
    eq_of_slot_key cacheable hasked hasked' hcached.slot hslot' hkey
  rw [hentry, cacheable.readable hasked' hfetch, Option.some.injEq] at hparse
  obtain rfl := hparse
  let reused : ResolveInput := { input with context := earlier.context }
  have hsame : (engine.fetch root reused).2 = .ok value' := by
    rw [show engine.fetch root reused = engine.fetch root earlier from
      fetch_eq (hselection ▸ .refl _) hbindings rfl]
    exact hfetch
  have hbound : engine.rootField? reused.selection.name = some root := hcached.bound
  obtain ⟨shaped, hshaped⟩ := shape_fetched hbound hsame
  refine ⟨shaped, hshaped, ?_⟩
  show engine.plain reused = _
  rw [plain_eq]
  unfold plainResolve
  simp only [hbound, hcached.queried, hsame]
  exact hshaped

/-- An entry that is shown after a run and was left by an earlier request is reused. -/
theorem Left.reuses {events : List Event} (cacheable : engine.Cacheable events)
    (hpast : past ⊆ events) {root : BoundRootField} {input earlier : ResolveInput}
    (hasked : engine.Asked events root input) {slot : CacheSlot}
    (hcached : engine.Cached root input slot) {entry : StoreEntry}
    (hheld : (slot.key, entry) ∈ (engine.after past (.failing faults)).store.entries)
    (hlive : entry.Live (elapsed past))
    (hleft : engine.Left faults past earlier slot.key entry) :
    engine.Reuses faults past input earlier.context := by
  obtain ⟨root', slot', -, hasked', hslot', hkey, -⟩ := hleft.asked hpast
  obtain ⟨-, hselection, -, hpayload⟩ :=
    eq_of_slot_key cacheable hasked hasked' hcached.slot hslot' hkey
  obtain ⟨before, since, fields, hsplit, -, -, ⟨_, own, _, hown, -, -, hentry⟩, hmissed⟩ := hleft
  refine ⟨root, slot, entry, before, earlier.payload, since, hcached, hheld, hlive, hsplit, ?_,
    (engine.slot?_eq_some hslot').1, hpayload.symm, hselection ▸ hmissed⟩
  rw [hentry, ← (engine.slot?_eq_some hown.slot).2.2]
  exact Store.expiry?_eq own.ttl

/-! ### One root field -/

/-- How a root field of the request that ends a run is answered: under the context of its request
and not as a hit, or as a hit on what an earlier request left under its context. -/
def AnsweredUnder (engine : Engine) (faults : Nat → Faults) (past : List Event)
    (input : ResolveInput) (status : Option CacheStatus) (other : RequestContext) : Prop :=
  (status ≠ some .hit ∧ other = input.context)
    ∨ (status = some .hit ∧ engine.Reuses faults past input other)

/-- Whether a root field finds no entry under its key but those that a run left. -/
def FindsLeft (engine : Engine) (faults : Nat → Faults) (past : List Event) (input : ResolveInput)
    (backend : Backend) : Prop :=
  ∀ root slot, engine.Cached root input slot → ∀ entry, (slot.key, entry) ∈ backend.store.entries →
    (slot.key, entry) ∈ (engine.after past (.failing faults)).store.entries

/-- **What a root field is answered after a run**, if it finds no entry but those that the run
left. -/
theorem answer_reuses {events : List Event} (cacheable : engine.Cacheable events)
    (hpast : past ⊆ events) (hkept : engine.Kept faults past) {input : ResolveInput}
    (hasked : ∀ root, engine.rootField? input.selection.name = some root →
      engine.Asked events root input) {backend : Backend}
    (hinstant : (engine.after past (.failing faults)).Instant backend)
    (hfinds : engine.FindsLeft faults past input backend) :
    ∃ other status,
      (engine.answer input backend).1.result
          = (engine.plain { input with context := other }).map (fun value => (value, status))
        ∧ ((status ≠ .hit ∧ other = input.context)
          ∨ (status = .hit ∧ engine.Reuses faults past input other
            ∧ ∃ value, engine.plain { input with context := other } = .ok value)) := by
  rcases engine.answer_spec input backend with
    ⟨status, hstatus, hresult⟩ | ⟨root, slot, entry, value, hcached, hshows, hparse, hresult⟩
  · exact ⟨input.context, status, hresult, Or.inl ⟨hstatus, rfl⟩⟩
  · have hroot := hasked root hcached.bound
    have hheld := hfinds root slot hcached entry hshows.held
    have hlive : entry.Live (elapsed past) := by
      rw [← hkept.now, ← hinstant.now]
      exact hshows.live (hinstant.coherent hkept.coherent)
    obtain ⟨earlier, hleft⟩ := hkept.left _ _ hheld
    obtain ⟨shaped, hshaped, hplain⟩ := hleft.value cacheable hpast hroot hcached hparse
    refine ⟨earlier.context, .hit, ?_, Or.inr ⟨rfl, ?_, shaped, hplain⟩⟩
    · rw [hresult, hshaped, hplain]
    · exact hleft.reuses cacheable hpast hroot hcached hheld hlive

/-- What is reported of a root field that is answered, and of no other. -/
theorem addAnswer_cache (engine : Engine) (input : ResolveInput) (answers : Answers)
    (backend : Backend) :
    let added := (engine.addAnswer input answers backend).1
    (∀ key, key ≠ input.selection.key →
        Named.find? key added.cache = Named.find? key answers.cache)
      ∧ (Named.find? input.selection.key answers.cache = none →
        Named.find? input.selection.key added.cache =
          if input.selection.name = "__typename" then none
          else (engine.answer input backend).1.result.toOption.map Prod.snd) := by
  unfold addAnswer
  by_cases hname : input.selection.name = "__typename"
  · simp only [hname, if_true]
    exact ⟨fun _ _ => rfl, id⟩
  · simp only [hname, if_false, bind, StateT.bind]
    rcases engine.answer input backend with ⟨⟨activity, result⟩, after⟩
    cases result with
    | error error => exact ⟨fun _ _ => rfl, id⟩
    | ok pair =>
        exact ⟨fun _ hkey => Named.find?_put_of_ne hkey _ _, fun _ => Named.find?_put_self _ _ _⟩

/-! ### Requests -/

/-- What the root fields of the request that ends a run add: each is answered under some context,
and leaves no entry but its own, which it does as a miss. -/
structure Adds (engine : Engine) (faults : Nat → Faults) (past : List Event) (payload : Json)
    (context : RequestContext) (bindings : Variables) (contextOf : String → RequestContext)
    (fields : List RootSelection) (before after : Answers × Backend) : Prop where
  view : viewOf after.1
    = engine.plainFields payload bindings contextOf fields (viewOf before.1)
  answered : ∀ selection ∈ fields, engine.AnsweredUnder faults past
    ⟨selection, bindings, payload, context⟩ (Named.find? selection.key after.1.cache)
    (contextOf selection.key)
  others : ∀ key, key ∉ fields.map RootSelection.key →
    Named.find? key after.1.cache = Named.find? key before.1.cache
  entries : ∀ key entry, (key, entry) ∈ after.2.store.entries →
    (key, entry) ∈ before.2.store.entries ∨ ∃ selection ∈ fields,
      engine.Leaves (elapsed past) ⟨selection, bindings, payload, context⟩ key entry
        ∧ Named.find? selection.key after.1.cache = some .miss
  instant : before.2.Instant after.2

section

variable {payload : Json} {context : RequestContext} {bindings : Variables}

theorem Adds.none (before : Answers × Backend) :
    engine.Adds faults past payload context bindings (fun _ => context) [] before before where
  view := rfl
  answered _ h := absurd h List.not_mem_nil
  others _ _ := rfl
  entries _ _ h := Or.inl h
  instant := .refl _

/-- What a root field adds and what those after it add, if none of them has its key. -/
theorem Adds.cons {selection : RootSelection} {rest : List RootSelection}
    (hnew : selection.key ∉ rest.map RootSelection.key)
    {own contextOf : String → RequestContext} {before between after : Answers × Backend}
    (h : engine.Adds faults past payload context bindings own [selection] before between)
    (hrest : engine.Adds faults past payload context bindings contextOf rest between after) :
    engine.Adds faults past payload context bindings
      (fun key => if key = selection.key then own key else contextOf key) (selection :: rest)
      before after where
  view := by
    have hview : viewOf between.1 = addField selection
        (engine.plain ⟨selection, bindings, payload, own selection.key⟩) (viewOf before.1) := h.view
    rw [hrest.view, hview, plainFields, if_pos rfl]
    refine engine.plainFields_congr (fun later hlater => ?_) _
    have hne : later.key ≠ selection.key := fun heq => hnew (heq ▸ List.mem_map_of_mem hlater)
    simp only [if_neg hne]
  answered later hlater := by
    rcases List.mem_cons.mp hlater with rfl | hlater
    · rw [hrest.others _ hnew, if_pos rfl]
      exact h.answered _ List.mem_cons_self
    · have hne : later.key ≠ selection.key := fun heq => hnew (heq ▸ List.mem_map_of_mem hlater)
      rw [if_neg hne]
      exact hrest.answered later hlater
  others key hkey := by
    rw [List.map_cons, List.mem_cons, not_or] at hkey
    exact (hrest.others key hkey.2).trans (h.others key (by simpa using hkey.1))
  entries key entry hentry := by
    rcases hrest.entries key entry hentry with hbetween | ⟨later, hlater, hleaves⟩
    · rcases h.entries key entry hbetween with hbefore | ⟨first, hfirst, hleaves, hmiss⟩
      · exact Or.inl hbefore
      · obtain rfl := List.mem_singleton.mp hfirst
        exact Or.inr ⟨first, List.mem_cons_self, hleaves, (hrest.others _ hnew).trans hmiss⟩
    · exact Or.inr ⟨later, List.mem_cons_of_mem _ hlater, hleaves⟩
  instant := h.instant.trans hrest.instant

variable {events : List Event}

/-- The name of the type that is asked for. -/
theorem addAnswer_type {selection : RootSelection} (hname : selection.name = "__typename")
    {answers : Answers} (hnew : Named.find? selection.key answers.cache = none)
    (backend : Backend) :
    engine.Adds faults past payload context bindings (fun _ => context) [selection]
      (answers, backend)
      (engine.addAnswer ⟨selection, bindings, payload, context⟩ answers backend) := by
  obtain ⟨hview, hbackend⟩ :=
    engine.addAnswer_eq ⟨selection, bindings, payload, context⟩ answers backend
  obtain ⟨hothers, hstatus⟩ :=
    engine.addAnswer_cache ⟨selection, bindings, payload, context⟩ answers backend
  rw [if_pos hname] at hbackend hstatus
  refine ⟨?_, List.forall_mem_singleton.mpr (Or.inl ⟨?_, rfl⟩),
    fun key hkey => hothers key (by simpa using hkey), fun key entry hentry => Or.inl ?_, ?_⟩
  · rw [hview, plainFields, plainFields]
    unfold addField
    rw [if_pos hname, if_pos hname]
  · rw [hstatus hnew]
    simp
  · rwa [hbackend] at hentry
  · rw [hbackend]
    exact .refl _

/-- One root field. -/
theorem addAnswer_adds (cacheable : engine.Cacheable events) (hpast : past ⊆ events)
    (hkept : engine.Kept faults past) {selection : RootSelection}
    (hasked : ∀ root, engine.rootField? selection.name = some root →
      engine.Asked events root ⟨selection, bindings, payload, context⟩)
    {answers : Answers} (hnew : Named.find? selection.key answers.cache = none) {backend : Backend}
    (hinstant : (engine.after past (.failing faults)).Instant backend)
    (hfinds : engine.FindsLeft faults past ⟨selection, bindings, payload, context⟩ backend) :
    ∃ other, engine.Adds faults past payload context bindings (fun _ => other) [selection]
      (answers, backend)
      (engine.addAnswer ⟨selection, bindings, payload, context⟩ answers backend) := by
  by_cases hname : selection.name = "__typename"
  · exact ⟨context, addAnswer_type hname hnew backend⟩
  let input : ResolveInput := ⟨selection, bindings, payload, context⟩
  obtain ⟨hview, hbackend⟩ := engine.addAnswer_eq input answers backend
  obtain ⟨hothers, hstatus⟩ := engine.addAnswer_cache input answers backend
  obtain ⟨other, status, hresult, hcase⟩ :=
    @answer_reuses engine faults past events cacheable hpast hkept input hasked backend hinstant
      hfinds
  obtain ⟨hleaves, hstay⟩ := engine.answer_leaves input backend
  rw [if_neg hname] at hbackend hstatus
  refine ⟨other, ?_, List.forall_mem_singleton.mpr ?_,
    fun key hkey => hothers key (by simpa using hkey), fun key entry hentry => ?_, ?_⟩
  · show viewOf (engine.addAnswer input answers backend).1
      = addField selection (engine.plain { input with context := other }) (viewOf answers)
    rw [hview, hresult]
    cases engine.plain { input with context := other } <;> rfl
  · rw [hstatus hnew, hresult]
    rcases hcase with ⟨hmiss, hcontext⟩ | ⟨rfl, hreuses, value, hvalue⟩
    · refine Or.inl ⟨?_, hcontext⟩
      cases engine.plain { input with context := other } with
      | error error => exact nofun
      | ok value => exact fun heq => hmiss (Option.some.inj heq)
    · refine Or.inr ⟨?_, hreuses⟩
      rw [hvalue]
      rfl
  · rw [hbackend] at hentry
    rcases hleaves key entry hentry with hheld | ⟨hown, shaped, hmiss⟩
    · exact Or.inl hheld
    · refine Or.inr ⟨selection, List.mem_cons_self, ?_, ?_⟩
      · rw [← hkept.now, ← hinstant.now]
        exact hown
      · rw [hstatus hnew, hmiss]
        rfl
  · rw [hbackend]
    exact hstay

/-- **The root fields of the request that ends a run**, of which no two have one key. -/
theorem addAnswers_adds (cacheable : engine.Cacheable events) (hpast : past ⊆ events)
    (hkept : engine.Kept faults past) {fields : List RootSelection}
    (hnodup : (fields.map RootSelection.key).Nodup)
    (hasked : ∀ selection ∈ fields, ∀ root, engine.rootField? selection.name = some root →
      engine.Asked events root ⟨selection, bindings, payload, context⟩)
    {answers : Answers}
    (hnew : ∀ selection ∈ fields, Named.find? selection.key answers.cache = none)
    {backend : Backend} (hinstant : (engine.after past (.failing faults)).Instant backend)
    (hfinds : ∀ selection ∈ fields,
      engine.FindsLeft faults past ⟨selection, bindings, payload, context⟩ backend) :
    ∃ contextOf : String → RequestContext,
      (∀ key, key ∉ fields.map RootSelection.key → contextOf key = context)
        ∧ engine.Adds faults past payload context bindings contextOf fields (answers, backend)
          (engine.addAnswers payload context bindings fields answers backend) := by
  induction fields generalizing answers backend with
  | nil => exact ⟨fun _ => context, fun _ _ => rfl, .none _⟩
  | cons selection rest ih =>
      rw [List.map_cons, List.nodup_cons] at hnodup
      obtain ⟨hown, hlater⟩ := List.forall_mem_cons.mp hasked
      obtain ⟨hfirstNew, hnew⟩ := List.forall_mem_cons.mp hnew
      obtain ⟨hfirstFinds, hfinds⟩ := List.forall_mem_cons.mp hfinds
      have hne : ∀ later ∈ rest, later.key ≠ selection.key := fun later hmember heq =>
        hnodup.1 (heq ▸ List.mem_map_of_mem hmember)
      obtain ⟨other, hfirst⟩ :=
        addAnswer_adds cacheable hpast hkept hown hfirstNew hinstant hfirstFinds
      have hstillNew : ∀ later ∈ rest, Named.find? later.key (engine.addAnswer
          ⟨selection, bindings, payload, context⟩ answers backend).1.cache = none := by
        intro later hmember
        rw [hfirst.others _ (by simpa using hne later hmember)]
        exact hnew later hmember
      have hstillFinds : ∀ later ∈ rest, engine.FindsLeft faults past
          ⟨later, bindings, payload, context⟩ (engine.addAnswer
            ⟨selection, bindings, payload, context⟩ answers backend).2 := by
        intro later hmember root slot hcached entry hentry
        rcases hfirst.entries _ _ hentry with hheld | ⟨first, hmem, hleaves, -⟩
        · exact hfinds later hmember root slot hcached entry hheld
        · -- no two root fields of a request have one key
          obtain rfl := List.mem_singleton.mp hmem
          obtain ⟨root', slot', -, hcached', hkey, -⟩ := hleaves
          obtain ⟨-, hsame, -⟩ := eq_of_slot_key cacheable (hlater later hmember root hcached.bound)
            (hown root' hcached'.bound) hcached.slot hcached'.slot hkey
          exact absurd (congrArg RootSelection.key hsame) (hne later hmember)
      obtain ⟨contextOf, hcontext, hrest⟩ := ih hnodup.2 hlater hstillNew
        (hinstant.trans hfirst.instant) hstillFinds
      refine ⟨fun key => if key = selection.key then other else contextOf key,
        fun key hkey => ?_, hfirst.cons hnodup.1 hrest⟩
      rw [List.map_cons, List.mem_cons, not_or] at hkey
      show (if key = selection.key then other else contextOf key) = context
      rw [if_neg hkey.1]
      exact hcontext key hkey.2

/-! ### Whole runs -/

/-- **The request that ends a run**: it is refused and does nothing, or its root fields are answered
as after the run. -/
theorem execute_adds (cacheable : engine.Cacheable (past ++ [.request payload context]))
    (hkept : engine.Kept faults past) :
    let backend := engine.after past (.failing faults)
    let executed := engine.execute payload context backend
    match AcceptedRequest.ofJson payload with
      | .error error => executed = (⟨.refused error.message, .none⟩, backend)
      | .ok request => ∃ contextOf answers,
        (∀ key, key ∉ request.fields.map RootSelection.key → contextOf key = context)
          ∧ engine.Adds faults past payload context request.bindings contextOf request.fields
            (.none, backend) (answers, executed.2)
          ∧ executed.1 = ⟨answers.toResponse, answers.activity⟩ := by
  dsimp only
  unfold execute
  cases haccepted : AcceptedRequest.ofJson payload with
  | error error => rfl
  | ok request =>
      have hevent : .request payload context ∈ past ++ [.request payload context] := by simp
      have hasked : ∀ selection ∈ request.fields, ∀ root,
          engine.rootField? selection.name = some root → engine.Asked _ root
            ⟨selection, request.bindings, payload, context⟩ :=
        fun selection hselection root hroot =>
          ⟨hevent, ⟨request.fields, haccepted, hselection⟩, hroot⟩
      have hnew : ∀ selection ∈ request.fields,
          Named.find? selection.key Answers.none.cache = none := fun _ _ => rfl
      obtain ⟨contextOf, hcontext, hadds⟩ := addAnswers_adds cacheable
        (List.subset_append_left _ _) hkept (cacheable.distinct hevent haccepted) hasked hnew
        (.refl _) (fun _ _ _ _ _ _ hheld => hheld)
      exact ⟨contextOf, _, hcontext, hadds, rfl⟩

end

theorem after_snoc (past : List Event) (event : Event) (backend : Backend) :
    engine.after (past ++ [event]) backend = engine.handle (engine.after past backend) event := by
  unfold after
  rw [List.foldl_append]
  rfl

/-- A request keeps what the run keeps to. -/
theorem Kept.request {payload : Json} {context : RequestContext}
    (cacheable : engine.Cacheable (past ++ [.request payload context]))
    (h : engine.Kept faults past) : engine.Kept faults (past ++ [.request payload context]) := by
  have hexecuted := execute_adds cacheable h
  have helapsed : elapsed (past ++ [.request payload context]) = elapsed past := by
    simp [elapsed, Event.duration]
  cases haccepted : AcceptedRequest.ofJson payload with
  | error error =>
      rw [haccepted] at hexecuted
      have hsame : engine.after (past ++ [.request payload context]) (.failing faults)
          = engine.after past (.failing faults) := by
        rw [after_snoc]
        exact congrArg Prod.snd hexecuted
      refine ⟨?_, ?_, fun key entry hentry => ?_⟩
      · rw [hsame, helapsed, h.now]
      · rw [hsame]
        exact h.coherent
      · rw [hsame] at hentry
        obtain ⟨earlier, hleft⟩ := h.left key entry hentry
        exact ⟨earlier, hleft.append _⟩
  | ok request =>
      rw [haccepted] at hexecuted
      obtain ⟨contextOf, answers, -, hadds, hresponse⟩ := hexecuted
      refine ⟨?_, ?_, fun key entry hentry => ?_⟩
      · rw [after_snoc, helapsed, ← h.now]
        exact hadds.instant.now
      · rw [after_snoc]
        exact hadds.instant.coherent h.coherent
      · rw [after_snoc] at hentry
        rcases hadds.entries key entry hentry with hheld | ⟨selection, hselection, hleaves, hmiss⟩
        · obtain ⟨earlier, hleft⟩ := h.left key entry hheld
          exact ⟨earlier, hleft.append _⟩
        · refine ⟨⟨selection, request.bindings, payload, context⟩, past, [], request.fields, rfl,
            haccepted, hselection, hleaves, ?_⟩
          dsimp only
          rw [hresponse]
          exact hmiss

/-- Time that passes keeps it. -/
theorem Kept.wait (h : engine.Kept faults past) (duration : Nat) :
    engine.Kept faults (past ++ [.wait duration]) := by
  refine ⟨?_, ?_, fun key entry hentry => ?_⟩
  · rw [after_snoc, elapsed_append, ← h.now]
    rfl
  · rw [after_snoc]
    exact h.coherent
  · rw [after_snoc] at hentry
    obtain ⟨earlier, hleft⟩ := h.left key entry hentry
    exact ⟨earlier, hleft.append _⟩

/-- **What is kept to, whatever went wrong.** -/
theorem kept_after (cacheable : engine.Cacheable past) : engine.Kept faults past := by
  induction past using List.reverseRecOn with
  | nil => exact ⟨rfl, .empty, fun key entry h => absurd h List.not_mem_nil⟩
  | append_singleton past event ih =>
      have hkept := ih (cacheable.mono fun _ h => List.mem_append_left _ h)
      cases event with
      | wait duration => exact hkept.wait duration
      | request payload context => exact hkept.request cacheable

end Engine

end GraphFetch
