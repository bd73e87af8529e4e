/-
What a cache does to answers.

Where the hook treats all contexts alike nothing shows: data and errors are those of the
engine without its cache, whatever was asked before and whatever went wrong.  Where it does
not, the hits show, and nothing else: a key says nothing of the context, so a hit gives what
was fetched under the context of the earlier request that left it.  The engine below, which
shows to each tenant its own notes, answers one tenant with the notes of another.
-/
import GraphFetch.Database.Load
import GraphFetch.Proofs.Engine.Reuse

namespace GraphFetch

namespace Engine

variable {engine : Engine}

/-! ### After a run -/

/-- What the request that ends a run is answered, field by field. -/
theorem execute_after (faults : Nat → Faults) {past : List Event} {payload : Json}
    {context : RequestContext} (cacheable : engine.Cacheable (past ++ [.request payload context])) :
    let response := (engine.execute payload context
      (engine.after past (.failing faults))).1.response
    match AcceptedRequest.ofJson payload with
      | .error error => response = .refused error.message
      | .ok request => ∃ contextOf : String → RequestContext,
        (∀ selection ∈ request.fields, engine.AnsweredUnder faults past
          ⟨selection, request.bindings, payload, context⟩ (response.cacheStatus? selection.key)
          (contextOf selection.key))
        ∧ (∀ key, key ∉ request.fields.map RootSelection.key →
          response.cacheStatus? key = none ∧ contextOf key = context)
        ∧ shown response = (engine.plainFields payload request.bindings contextOf request.fields
            ([], [])).map Json.obj id := by
  have hkept : engine.Kept faults past :=
    kept_after (cacheable.mono fun _ h => List.mem_append_left _ h)
  have hexecuted := execute_adds cacheable hkept
  dsimp only at hexecuted ⊢
  cases haccepted : AcceptedRequest.ofJson payload with
  | error error =>
      rw [haccepted] at hexecuted
      rw [hexecuted]
  | ok request =>
      rw [haccepted] at hexecuted
      obtain ⟨contextOf, answers, hcontext, hadds, hresponse⟩ := hexecuted
      rw [hresponse]
      refine ⟨contextOf, hadds.answered, fun key hkey => ⟨hadds.others key hkey, hcontext key hkey⟩,
        ?_⟩
      rw [show (([], []) : View) = viewOf .none from rfl, ← hadds.view]
      rfl

/-! ### Hooks that treat contexts alike -/

/-- **Whatever was asked before and whatever went wrong, data and errors are those of the engine
without its cache; a hit asks the executor nothing, and a request that disables the cache leaves
it alone.** -/
theorem execute_transparent {faults : Nat → Faults} {past : List Event} {payload : Json}
    {context : RequestContext} (hhook : ∀ first second, engine.hook first = engine.hook second)
    (cacheable : engine.Cacheable (past ++ [.request payload context])) :
    let backend := engine.after past (.failing faults)
    let cached := (engine.execute payload context backend).1.response
    let plain := (engine.uncached.execute payload context .fresh).1.response
    (cached.data = plain.data ∧ cached.errors = plain.errors)
      ∧ (∀ input during value, (engine.answer input during).1.result = .ok (value, .hit) →
          (engine.answer input during).1.activity = .none)
      ∧ (CacheKey.isBypassed payload engine.settings.cache.bypassField = true →
          (engine.execute payload context backend).2 = backend) := by
  refine ⟨?_, fun _ _ _ => answer_hit, fun h => execute_bypassed h context _⟩
  have hcached := execute_after faults cacheable
  have hplain := engine.execute_uncached payload context .fresh
  cases haccepted : AcceptedRequest.ofJson payload with
  | error error =>
      rw [haccepted] at hcached hplain
      rw [hcached, hplain]
      exact ⟨rfl, rfl⟩
  | ok request =>
      rw [haccepted] at hcached hplain
      obtain ⟨contextOf, hanswered, -, hshown⟩ := hcached
      have hsame : engine.plainFields payload request.bindings contextOf request.fields ([], [])
          = engine.plainFields payload request.bindings (fun _ => context) request.fields
              ([], []) := by
        refine engine.plainFields_congr (fun selection hselection => ?_) _
        rcases hanswered selection hselection with ⟨-, hown⟩ | ⟨-, hreuses⟩
        · rw [hown]
        · obtain ⟨root, slot, _, _, _, _, hcached, -⟩ := hreuses
          exact plain_context hhook hcached.fetches (contextOf selection.key)
      rw [hsame, ← hplain] at hshown
      exact ⟨congrArg Prod.fst hshown, congrArg Prod.snd hshown⟩

/-! ### Hooks that tell contexts apart -/

/-- A root field of the request that ends a run is answered, under its key, from what an earlier
request left under another context. -/
def HitFrom (engine : Engine) (faults : Nat → Faults) (past : List Event) (payload : Json)
    (context : RequestContext) (key : String) (other : RequestContext) : Prop :=
  ∃ request selection, AcceptedRequest.ofJson payload = .ok request ∧ selection ∈ request.fields
    ∧ selection.key = key
    ∧ engine.Reuses faults past ⟨selection, request.bindings, payload, context⟩ other

/-- **A request is answered under its own context, its hits apart.**  What stands under a key that
is not reported as a hit is what stands there without a cache.  What stands under one that is comes
from an entry that has not ended, and it is what stands there without a cache under the context of
an earlier request, the same but for the member that disables the cache, that missed there and left
the entry.  So where all such requests had the context of this one, it is answered as without a
cache. -/
theorem execute_contexts {faults : Nat → Faults} {past : List Event} {payload : Json}
    {context : RequestContext} (cacheable : engine.Cacheable (past ++ [.request payload context])) :
    let cached := (engine.execute payload context (engine.after past (.failing faults))).1.response
    let plain := fun other => (engine.uncached.execute payload other .fresh).1.response
    (∀ key, cached.cacheStatus? key ≠ some .hit →
        cached.data.member? key = (plain context).data.member? key
          ∧ errorsAt key cached.errors = errorsAt key (plain context).errors)
      ∧ (∀ key, cached.cacheStatus? key = some .hit →
        ∃ other, engine.HitFrom faults past payload context key other
          ∧ cached.data.member? key = (plain other).data.member? key
          ∧ errorsAt key cached.errors = errorsAt key (plain other).errors)
      ∧ ((∀ key other, engine.HitFrom faults past payload context key other → other = context) →
        cached.data = (plain context).data ∧ cached.errors = (plain context).errors) := by
  intro response plain
  have hcached := execute_after faults cacheable
  have hplain : ∀ other, _ := fun other => engine.execute_uncached payload other .fresh
  cases haccepted : AcceptedRequest.ofJson payload with
  | error error =>
      simp only [haccepted] at hcached hplain
      rw [show response = _ from hcached, show plain context = _ from hplain context]
      exact ⟨fun _ _ => ⟨rfl, rfl⟩, fun _ hhit => absurd hhit nofun, fun _ => ⟨rfl, rfl⟩⟩
  | ok request =>
      simp only [haccepted] at hcached hplain
      obtain ⟨contextOf, hanswered, hothers, hshown⟩ := hcached
      have hkey : ∀ key,
          (response.cacheStatus? key ≠ some .hit ∧ contextOf key = context)
            ∨ (response.cacheStatus? key = some .hit
              ∧ engine.HitFrom faults past payload context key (contextOf key)) := by
        intro key
        by_cases hmem : key ∈ request.fields.map RootSelection.key
        · obtain ⟨selection, hselection, rfl⟩ := List.mem_map.mp hmem
          refine (hanswered selection hselection).imp_right fun ⟨hhit, hreuses⟩ => ⟨hhit, ?_⟩
          exact ⟨request, selection, haccepted, hselection, rfl, hreuses⟩
        · obtain ⟨hnone, hown⟩ := hothers key hmem
          exact Or.inl ⟨by rw [hnone]; simp, hown⟩
      have hat : ∀ key, response.data.member? key = (plain (contextOf key)).data.member? key
          ∧ errorsAt key response.errors = errorsAt key (plain (contextOf key)).errors := by
        intro key
        obtain ⟨hdata, herrors⟩ := shown_at hshown key
        obtain ⟨hdata', herrors'⟩ := shown_at (hplain (contextOf key)) key
        rw [hdata, herrors, hdata', herrors']
        refine engine.plainFields_at ?_ ?_
        · rfl
        · exact ⟨rfl, rfl⟩
      refine ⟨fun key hstatus => ?_, fun key hstatus => ?_, fun hown => ?_⟩
      · rcases hkey key with ⟨-, hcontext⟩ | ⟨hhit, -⟩
        · exact hcontext ▸ hat key
        · exact absurd hhit hstatus
      · rcases hkey key with ⟨hmiss, -⟩ | ⟨-, hfrom⟩
        · exact absurd hstatus hmiss
        · exact ⟨contextOf key, hfrom, hat key⟩
      · have hall : contextOf = fun _ => context :=
          funext fun key => (hkey key).elim And.right fun h => hown key _ h.2
        rw [hall, ← hplain context] at hshown
        exact ⟨congrArg Prod.fst hshown, congrArg Prod.snd hshown⟩

/-- A request for one root field shows what that field is answered. -/
theorem execute_single {payload : Json} {bindings : Variables} {selection : RootSelection}
    (haccepted : AcceptedRequest.ofJson payload = .ok ⟨bindings, [selection]⟩)
    (hname : selection.name ≠ "__typename") (context : RequestContext) (backend : Backend) :
    let answered := engine.answer ⟨selection, bindings, payload, context⟩ backend
    shown (engine.execute payload context backend).1.response
        = (addField selection (answered.1.result.map Prod.fst) ([], [])).map Json.obj id
      ∧ (engine.execute payload context backend).2 = answered.2 := by
  obtain ⟨hview, hbackend⟩ := engine.addAnswer_eq ⟨selection, bindings, payload, context⟩ .none
    backend
  rw [if_neg hname] at hbackend
  unfold execute
  rw [haccepted]
  refine ⟨?_, hbackend⟩
  rw [show (([], []) : View) = viewOf .none from rfl, ← hview]
  rfl

/-- **A request that is made again is answered as before, whatever its context.** -/
theorem execute_again {payload : Json} {bindings : Variables} {selection : RootSelection}
    {root : BoundRootField} {value : Json} {first : RequestContext}
    (haccepted : AcceptedRequest.ofJson payload = .ok ⟨bindings, [selection]⟩)
    (hname : selection.name ≠ "__typename")
    (hroot : engine.rootField? selection.name = some root)
    (hcustom : (engine.registry.entity root.entity).customFetch? root.cardinality = none)
    (hcache : (engine.hasCache && engine.settings.cache.enabled) = true)
    (hbypass : CacheKey.isBypassed payload engine.settings.cache.bypassField = false)
    (httl : engine.settings.cache.ttl = none)
    (hfetch : (engine.fetch root ⟨selection, bindings, payload, first⟩).2 = .ok value)
    (hfull : Normalized.isEmpty value = false) (hread : Json.parse? value.text = some value)
    (second : RequestContext) :
    let backend := engine.after [.request payload first] (.failing fun _ => {})
    shown (engine.execute payload second backend).1.response
      = shown (engine.uncached.execute payload first .fresh).1.response := by
  show shown (engine.execute payload second (engine.execute payload first .fresh).2).1.response = _
  obtain ⟨slot, hslot, hkept⟩ : ∃ slot : CacheSlot, slot.ttl = none ∧ ∀ context,
      engine.slot? root ⟨selection, bindings, payload, context⟩ = some slot := by
    let digest := CacheKey.digest (root.name ++ ":" ++ selection.key) payload
      engine.settings.cache.bypassField bindings
    refine ⟨⟨CacheKey.text engine.settings.cache.keyPrefix digest, engine.settings.cache.ttl⟩, httl,
      fun context => ?_⟩
    unfold slot?
    dsimp only
    rw [hcache, hbypass]
    rfl
  have hresolved : (engine.resolve ⟨selection, bindings, payload, second⟩
      (engine.answer ⟨selection, bindings, payload, first⟩ .fresh).2).1.result
        = .ok (value, .hit) :=
    resolve_again hroot hroot hcustom (hkept first) (hkept second) hslot hfetch hfull hread
  have hplain : (engine.uncached.answer ⟨selection, bindings, payload, first⟩
      .fresh).1.result.map Prod.fst = engine.shape selection value := by
    rw [(engine.answer_uncached _ _).1, plain_eq]
    unfold plainResolve
    simp only [hroot, hcustom, hfetch]
    rfl
  rw [(execute_single haccepted hname first .fresh).2,
    (execute_single haccepted hname second _).1, (execute_single haccepted hname first .fresh).1,
    hplain, answer_value, hresolved]
  rfl

/-! ### Tenants -/

namespace Tenants

def note : Entity where
  id := 0
  name := "Note"
  table := "notes"
  columns := [("text", ⟨"text", "text", false⟩)]
  relations := []
  virtuals := []
  filters := []
  customSingle := none
  customList := none

def database : Database where
  registry := ⟨[note]⟩
  tables := [("notes", [
    [("text", .str "plan"), ("tenant", .str "acme")],
    [("text", .str "memo"), ("tenant", .str "umbra")]])]

/-- Shows to each tenant its own notes. -/
def ownNotes : QueryHook := fun context =>
  match context.get? "tenant" with
  | some tenant => [.filter ⟨"tenant", .eq, some (.string tenant)⟩]
  | none => []

def notes : BoundRootField := ⟨"notes", 0, .list, none⟩

def archive (hook : QueryHook) : Engine where
  registry := database.registry
  settings := {}
  executor := database.execute
  rootFields := [("notes", notes)]
  hook
  hasCache := true

def payload : Json := .obj [("query", .str "\x7bnotes\x7btext\x7d\x7d")]

def acme : RequestContext := RequestContext.empty.insert "tenant" "acme"

def umbra : RequestContext := RequestContext.empty.insert "tenant" "umbra"

def texts : RootSelection := WrittenField.root [] ⟨"notes", none, [], [], [.leaf "text"]⟩

theorem accepted : AcceptedRequest.ofJson payload = .ok ⟨[], [texts]⟩ :=
  (AcceptedRequest.ofJson_query _).trans rfl

/-- The notes of these texts. -/
def withTexts (names : List String) : Json :=
  .arr (names.map fun name => .obj [("text", .str name)])

theorem fetch_all (context : RequestContext) :
    ((archive fun _ => []).fetch notes ⟨texts, [], payload, context⟩).2
      = .ok (withTexts ["plan", "memo"]) := by
  rfl

theorem fetch_acme :
    ((archive ownNotes).fetch notes ⟨texts, [], payload, acme⟩).2
      = .ok (withTexts ["plan"]) := by
  rfl

theorem fetch_umbra :
    ((archive ownNotes).fetch notes ⟨texts, [], payload, umbra⟩).2
      = .ok (withTexts ["memo"]) := by
  rfl

theorem read_all : Json.parse? (withTexts ["plan", "memo"]).text
    = some (withTexts ["plan", "memo"]) :=
  (Json.parse?_text _).trans rfl

theorem read_acme : Json.parse? (withTexts ["plan"]).text = some (withTexts ["plan"]) :=
  (Json.parse?_text _).trans rfl

theorem read_umbra : Json.parse? (withTexts ["memo"]).text = some (withTexts ["memo"]) :=
  (Json.parse?_text _).trans rfl

/-- Runs in which only this payload is sent, with fetched values that are read back. -/
theorem cacheable {hook : QueryHook} {events : List Event}
    (honly : ∀ {sent context}, .request sent context ∈ events → sent = payload ∧
      ∃ value, ((archive hook).fetch notes ⟨texts, [], payload, context⟩).2 = .ok value
        ∧ Json.parse? value.text = some value) :
    (archive hook).Cacheable events := by
  have hasked : ∀ {root input}, (archive hook).Asked events root input →
      root = notes ∧ input = ⟨texts, [], payload, input.context⟩ := by
    intro root input hasked
    obtain ⟨selection, bindings, sent, context⟩ := input
    obtain ⟨rfl, -⟩ := honly hasked.event
    obtain ⟨fields, haccepted, hmember⟩ := hasked.accepted
    rw [accepted, Except.ok.injEq, AcceptedRequest.mk.injEq] at haccepted
    obtain ⟨rfl, rfl⟩ := haccepted
    obtain rfl : selection = texts := List.mem_singleton.mp hmember
    exact ⟨(Option.some.inj hasked.bound).symm, rfl⟩
  have hfield : "skipCache" ∉ payloadFields := by decide
  refine ⟨hfield, fun hevent haccepted => ?_, fun h => ?_, fun h h' _ => ?_, fun h hvalue => ?_⟩
  · rw [(honly hevent).1, accepted, Except.ok.injEq] at haccepted
    rw [← haccepted]
    exact List.nodup_singleton _
  · obtain ⟨rfl, hinput⟩ := hasked h
    rw [hinput]
    exact ⟨trivial, ⟨trivial, trivial⟩, trivial, trivial⟩
  · obtain ⟨rfl, hinput⟩ := hasked h
    obtain ⟨rfl, hinput'⟩ := hasked h'
    rw [hinput, hinput']
    rfl
  · obtain ⟨rfl, hinput⟩ := hasked h
    obtain ⟨-, value, hfetch, hread⟩ := honly h.event
    rw [hinput, hfetch, Except.ok.injEq] at hvalue
    rwa [← hvalue]

theorem plain_ne :
    ((archive ownNotes).uncached.execute payload acme .fresh).1.response.data
      ≠ ((archive ownNotes).uncached.execute payload umbra .fresh).1.response.data := by
  have htext : ((archive ownNotes).uncached.execute payload acme .fresh).1.response.data.text
      ≠ ((archive ownNotes).uncached.execute payload umbra .fresh).1.response.data.text := by
    decide +kernel
  exact fun heq => htext (congrArg Json.text heq)

end Tenants

/-- Two tenants ask for notes that are shown to both, and the first answer cannot be stored. -/
theorem execute_transparent_notes :
    let engine := Tenants.archive fun _ => []
    let backend := engine.after [.request Tenants.payload Tenants.acme, .wait 7,
      .request Tenants.payload Tenants.acme] (.failing fun call => { put := call == 1 })
    let cached := (engine.execute Tenants.payload Tenants.umbra backend).1.response
    let plain := (engine.uncached.execute Tenants.payload Tenants.umbra .fresh).1.response
    cached.data = plain.data ∧ cached.errors = plain.errors := by
  have hcacheable : (Tenants.archive fun _ => []).Cacheable
      ([.request Tenants.payload Tenants.acme, .wait 7, .request Tenants.payload Tenants.acme]
        ++ [.request Tenants.payload Tenants.umbra]) := by
    refine Tenants.cacheable fun {sent context} hsent =>
      ⟨?_, _, Tenants.fetch_all context, Tenants.read_all⟩
    simp only [List.cons_append, List.nil_append, List.mem_cons, Event.request.injEq] at hsent
    rcases hsent with ⟨rfl, -⟩ | hwait | ⟨rfl, -⟩ | ⟨rfl, -⟩ | hnone
    · rfl
    · cases hwait
    · rfl
    · rfl
    · cases hnone
  have hall := @execute_transparent (Tenants.archive fun _ => [])
    (fun call => { put := call == 1 }) _ _ _ (fun _ _ => rfl) hcacheable
  exact hall.1

/-- What one tenant is shown as a hit is what another was shown who asked before. -/
theorem execute_contexts_notes :
    let engine := Tenants.archive Tenants.ownNotes
    let past := [.request Tenants.payload Tenants.acme]
    let cached := (engine.execute Tenants.payload Tenants.umbra
      (engine.after past (.failing fun _ => {}))).1.response
    let plain := (engine.uncached.execute Tenants.payload Tenants.acme .fresh).1.response
    cached.cacheStatus? "notes" = some .hit
      ∧ engine.HitFrom (fun _ => {}) past Tenants.payload Tenants.umbra "notes" Tenants.acme
      ∧ cached.data.member? "notes" = plain.data.member? "notes"
      ∧ errorsAt "notes" cached.errors = errorsAt "notes" plain.errors := by
  intro engine past cached plain
  have hcacheable : engine.Cacheable (past ++ [.request Tenants.payload Tenants.umbra]) := by
    refine Tenants.cacheable fun {sent context} hsent => ?_
    simp only [past, List.cons_append, List.nil_append, List.mem_cons, Event.request.injEq,
      List.not_mem_nil, or_false] at hsent
    rcases hsent with ⟨rfl, rfl⟩ | ⟨rfl, rfl⟩
    · exact ⟨rfl, _, Tenants.fetch_acme, Tenants.read_acme⟩
    · exact ⟨rfl, _, Tenants.fetch_umbra, Tenants.read_umbra⟩
  have hhit : cached.cacheStatus? "notes" = some .hit := by decide +kernel
  obtain ⟨-, hhits, -⟩ := @execute_contexts engine (fun _ => {}) _ _ _ hcacheable
  obtain ⟨other, hfrom, hdata, herrors⟩ := hhits "notes" hhit
  have hother : other = Tenants.acme := by
    obtain ⟨_, _, -, -, -, _, _, _, before, earlier, since, -, -, -, hpast, -⟩ := hfrom
    have hmember : .request earlier other ∈ past := by rw [hpast]; simp
    rw [List.mem_singleton, Event.request.injEq] at hmember
    exact hmember.2
  subst hother
  exact ⟨hhit, hfrom, hdata, herrors⟩

/-- **One tenant is shown the notes of another who asked the same before.** -/
theorem execute_leaks :
    let engine := Tenants.archive Tenants.ownNotes
    let backend := engine.after [.request Tenants.payload Tenants.acme] (.failing fun _ => {})
    (engine.execute Tenants.payload Tenants.umbra backend).1.response.data
      ≠ (engine.uncached.execute Tenants.payload Tenants.umbra .fresh).1.response.data := by
  have hagain := @execute_again (Tenants.archive Tenants.ownNotes) _ _ _ _ _ _ Tenants.accepted
    (by decide) rfl rfl rfl rfl rfl Tenants.fetch_acme rfl Tenants.read_acme Tenants.umbra
  unfold shown at hagain
  obtain ⟨hdata, -⟩ := Prod.mk.inj hagain
  dsimp only
  rw [hdata]
  exact Tenants.plain_ne

end Engine

end GraphFetch
