/-
Keys of the root fields of one request.

The key of a root field holds the whole payload, and says which root field of it is meant by the
name of the field and its response key only.  These are told apart in the key, whatever the names.
So root fields share a key exactly if they share both, and a field that shares them with no
earlier one of its request is given nothing that the request itself has put into the cache.

Fields that share both may still differ in their arguments or in what they select; then the later
one is answered with what the earlier one was.
-/
import GraphFetch.Proofs.Engine.Reuse
import GraphFetch.Proofs.Engine.RootFields

namespace GraphFetch

/-! ### What a key says of a root field -/

/-- Of contents for one payload and one set of values, the text tells the field. -/
theorem CacheKey.content_text_injective {field other bypassField : String} {payload : Json}
    {bindings : Variables} (h : (content field payload bypassField bindings).text
      = (content other payload bypassField bindings).text) : field = other := by
  have hchars := String.ofList_injective h
  simp only [content, Json.chars, List.cons.injEq, true_and, List.append_cancel_left_eq] at hchars
  exact (Json.quoted_append_injective hchars).1

/-- A name and a response key are told apart in one text. -/
theorem RootSelection.eq_of_append {selection other : RootSelection}
    (hkey : Document.IsName selection.key) (hkey' : Document.IsName other.key)
    (h : selection.name ++ ":" ++ selection.key = other.name ++ ":" ++ other.key) :
    selection.name = other.name ∧ selection.key = other.key := by
  have heq : selection.key = other.key := Engine.eq_of_append_colon hkey hkey' h
  refine ⟨?_, heq⟩
  rw [heq] at h
  exact String.append_left_inj _ |>.mp (String.append_left_inj _ |>.mp h)

namespace Engine

variable {engine : Engine}

/-- Root fields are bound under their own names. -/
def NamesRoots (engine : Engine) : Prop :=
  ∀ name root, engine.rootField? name = some root → root.name = name

theorem build_namesRoots {registry : Registry} {settings : Settings} {executor : Executor}
    {fields : List RootField} {hook : QueryHook} {hasCache : Bool}
    (h : build registry settings executor fields hook hasCache = .ok engine) :
    engine.NamesRoots :=
  fun _ _ hroot => (bind_of_rootField? h hroot).1

/-- Whether what is hashed for the root fields of a request has one hash only if it is one text. -/
def Separates (engine : Engine) (payload : Json) (request : AcceptedRequest) : Prop :=
  let content (selection : RootSelection) : Json :=
    CacheKey.content (selection.name ++ ":" ++ selection.key) payload
      engine.settings.cache.bypassField request.bindings
  ∀ selection ∈ request.fields, ∀ other ∈ request.fields,
    Blake3.hexHash (content selection).text = Blake3.hexHash (content other).text →
      (content selection).text = (content other).text

/-- A root field of a request as it is answered. -/
def inputOf (payload : Json) (context : RequestContext) (request : AcceptedRequest)
    (selection : RootSelection) : ResolveInput :=
  ⟨selection, request.bindings, payload, context⟩

/-- **Root fields of one request share a key exactly if they share their name and response key.** -/
theorem slot_key_iff (hnames : engine.NamesRoots) {payload : Json} {request : AcceptedRequest}
    (haccepted : AcceptedRequest.ofJson payload = .ok request)
    (hhash : engine.Separates payload request) (context : RequestContext)
    {selection other : RootSelection} (hselection : selection ∈ request.fields)
    (hother : other ∈ request.fields) {root root' : BoundRootField}
    (hroot : engine.rootField? selection.name = some root)
    (hroot' : engine.rootField? other.name = some root') {slot slot' : CacheSlot}
    (hslot : engine.slot? root (inputOf payload context request selection) = some slot)
    (hslot' : engine.slot? root' (inputOf payload context request other) = some slot') :
    slot.key = slot'.key ↔ selection.name = other.name ∧ selection.key = other.key := by
  rw [(engine.slot?_eq_some hslot).2.1, (engine.slot?_eq_some hslot').2.1]
  unfold keyContent
  rw [hnames _ root hroot, hnames _ root' hroot']
  constructor
  · intro hkey
    have hcontent := hhash selection hselection other hother (String.append_right_inj _ |>.mp hkey)
    have hwell := AcceptedRequest.ofJson_wellNamed haccepted
    exact RootSelection.eq_of_append (hwell selection hselection).2.1 (hwell other hother).2.1
      (CacheKey.content_text_injective hcontent)
  · rintro ⟨hname, hkey⟩
    rw [hname]
    unfold inputOf
    rw [hkey]

/-! ### What a request leaves under a key -/

/-- A root field leaves texts under its own key only. -/
theorem answer_holds {input : ResolveInput} {backend : Backend} {key text : String}
    (h : (engine.answer input backend).2.Holds key text) :
    backend.Holds key text ∨ ∃ root slot, engine.rootField? input.selection.name = some root
      ∧ engine.slot? root input = some slot ∧ slot.key = key := by
  obtain ⟨entry, hentry, htext⟩ := h
  rcases (engine.answer_leaves input backend).1 key entry hentry with hheld | ⟨hleaves, -⟩
  · exact Or.inl ⟨entry, hheld, htext⟩
  · obtain ⟨root, slot, _, hcached, hkey, -⟩ := hleaves
    exact Or.inr ⟨root, slot, hcached.bound, hcached.slot, hkey.symm⟩

theorem addAnswer_holds {input : ResolveInput} {answers : Answers} {backend : Backend}
    {key text : String} (h : (engine.addAnswer input answers backend).2.Holds key text) :
    backend.Holds key text ∨ ∃ root slot, engine.rootField? input.selection.name = some root
      ∧ engine.slot? root input = some slot ∧ slot.key = key := by
  rw [(engine.addAnswer_eq input answers backend).2] at h
  split at h
  · exact Or.inl h
  · exact answer_holds h

/-- Root fields leave texts under their own keys only. -/
theorem addAnswers_holds {payload : Json} {context : RequestContext} {bindings : Variables}
    {fields : List RootSelection} {answers : Answers} {backend : Backend} {key text : String}
    (h : (engine.addAnswers payload context bindings fields answers backend).2.Holds key text) :
    backend.Holds key text ∨ ∃ selection ∈ fields, ∃ root slot,
      engine.rootField? selection.name = some root
        ∧ engine.slot? root ⟨selection, bindings, payload, context⟩ = some slot
        ∧ slot.key = key := by
  induction fields generalizing answers backend with
  | nil => exact Or.inl h
  | cons selection rest ih =>
      rw [addAnswers] at h
      rcases ih h with hheld | ⟨other, hother, hslot⟩
      · rcases addAnswer_holds hheld with hbefore | hslot
        · exact Or.inl hbefore
        · exact Or.inr ⟨selection, List.mem_cons_self, hslot⟩
      · exact Or.inr ⟨other, List.mem_cons_of_mem _ hother, hslot⟩

/-- What the cache gives a root field is the value of a text that was held under its key. -/
theorem resolve_hit {input : ResolveInput} {backend : Backend} {root : BoundRootField}
    {slot : CacheSlot} (hroot : engine.rootField? input.selection.name = some root)
    (hslot : engine.slot? root input = some slot) {value : Json}
    (h : (engine.resolve input backend).1.result = .ok (value, .hit)) :
    ∃ text, backend.Holds slot.key text ∧ Json.parse? text = some value := by
  rcases engine.resolve_spec input backend with
    ⟨status, hstatus, hresult⟩ | ⟨root', slot', entry, held, hcached, hshows, hparse, hresult⟩
  · rw [hresult] at h
    obtain ⟨found, -, heq⟩ := Outcome.map_ok.mp h
    exact absurd (congrArg Prod.snd heq) hstatus
  · obtain rfl := Option.some.inj (hroot.symm.trans hcached.bound)
    obtain rfl := Option.some.inj (hslot.symm.trans hcached.slot)
    rw [hresult, Except.ok.injEq, Prod.mk.injEq] at h
    exact ⟨entry.value, ⟨entry, hshows.held, rfl⟩, h.1 ▸ hparse⟩

/-- **Root fields are told apart by name and response key.**  If what is hashed for the root fields
of a request is told apart by its hashes, two of them share a key exactly if they share their name
and their response key.  A root field that shares them with no earlier one finds nothing under its
key that was not there before the request, and what the cache gives it is the value of such a
text. -/
theorem execute_root_keys {registry : Registry} {settings : Settings} {executor : Executor}
    {fields : List RootField} {hook : QueryHook} {hasCache : Bool}
    (hbuild : build registry settings executor fields hook hasCache = .ok engine) {payload : Json}
    {request : AcceptedRequest} (haccepted : AcceptedRequest.ofJson payload = .ok request)
    (hhash : engine.Separates payload request) (context : RequestContext) :
    (∀ selection ∈ request.fields, ∀ other ∈ request.fields, ∀ root root' slot slot',
        engine.rootField? selection.name = some root →
        engine.rootField? other.name = some root' →
        engine.slot? root (inputOf payload context request selection) = some slot →
        engine.slot? root' (inputOf payload context request other) = some slot' →
          (slot.key = slot'.key ↔ selection.name = other.name ∧ selection.key = other.key))
      ∧ ∀ before selection after, request.fields = before ++ selection :: after →
          (∀ other ∈ before, ¬ (other.name = selection.name ∧ other.key = selection.key)) →
          ∀ root slot backend, engine.rootField? selection.name = some root →
            engine.slot? root (inputOf payload context request selection) = some slot →
              let reached :=
                (engine.addAnswers payload context request.bindings before .none backend).2
              (∀ text, reached.Holds slot.key text → backend.Holds slot.key text)
                ∧ ∀ value, (engine.resolve (inputOf payload context request selection)
                      reached).1.result = .ok (value, .hit) →
                    ∃ text, backend.Holds slot.key text ∧ Json.parse? text = some value := by
  have hnames := build_namesRoots hbuild
  refine ⟨?_, ?_⟩
  · intro selection hselection other hother root root' slot slot' hroot hroot' hslot hslot'
    exact slot_key_iff hnames haccepted hhash context hselection hother hroot hroot' hslot hslot'
  · intro before selection after hfields hnew root slot backend hroot hslot reached
    have hmem : selection ∈ request.fields := by simp [hfields]
    have hkept : ∀ text, reached.Holds slot.key text → backend.Holds slot.key text := by
      intro text hheld
      rcases addAnswers_holds hheld with
        hbefore | ⟨other, hother, root', slot', hroot', hslot', hkey⟩
      · exact hbefore
      · have hmem' : other ∈ request.fields := by simp [hfields, hother]
        exact absurd ((slot_key_iff hnames haccepted hhash context hmem' hmem hroot' hroot hslot'
          hslot).mp hkey) (hnew other hother)
    refine ⟨hkept, fun value hhit => ?_⟩
    obtain ⟨text, hheld, hparse⟩ := resolve_hit hroot hslot hhit
    exact ⟨text, hkept text hheld, hparse⟩

end Engine

/-! ### Authors by key and by name -/

namespace Roster

def author : Registration :=
  ({ name := "Author", table := "authors" } : Registration).column "id" |>.column "name"

def registry : Registry := ((Registry.build [author]).toOption).getD default

def database : Database where
  registry
  tables := [("authors", [[("id", .str "a1"), ("name", .str "Ada")]])]

def rootFields : List RootField := [⟨"authors", "Author", .list, none⟩]

def roster : Engine where
  registry
  settings := {}
  executor := database.execute
  rootFields := ((RootField.bindAll registry rootFields).toOption).getD []
  hook := fun _ => []
  hasCache := true

def authors : BoundRootField := ⟨"authors", 0, .list, none⟩

theorem built : Engine.build registry {} database.execute rootFields (fun _ => []) true
    = .ok roster := rfl

/-- Authors with one column of them, under a response key. -/
def showing (asName : Option String) (column : String) : RootSelection :=
  WrittenField.root [] ⟨"authors", asName, [], [], [.leaf column]⟩

def payload : Json := .obj [("query", .str
  "\x7b authors \x7b id \x7d authors \x7b name \x7d \x7d")]

def request : AcceptedRequest := ⟨[], [showing none "id", showing none "name"]⟩

theorem accepted : AcceptedRequest.ofJson payload = .ok request :=
  (AcceptedRequest.ofJson_query _).trans rfl

/-- What authors are answered with one of their columns. -/
def listed (column : String) (value : Json) : Json := .arr [.obj [(column, value)]]

def aliasedPayload : Json := .obj [("query", .str
  "\x7bauthors\x7bid\x7da:authors\x7bid\x7d\x7d")]

def aliased : AcceptedRequest := ⟨[], [showing none "id", showing (some "a") "id"]⟩

theorem aliased_accepted : AcceptedRequest.ofJson aliasedPayload = .ok aliased :=
  (AcceptedRequest.ofJson_query _).trans rfl

theorem aliased_hashes :
    Blake3.hexHash (CacheKey.content "authors:authors" aliasedPayload "skipCache" []).text
      ≠ Blake3.hexHash (CacheKey.content "authors:a" aliasedPayload "skipCache" []).text := by
  decide +kernel

theorem aliased_separates : roster.Separates aliasedPayload aliased := by
  intro selection hselection other hother hhash
  simp only [aliased, List.mem_cons, List.not_mem_nil, or_false] at hselection hother
  rcases hselection with rfl | rfl <;> rcases hother with rfl | rfl
  · rfl
  · exact absurd hhash aliased_hashes
  · exact absurd hhash.symm aliased_hashes
  · rfl

theorem read_ids : Json.parse? (listed "id" (.str "a1")).text
    = some (listed "id" (.str "a1")) :=
  (Json.parse?_text _).trans rfl

end Roster

namespace Engine

/-- Under another response key the authors are fetched again. -/
theorem execute_root_keys_aliased :
    let plain := inputOf Roster.aliasedPayload .empty Roster.aliased (Roster.showing none "id")
    let aliased := inputOf Roster.aliasedPayload .empty Roster.aliased
      (Roster.showing (some "a") "id")
    let reached := (Roster.roster.addAnswers Roster.aliasedPayload .empty Roster.aliased.bindings
      [Roster.showing none "id"] .none .fresh).2
    AcceptedRequest.ofJson Roster.aliasedPayload = .ok Roster.aliased
      ∧ Roster.roster.Separates Roster.aliasedPayload Roster.aliased
      ∧ ∃ slot slot', Roster.roster.slot? Roster.authors plain = some slot
        ∧ Roster.roster.slot? Roster.authors aliased = some slot' ∧ slot.key ≠ slot'.key
        ∧ (∀ text, ¬ reached.Holds slot'.key text)
        ∧ ∀ value, (Roster.roster.resolve aliased reached).1.result ≠ .ok (value, .hit) := by
  have hcached : ∀ asName, ∃ slot, Roster.roster.slot? Roster.authors
      (inputOf Roster.aliasedPayload .empty Roster.aliased (Roster.showing asName "id"))
        = some slot := fun _ => ⟨_, rfl⟩
  obtain ⟨slot, hslot⟩ := hcached none
  obtain ⟨slot', hslot'⟩ := hcached (some "a")
  have hroot : Roster.roster.rootField? "authors" = some Roster.authors := rfl
  have hempty : ∀ text, ¬ Backend.fresh.Holds slot'.key text := by
    rintro text ⟨entry, hentry, -⟩
    exact absurd hentry (by simp [Backend.fresh, Store.empty])
  obtain ⟨hkeys, hreached⟩ := execute_root_keys Roster.built Roster.aliased_accepted
    Roster.aliased_separates .empty
  have hdistinct := hkeys _ List.mem_cons_self _ (List.mem_cons_of_mem _ List.mem_cons_self) _ _
    slot slot' hroot hroot hslot hslot'
  obtain ⟨hkept, hhit⟩ := hreached [Roster.showing none "id"] (Roster.showing (some "a") "id") []
    rfl (by decide) _ slot' .fresh hroot hslot'
  refine ⟨Roster.aliased_accepted, Roster.aliased_separates, slot, slot', hslot, hslot', ?_, ?_, ?_⟩
  · exact fun heq => absurd (hdistinct.mp heq).2 (by decide)
  · exact fun text hheld => hempty text (hkept text hheld)
  · intro value hresolved
    obtain ⟨text, hheld, -⟩ := hhit value hresolved
    exact hempty text hheld

/-- **Root fields that only differ in what they select share a key**: the names of authors are
answered from what was cached for their keys, with nothing. -/
theorem root_keys_collide :
    let ids := Engine.inputOf Roster.payload .empty Roster.request (Roster.showing none "id")
    let names := Engine.inputOf Roster.payload .empty Roster.request (Roster.showing none "name")
    AcceptedRequest.ofJson Roster.payload = .ok Roster.request
      ∧ Roster.request.fields = [ids.selection, names.selection]
      ∧ ids.selection.children () ≠ names.selection.children ()
      ∧ (∃ slot, Roster.roster.slot? Roster.authors ids = some slot
        ∧ Roster.roster.slot? Roster.authors names = some slot)
      ∧ (Roster.roster.answer names (Roster.roster.answer ids .fresh).2).1.result
        = .ok (Roster.listed "name" .null, .hit)
      ∧ (Roster.roster.answer names .fresh).1.result
        = .ok (Roster.listed "name" (.str "Ada"), .miss) := by
  intro ids names
  obtain ⟨slot, hslot, httl⟩ : ∃ slot, Roster.roster.slot? Roster.authors ids = some slot
      ∧ slot.ttl = none := ⟨_, rfl, rfl⟩
  have hsame : Roster.roster.slot? Roster.authors names = some slot := hslot
  refine ⟨Roster.accepted, rfl, ?_, ⟨slot, hslot, hsame⟩, ?_, ?_⟩
  · intro heq
    injection heq with hname
    exact absurd hname (by decide)
  · have hroot : Roster.roster.rootField? "authors" = some Roster.authors := rfl
    have hcustom : (Roster.roster.registry.entity Roster.authors.entity).customFetch?
      Roster.authors.cardinality = none := rfl
    have hfetch : (Roster.roster.fetch Roster.authors ids).2
      = .ok (Roster.listed "id" (.str "a1")) := rfl
    have hhit : (Roster.roster.resolve names (Roster.roster.answer ids .fresh).2).1.result
        = .ok (Roster.listed "id" (.str "a1"), .hit) :=
      resolve_again hroot hroot hcustom hslot hsame httl hfetch rfl Roster.read_ids
    rw [answer_eq, hhit]
    rfl
  · rfl

end Engine

end GraphFetch
