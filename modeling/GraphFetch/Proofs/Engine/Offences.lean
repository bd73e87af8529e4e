/-
Failures before effects.

A payload that is not accepted is refused as a whole, and then nothing was done.  Of an accepted
one each root field fails on its own; a field with an argument, a fragment or a relation that is
to blame, at whatever depth, is not fetched, so nothing is asked of the executor and the cache is
at most looked into.  There is no other way to fail like this: what shaping could report of a
value that was fetched, compiling would have reported before.
-/
import GraphFetch.Proofs.Cache.Fetch
import GraphFetch.Proofs.Engine.Requests
import GraphFetch.Proofs.Engine.RootFields
import GraphFetch.Proofs.Plan.Offences

namespace GraphFetch

/-! ### Backends that were looked into -/

/-- Whether a backend was at most looked into since: it was asked to put or drop nothing, and holds
no entry that it did not hold. -/
structure Backend.OnlyRead (before after : Backend) : Prop where
  calls : ∃ reads : List (String × CacheAnswer),
    after.calls = before.calls ++ reads.map fun read => .get read.1 read.2
  entries : after.store.entries ⊆ before.store.entries

namespace Backend

theorem OnlyRead.refl (backend : Backend) : backend.OnlyRead backend where
  calls := ⟨[], by simp⟩
  entries := List.Subset.refl _

theorem get_onlyRead (key : String) (backend : Backend) :
    backend.OnlyRead (get key backend).2 := by
  unfold get
  split
  · exact ⟨⟨[(key, .error)], rfl⟩, List.Subset.refl _⟩
  split
  · exact ⟨⟨[(key, .garbage)], rfl⟩, List.Subset.refl _⟩
  · exact ⟨⟨[(key, _)], rfl⟩, fun _ hentry => Store.mem_of_mem_purge hentry⟩

/-- A fetch through the cache whose source fails only reads. -/
theorem fetch_onlyRead {ε : Type} (slot : Option CacheSlot) (fault : ε) (accepts : Json → Bool)
    (backend : Backend) : backend.OnlyRead (fetch slot (.error fault) accepts backend).2 := by
  cases slot with
  | none => exact .refl backend
  | some slot =>
      have hread : backend.OnlyRead (lookUp .json slot.key backend).2 := by
        rw [lookUp_eq]
        exact get_onlyRead slot.key backend
      simp only [fetch, fetchAs, bind, StateT.bind]
      rcases hlook : lookUp .json slot.key backend with ⟨found, after⟩
      rw [hlook] at hread
      cases found <;> exact hread

/-- What a fetch through the cache fails with is what its source failed with. -/
theorem fetch_error {ε : Type} {slot : Option CacheSlot} {source : Except ε Json}
    {accepts : Json → Bool} {backend : Backend} {fault : ε}
    (h : (fetch slot source accepts backend).1.result = .error fault) : source = .error fault := by
  cases slot with
  | none =>
      rw [fetch_none] at h
      exact Outcome.map_error.mp h
  | some slot =>
      rcases fetch_result slot source accepts backend with ⟨value, text, hhit, -⟩ | hmiss
      · rw [hhit] at h
        cases h
      · rw [hmiss] at h
        exact Outcome.map_error.mp h

end Backend

theorem Activity.append_none (activity : Activity) : activity.append .none = activity := by
  simp [append, none]

namespace Engine

variable {engine : Engine} {root : BoundRootField} {input : ResolveInput}

/-! ### Root fields that are to blame -/

/-- Whether an error is about an argument of a root field or some place in its selection. -/
def Offends (engine : Engine) (root : BoundRootField) (input : ResolveInput) (error : PlanError) :
    Prop :=
  Plan.argumentModifier (engine.planContext input) (engine.registry.entity root.entity)
      input.selection.arguments = .error error
    ∨ (input.selection.children ()).Offends engine.registry input.bindings
        (engine.registry.entity root.entity) error

/-- What planning reports is about the root field. -/
theorem plan_error {error : PlanError} (h : engine.plan root input = .error error) :
    engine.Offends root input error := by
  unfold plan at h
  rcases Outcome.bind_error.mp h with h | ⟨load, -, h⟩
  · exact Or.inr (Plan.compile_error h)
  · rcases Outcome.bind_error.mp h with h | ⟨filters, -, h⟩
    · exact Or.inl h
    · rcases Outcome.bind_error.mp h with h | ⟨projection, -, h⟩
      · exact Or.inr (Plan.projectionModifier_error h _ _)
      · cases h

/-- A root field that is to blame is not planned. -/
theorem plan_offends {error : PlanError} (h : engine.Offends root input error) :
    ∃ reported, engine.plan root input = .error reported := by
  cases hplan : engine.plan root input with
  | error reported => exact ⟨reported, rfl⟩
  | ok planned =>
      obtain ⟨load, filters, projection, -, hplanned⟩ := plan_ok.mp hplan
      rcases h with h | h
      · exact nomatch h.symm.trans hplanned.arguments
      · exact absurd (Plan.compile_ok_iff.mp ⟨load, hplanned.compiled⟩) h.not_compilable

theorem fetch_plan {error : PlanError} (h : engine.plan root input = .error error) :
    engine.fetch root input = (.none, .error (.plan error)) := by
  unfold fetch
  rw [h]

theorem fetch_error {error : PlanError} (h : (engine.fetch root input).2 = .error (.plan error)) :
    engine.plan root input = .error error := by
  unfold fetch at h
  cases hplan : engine.plan root input with
  | error reported =>
      rw [hplan] at h
      cases h
      rfl
  | ok planned =>
      rw [hplan] at h
      dsimp only at h
      split at h <;> cases h

/-! ### One root field -/

/-- **A root field that is to blame has no effect**: the executor is asked nothing, and the cache is
at most looked into. -/
theorem answer_offends (hroot : engine.rootField? input.selection.name = some root)
    (hcustom : (engine.registry.entity root.entity).customFetch? root.cardinality = none)
    {error : PlanError} (h : engine.Offends root input error) (backend : Backend) :
    (engine.answer input backend).1.activity = .none
      ∧ backend.OnlyRead (engine.answer input backend).2 := by
  obtain ⟨reported, hplan⟩ := plan_offends h
  rw [answer_eq, resolve_fetch hroot hcustom, fetch_plan hplan]
  exact ⟨ite_self _, Backend.fetch_onlyRead _ _ _ _⟩

/-- **A root field that fails like this is to blame**, also where its value was fetched before. -/
theorem answer_error (hroot : engine.rootField? input.selection.name = some root)
    (hcustom : (engine.registry.entity root.entity).customFetch? root.cardinality = none)
    {error : PlanError} {backend : Backend}
    (h : (engine.answer input backend).1.result = .error (.plan error)) :
    engine.Offends root input error := by
  rw [answer_eq, resolve_fetch hroot hcustom] at h
  rcases Outcome.bind_error.mp h with h | ⟨resolved, -, h⟩
  · exact plan_error (fetch_error (Backend.fetch_error h))
  · rcases Outcome.bind_error.mp h with h | ⟨shaped, -, h⟩
    · unfold shape at h
      rw [hroot] at h
      obtain ⟨reported, hshaped, heq⟩ := Outcome.mapError_error.mp h
      cases heq
      exact Or.inr (Shaped.ofValue_error hshaped input.bindings)
    · cases h

/-- What is done for a root field is added to what was done before. -/
theorem addAnswer_activity (hname : input.selection.name ≠ "__typename") (answers : Answers)
    (backend : Backend) : (engine.addAnswer input answers backend).1.activity
      = answers.activity.append (engine.answer input backend).1.activity := by
  unfold addAnswer
  rw [if_neg hname]
  simp only [bind, StateT.bind]
  rcases engine.answer input backend with ⟨⟨activity, result⟩, after⟩
  cases result <;> rfl

/-! ### Requests -/

theorem addAnswers_append (payload : Json) (context : RequestContext) (bindings : Variables)
    (before rest : List RootSelection) (answers : Answers) (backend : Backend) :
    engine.addAnswers payload context bindings (before ++ rest) answers backend
      = (let reached := engine.addAnswers payload context bindings before answers backend
        engine.addAnswers payload context bindings rest reached.1 reached.2) := by
  induction before generalizing answers backend with
  | nil => rfl
  | cons selection more ih =>
      rw [List.cons_append, addAnswers, addAnswers]
      exact ih _ _

/-- A payload that is accepted is answered with an object, and one that is refused has no effect. -/
theorem execute_data (payload : Json) (context : RequestContext) (backend : Backend) :
    (∃ request members, AcceptedRequest.ofJson payload = .ok request
        ∧ (engine.execute payload context backend).1.response.data = .obj members)
      ∨ ∃ error, AcceptedRequest.ofJson payload = .error error
        ∧ engine.execute payload context backend = (⟨.refused error.message, .none⟩, backend) := by
  unfold execute
  cases AcceptedRequest.ofJson payload with
  | error error => exact Or.inr ⟨error, rfl, rfl⟩
  | ok request => exact Or.inl ⟨request, _, rfl, rfl⟩

/-- **Malformed requests fail before anything is done.**  The data of a response is null exactly if
the payload was refused, and then nothing was asked of the executor or of an entity's own fetch and
the cache was left alone.  In the run of an accepted request each root field that is answered from
a query fails on its arguments, fragments and relations only if one of them is to blame, at some
depth; and if one is, however the field is answered, the field itself asked nothing of the executor
and at most looked into the cache. -/
theorem execute_fails_early (payload : Json) (context : RequestContext) (backend : Backend) :
    let executed := engine.execute payload context backend
    (executed.1.response.data = .null ↔ ∃ error, AcceptedRequest.ofJson payload = .error error)
      ∧ (executed.1.response.data = .null → executed.1.activity = .none ∧ executed.2 = backend)
      ∧ ∀ request before selection after root, AcceptedRequest.ofJson payload = .ok request →
          request.fields = before ++ selection :: after → selection.name ≠ "__typename" →
          engine.rootField? selection.name = some root →
          (engine.registry.entity root.entity).customFetch? root.cardinality = none →
            let input : ResolveInput := ⟨selection, request.bindings, payload, context⟩
            let reached :=
              engine.addAnswers payload context request.bindings before .none backend
            let answered := engine.addAnswer input reached.1 reached.2
            let last :=
              engine.addAnswers payload context request.bindings after answered.1 answered.2
            executed = (⟨last.1.toResponse, last.1.activity⟩, last.2)
              ∧ (∀ error, (engine.answer input reached.2).1.result = .error (.plan error) →
                  engine.Offends root input error)
              ∧ ∀ error, engine.Offends root input error →
                  answered.1.activity = reached.1.activity ∧ reached.2.OnlyRead answered.2 := by
  intro executed
  refine ⟨?_, ?_, ?_⟩
  · rcases engine.execute_data payload context backend with
      ⟨request, members, haccepted, hdata⟩ | ⟨error, hrefused, heq⟩
    · rw [show executed.1.response.data = _ from hdata, haccepted]
      simp
    · rw [show executed = _ from heq, hrefused]
      exact ⟨fun _ => ⟨error, rfl⟩, fun _ => rfl⟩
  · intro hnull
    rcases engine.execute_data payload context backend with ⟨_, members, -, hdata⟩ | ⟨_, -, heq⟩
    · exact nomatch hnull.symm.trans hdata
    · rw [show executed = _ from heq]
      exact ⟨rfl, rfl⟩
  · intro request before selection after root haccepted hfields hname hroot hcustom input reached
      answered last
    have hactivity : answered.1.activity = _ := addAnswer_activity hname reached.1 reached.2
    have hbackend : answered.2 = _ := (engine.addAnswer_eq input reached.1 reached.2).2
    rw [if_neg hname] at hbackend
    refine ⟨?_, fun error => answer_error hroot hcustom, fun error hoffends => ?_⟩
    · have hrun : engine.addAnswers payload context request.bindings request.fields .none backend
          = last := by
        rw [hfields, addAnswers_append]
        rfl
      show engine.execute payload context backend = _
      unfold execute
      rw [haccepted]
      simp only [bind, StateT.bind]
      rw [hrun]
      rfl
    · obtain ⟨hnone, hread⟩ := answer_offends hroot hcustom hoffends reached.2
      rw [hactivity, hbackend, hnone]
      exact ⟨Activity.append_none _, hread⟩

end Engine

/-! ### A fragment that is not there -/

namespace Blog

/-- Asks below a relation of authors for a fragment that is not there, and for tags. -/
def lostPayload : Json := .obj [("query", .str
  "\x7bauthors\x7bposts\x7b...Lost\x7d\x7dtags\x7bid\x7d\x7d")]

def mutationPayload : Json := .obj [("query", .str "mutation\x7btags\x7bid\x7d\x7d")]

def tagIds : RootSelection := WrittenField.root [] ⟨"tags", none, [], [], [.leaf "id"]⟩

def lostPosts : RootSelection :=
  WrittenField.root [] ⟨"authors", none, [], [], [.field "posts" none [] [] [.spread "Lost" []]]⟩

def lostRequest : AcceptedRequest := ⟨[], [lostPosts, tagIds]⟩

theorem lost_accepted : AcceptedRequest.ofJson lostPayload = .ok lostRequest :=
  (AcceptedRequest.ofJson_query _).trans rfl

theorem mutation_refused : ∃ error, AcceptedRequest.ofJson mutationPayload = .error error :=
  ⟨.request (.unsupportedOperation .mutation), (AcceptedRequest.ofJson_query _).trans rfl⟩

def authorsField : BoundRootField := ⟨"authors", 0, .list, none⟩

theorem authors_bound : (answering {}).rootField? "authors" = some authorsField := rfl

theorem authors_queried :
    ((answering {}).registry.entity authorsField.entity).customFetch? authorsField.cardinality
      = none := rfl

theorem lost_offends : (answering {}).Offends authorsField
    ⟨lostPosts, lostRequest.bindings, lostPayload, .empty⟩
    (.unknownFragment "Lost") :=
  Or.inr (.nested rfl (.missing "Lost" .none))

end Blog

namespace Engine

/-- No statement is for authors, and one is for tags. -/
theorem execute_fails_early_lost :
    let engine := Blog.answering {}
    let executed := engine.execute Blog.lostPayload .empty .fresh
    let refused := engine.execute Blog.mutationPayload .empty .fresh
    let input : ResolveInput :=
      ⟨Blog.lostPosts, Blog.lostRequest.bindings, Blog.lostPayload, .empty⟩
    let run := engine.addAnswers Blog.lostPayload .empty Blog.lostRequest.bindings
    let reached := run [] .none .fresh
    let answered := engine.addAnswer input reached.1 reached.2
    let last := run [Blog.tagIds] answered.1 answered.2
    refused.1.response.data = .null ∧ refused.1.activity = .none ∧ refused.2 = .fresh
      ∧ AcceptedRequest.ofJson Blog.lostPayload = .ok Blog.lostRequest
      ∧ engine.Offends Blog.authorsField input (.unknownFragment "Lost")
      ∧ executed = (⟨last.1.toResponse, last.1.activity⟩, last.2)
      ∧ answered.1.activity = reached.1.activity ∧ reached.2.OnlyRead answered.2
      ∧ executed.1.activity.statements.length = 1
      ∧ executed.1.response.errors.map ResponseError.path = [["authors"]] := by
  have hrefused := @execute_fails_early (Blog.answering {}) Blog.mutationPayload .empty .fresh
  have hlost := @execute_fails_early (Blog.answering {}) Blog.lostPayload .empty .fresh
  have hnull := hrefused.1.mpr Blog.mutation_refused
  obtain ⟨hactivity, hbackend⟩ := hrefused.2.1 hnull
  obtain ⟨hrun, -, hoffends⟩ := hlost.2.2 _ [] Blog.lostPosts [Blog.tagIds] Blog.authorsField
    Blog.lost_accepted rfl (by decide) Blog.authors_bound Blog.authors_queried
  obtain ⟨hnone, hread⟩ := hoffends _ Blog.lost_offends
  exact ⟨hnull, hactivity, hbackend, Blog.lost_accepted, Blog.lost_offends, hrun, hnone, hread,
    by decide +kernel, by decide +kernel⟩

end Engine

end GraphFetch
