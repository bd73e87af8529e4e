/-
What cached fetches do over a whole run.

A run mixes fetches through the cache with texts that are put, deletions and the passing
of time, and the backend may go wrong at any call.  What came of the calls is a history,
and the history alone says what the backend holds: under a key counts the text that was
written last, unless it was deleted since or has ended.  A call that failed is in the
history too, and says nothing.  So the store follows a map that is folded from the
history, call by call, and what a fetch does is told from the one look it takes at that
map and from the one text that it may put.
-/
import GraphFetch.Proofs.Cache.Expiry
import GraphFetch.Proofs.Cache.Fetch
import GraphFetch.Proofs.Outcome

namespace GraphFetch

/-! ### Steps of a run -/

/-- What happens to a backend: a fetch, a text that is put or deleted, or time that passes. -/
inductive CacheStep : Type 1
  | fetch {ε α : Type} (codec : Codec α) (slot : Option CacheSlot) (source : Except ε α)
      (accepts : α → Bool)
  | put (key text : String) (ttl : Option Nat)
  | delete (key : String)
  | advance (duration : Nat)

namespace Backend

/-- The backend after a step. -/
def step (backend : Backend) : CacheStep → Backend
  | .fetch codec slot source accepts => (fetchAs codec slot source accepts backend).2
  | .put key text ttl => (put key text ttl backend).2
  | .delete key => (delete key backend).2
  | .advance duration => backend.advance duration

/-- The backend after steps in order. -/
def run (backend : Backend) : List CacheStep → Backend
  | [] => backend
  | first :: rest => (backend.step first).run rest

end Backend

/-! ### Histories -/

/-- The calls of a backend, each with its time. -/
abbrev CacheHistory := List (Nat × CacheCall)

/-- The calls that steps make. -/
def Backend.history (backend : Backend) : List CacheStep → CacheHistory
  | [] => []
  | first :: rest =>
    (((backend.step first).calls.drop backend.calls.length).map fun call => (backend.now, call))
      ++ (backend.step first).history rest

/-- Whether a call wrote or deleted what is under a key. -/
def CacheCall.Changes (key : String) : CacheCall → Prop
  | .put other _ _ => other = key
  | .delete other => other = key
  | _ => False

namespace CacheHistory

/-- A text was the last one to be written under a key, and was not deleted since. -/
def LastWritten (history : CacheHistory) (key : String) (time : Nat) (text : String)
    (ttl : Option Nat) : Prop :=
  ∃ earlier later, history = earlier ++ (time, .put key text ttl) :: later
    ∧ ∀ event ∈ later, ¬ event.2.Changes key

/-- A text was the last one to be written under a key, was not deleted since and has not ended. -/
def Current (history : CacheHistory) (now : Nat) (key text : String) : Prop :=
  ∃ time ttl, history.LastWritten key time text ttl
    ∧ ∀ ending ∈ ExpiringMap.ending time ttl, now < ending

end CacheHistory

/-- What a call at a time does to a map whose entries end. -/
def CacheCall.record (now : Nat) (map : ExpiringMap) : CacheCall → ExpiringMap
  | .put key text ttl => map.put now key text ttl
  | .delete key => map.delete key
  | _ => map

/-- What was written last under each key and not deleted since. -/
def CacheHistory.recorded (history : CacheHistory) : ExpiringMap :=
  history.foldl (fun map event => event.2.record event.1 map) ∅

namespace CacheHistory

theorem recorded_append (history more : CacheHistory) :
    (history ++ more).recorded
      = more.foldl (fun map event => event.2.record event.1 map) history.recorded :=
  List.foldl_append

/-- A call leaves alone what is under the keys that it does not change. -/
theorem lookup_record {call : CacheCall} {key : String} (h : ¬ call.Changes key) (now : Nat)
    (map : ExpiringMap) : (call.record now map).lookup key = map.lookup key := by
  cases call with
  | put other text ttl => exact Finmap.lookup_insert_of_ne _ (Ne.symm h)
  | delete other => exact Finmap.lookup_erase_ne (Ne.symm h)
  | _ => rfl

variable {history : CacheHistory} {key text : String} {time now : Nat} {ttl : Option Nat}

/-- A call that changes what is under a key leaves the text there that it put, if it put one. -/
theorem lookup_record_changed {event : Nat × CacheCall} (h : event.2.Changes key)
    (map : ExpiringMap) {entry : StoreEntry} :
    (event.2.record event.1 map).lookup key = some entry
      ↔ ∃ time ttl, event = (time, .put key entry.value ttl)
        ∧ entry.expiresAt = ExpiringMap.ending time ttl := by
  obtain ⟨time, call⟩ := event
  obtain ⟨value, expiresAt⟩ := entry
  cases call with
  | put other text ttl =>
      obtain rfl : other = key := h
      show (map.insert other ⟨text, ExpiringMap.ending time ttl⟩).lookup other = _ ↔ _
      rw [Finmap.lookup_insert, Option.some.injEq]
      constructor
      · rintro ⟨⟩
        exact ⟨time, ttl, rfl, rfl⟩
      · rintro ⟨_, _, ⟨⟩, hends⟩
        exact congrArg (StoreEntry.mk _) hends.symm
  | delete other =>
      obtain rfl : other = key := h
      show (map.erase other).lookup other = _ ↔ _
      rw [Finmap.lookup_erase]
      refine ⟨nofun, ?_⟩
      rintro ⟨_, _, ⟨⟩, -⟩
  | get _ _ => exact h.elim
  | putFailed _ => exact h.elim
  | deleteFailed _ => exact h.elim

/-- The text that was written last was written by the last event of a history, or before an event
that did not change what is under its key. -/
theorem lastWritten_snoc {event : Nat × CacheCall} :
    LastWritten (history ++ [event]) key time text ttl
      ↔ event = (time, .put key text ttl)
        ∨ (history.LastWritten key time text ttl ∧ ¬ event.2.Changes key) := by
  constructor
  · rintro ⟨earlier, later, heq, hlater⟩
    rcases List.eq_nil_or_concat later with rfl | ⟨before, last, rfl⟩
    · exact Or.inl (List.singleton_inj.mp (List.append_inj' heq rfl).2)
    · rw [List.concat_eq_append, ← List.cons_append, ← List.append_assoc] at heq
      obtain ⟨rfl, hlast⟩ := List.append_inj' heq rfl
      cases hlast
      exact Or.inr ⟨⟨earlier, before, rfl, fun other hother => hlater other (by simp [hother])⟩,
        hlater event (by simp)⟩
  · rintro (rfl | ⟨⟨earlier, later, rfl, hlater⟩, hevent⟩)
    · exact ⟨history, [], rfl, by simp⟩
    · refine ⟨earlier, later ++ [event], by simp, ?_⟩
      rw [List.forall_mem_append]
      exact ⟨hlater, List.forall_mem_singleton.mpr hevent⟩

/-- **The map folded from a history has under a key what was written there last.** -/
theorem lookup_recorded {entry : StoreEntry} :
    history.recorded.lookup key = some entry
      ↔ ∃ time ttl, history.LastWritten key time entry.value ttl
        ∧ entry.expiresAt = ExpiringMap.ending time ttl := by
  induction history using List.reverseRecOn with
  | nil =>
      refine ⟨nofun, ?_⟩
      rintro ⟨time, ttl, ⟨earlier, later, h, -⟩, -⟩
      exact absurd h (by simp)
  | append_singleton history event ih =>
      rw [recorded_append, List.foldl_cons, List.foldl_nil]
      simp only [lastWritten_snoc]
      by_cases hchanges : event.2.Changes key
      · simp only [hchanges, not_true_eq_false, and_false, or_false]
        exact lookup_record_changed hchanges _
      · have hput : ∀ {time ttl}, event ≠ (time, .put key entry.value ttl) := by
          rintro time ttl rfl
          exact hchanges rfl
        simp only [hput, hchanges, not_false_eq_true, and_true, false_or]
        rw [lookup_record hchanges]
        exact ih

/-- What the map shows at a time is what is current. -/
theorem get_recorded : history.recorded.get now key = some text ↔ history.Current now key text := by
  unfold ExpiringMap.get ExpiringMap.shown Current
  rw [Option.map_eq_some_iff]
  constructor
  · rintro ⟨entry, hshown, rfl⟩
    obtain ⟨hlookup, hlive⟩ := Option.filter_eq_some_iff.mp hshown
    obtain ⟨time, ttl, hwritten, hends⟩ := lookup_recorded.mp hlookup
    exact ⟨time, ttl, hwritten, hends ▸ of_decide_eq_true hlive⟩
  · rintro ⟨time, ttl, hwritten, hends⟩
    refine ⟨⟨text, ExpiringMap.ending time ttl⟩, ?_, rfl⟩
    exact Option.filter_eq_some_iff.mpr
      ⟨lookup_recorded.mpr ⟨time, ttl, hwritten, rfl⟩, decide_eq_true hends⟩

end CacheHistory

/-! ### What calls make of a backend -/

namespace Backend

open StoreEntry (current)

/-- The entries of a backend that have not ended. -/
def contents (backend : Backend) (key : String) : Option StoreEntry :=
  current backend.now (Named.find? key backend.store.entries)

/-- A backend becomes another one by calls at its time, and the store does with them what a map
does. -/
structure Makes (before : Backend) (calls : List CacheCall) (after : Backend) : Prop where
  now : after.now = before.now
  faults : after.faults = before.faults
  appended : after.calls = before.calls ++ calls
  tracks : ∀ map, Store.Tracks before.now before.store map →
    Store.Tracks before.now after.store (calls.foldl (CacheCall.record before.now) map)

variable {before between after : Backend} {calls later : List CacheCall}

theorem Makes.none : Makes before [] before :=
  ⟨rfl, rfl, (List.append_nil _).symm, fun _ h => h⟩

theorem Makes.trans (h : Makes before calls between) (hlater : Makes between later after) :
    Makes before (calls ++ later) after where
  now := hlater.now.trans h.now
  faults := hlater.faults.trans h.faults
  appended := by rw [hlater.appended, h.appended, List.append_assoc]
  tracks map htracks := by
    rw [List.foldl_append, ← h.now]
    exact hlater.tracks _ (h.now.symm ▸ h.tracks map htracks)

theorem get_makes (key : String) (backend : Backend) :
    ∃ answer, Makes backend [.get key answer] (get key backend).2 := by
  unfold get
  split
  · exact ⟨.error, rfl, rfl, rfl, fun _ h => h⟩
  split
  · exact ⟨.garbage, rfl, rfl, rfl, fun _ h => h⟩
  · exact ⟨_, rfl, rfl, rfl, fun _ h => h.purge⟩

theorem put_makes (key text : String) (ttl : Option Nat) (backend : Backend) :
    Makes backend [if backend.nextFaults.put then .putFailed key else .put key text ttl]
      (put key text ttl backend).2 := by
  unfold put
  split
  · exact ⟨rfl, rfl, rfl, fun _ h => h⟩
  · exact ⟨rfl, rfl, rfl, fun _ h => h.put key text ttl⟩

theorem delete_makes (key : String) (backend : Backend) :
    ∃ call, Makes backend [call] (delete key backend).2 := by
  unfold delete
  split
  · exact ⟨.deleteFailed key, rfl, rfl, rfl, fun _ h => h⟩
  · exact ⟨.delete key, rfl, rfl, rfl, fun _ h => h.delete key⟩

/-- What reading gives, of a store that shows what a map does. -/
theorem get_tracked {backend : Backend} {map : ExpiringMap}
    (h : Store.Tracks backend.now backend.store map) {key text : String} :
    (get key backend).1 = .ok (some text)
      ↔ backend.nextFaults.get = false
        ∧ if backend.nextFaults.garbage then text = garbage
          else map.get backend.now key = some text := by
  unfold get
  cases backend.nextFaults.get with
  | true => simp
  | false =>
      cases backend.nextFaults.garbage with
      | true => simp [eq_comm]
      | false =>
          show Except.ok ((Named.find? key (backend.store.purge backend.now).entries).map _)
            = Except.ok (some text) ↔ _
          rw [h.find?_purge]
          simp [ExpiringMap.get]

/-! ### Fetches -/

section

variable {ε α : Type} {codec : Codec α} {slot : CacheSlot} {source : Except ε α}
  {accepts : α → Bool} {backend : Backend}

/-- The text that a fetch puts: that of the value fetched, if it is accepted and can be written. -/
def stored? (codec : Codec α) (accepts : α → Bool) (source : Except ε α) : Option String :=
  match source with
  | .ok value => if accepts value then (codec.encode? value).map Json.text else none
  | .error _ => none

/-- **A fetch looks into the cache once.**  If that gives a value, it is the answer; if not, the
source is, and what is accepted is put. -/
theorem fetchAs_some :
    fetchAs codec (some slot) source accepts backend =
      match (lookUp codec slot.key backend).1 with
      | some value => (⟨false, .ok (value, .hit)⟩, (get slot.key backend).2)
      | none =>
        (⟨true, source.map fun value => (value, .miss)⟩,
          match stored? codec accepts source with
          | some text => (put slot.key text slot.ttl (get slot.key backend).2).2
          | none => (get slot.key backend).2) := by
  have hafter : (lookUp codec slot.key backend).2 = (get slot.key backend).2 := by
    rw [lookUp_eq]
  rw [← hafter]
  simp only [fetchAs, bind, StateT.bind]
  rcases lookUp codec slot.key backend with ⟨found, after⟩
  cases found with
  | some value => rfl
  | none =>
      cases source with
      | error error => rfl
      | ok value =>
          simp only [stored?]
          cases accepts value with
          | false => rfl
          | true =>
              simp only [keep, putEncoded, if_true]
              cases codec.encode? value <;> rfl

theorem fetchAs_makes (codec : Codec α) (slot : Option CacheSlot) (source : Except ε α)
    (accepts : α → Bool) (backend : Backend) :
    ∃ calls, Makes backend calls (fetchAs codec slot source accepts backend).2 := by
  cases slot with
  | none => exact ⟨[], .none⟩
  | some slot =>
      obtain ⟨answer, hget⟩ := get_makes slot.key backend
      rw [fetchAs_some]
      split
      · exact ⟨_, hget⟩
      · dsimp only
        split
        · exact ⟨_, hget.trans (put_makes _ _ _ _)⟩
        · exact ⟨_, hget⟩

end

/-! ### Runs -/

/-- The store of a backend shows what its history says. -/
def Follows (backend : Backend) (history : CacheHistory) : Prop :=
  Store.Tracks backend.now backend.store history.recorded

theorem Follows.makes {history : CacheHistory} (h : Follows before history)
    (hmakes : Makes before calls after) :
    Follows after (history ++ calls.map fun call => (before.now, call)) := by
  unfold Follows
  rw [CacheHistory.recorded_append, List.foldl_map, hmakes.now]
  exact hmakes.tracks _ h

/-- A step keeps a backend with its history. -/
theorem Follows.step {history : CacheHistory} (h : Follows before history) (step : CacheStep) :
    Follows (before.step step)
      (history ++ ((before.step step).calls.drop before.calls.length).map
        fun call => (before.now, call)) := by
  have hcalls : ∀ {calls after}, Makes before calls after →
      Follows after (history ++ (after.calls.drop before.calls.length).map
        fun call => (before.now, call)) := by
    intro calls after hmakes
    rw [hmakes.appended, List.drop_left]
    exact h.makes hmakes
  cases step with
  | fetch codec slot source accepts =>
      obtain ⟨calls, hmakes⟩ := fetchAs_makes codec slot source accepts before
      exact hcalls hmakes
  | put key text ttl => exact hcalls (put_makes key text ttl before)
  | delete key =>
      obtain ⟨call, hmakes⟩ := delete_makes key before
      exact hcalls hmakes
  | advance duration =>
      show Store.Tracks (before.now + duration) before.store _
      rw [show (before.step (.advance duration)).calls = before.calls from rfl, List.drop_length,
        List.map_nil, List.append_nil]
      exact Store.Tracks.later h (Nat.le_add_right _ _)

theorem Follows.run {steps : List CacheStep} {history : CacheHistory}
    (h : Follows before history) :
    Follows (before.run steps) (history ++ before.history steps) := by
  induction steps generalizing before history with
  | nil =>
      rw [Backend.history, List.append_nil]
      exact h
  | cons first rest ih =>
      rw [Backend.history, ← List.append_assoc]
      exact ih (h.step first)

/-- A backend shows what was written last under each key, whatever went wrong. -/
theorem failing_follows (faults : Nat → Faults) (steps : List CacheStep) :
    Follows ((failing faults).run steps) ((failing faults).history steps) := by
  have hempty : Follows (failing faults) [] := Store.Tracks.empty
  exact hempty.run

/-- What a backend holds is what the map of its history shows. -/
theorem Follows.contents {history : CacheHistory} (h : Follows before history)
    (hmakes : Makes before calls after) (key : String) :
    after.contents key
      = (calls.foldl (CacheCall.record before.now) history.recorded).shown before.now key := by
  unfold Backend.contents
  rw [hmakes.now]
  exact (hmakes.tracks _ h).same key

/-! ### What a fetch does -/

section

variable {ε α : Type}

/-- Whether reading a key yields a value: nothing goes wrong with the call, and the text that is
current under the key is read as that value. -/
def Yields (codec : Codec α) (backend : Backend) (history : CacheHistory) (key : String)
    (value : α) : Prop :=
  backend.nextFaults.get = false ∧ backend.nextFaults.garbage = false
    ∧ ∃ text, history.Current backend.now key text ∧ codec.read? text = some value

/-- Whether a fetch that looked into the cache writes a text: it was run and succeeded, its value is
accepted and can be written as this text, and nothing goes wrong with the call behind the read. -/
def Writes (codec : Codec α) (source : Except ε α) (accepts : α → Bool) (backend : Backend)
    (outcome : CachedFetch ε α) (text : String) : Prop :=
  outcome.ran = true ∧ (backend.faults (backend.calls.length + 1)).put = false
    ∧ ∃ value json, source = .ok value ∧ accepts value = true ∧ codec.encode? value = some json
      ∧ text = json.text

/-- What a fetch does with a backend that has a history. -/
structure FetchLaw (codec : Codec α) (slot : Option CacheSlot) (source : Except ε α)
    (accepts : α → Bool) (before : Backend) (history : CacheHistory) (outcome : CachedFetch ε α)
    (after : Backend) : Prop where
  /-- It fails exactly if its source was run and failed, and with that error. -/
  failed : ∀ error, outcome.result = .error error ↔ outcome.ran = true ∧ source = .error error
  /-- The source is run unless there is a cache and reading it yields a value. -/
  ran : outcome.ran = true ↔ ∀ place ∈ slot, ¬ ∃ value, Yields codec before history place.key value
  /-- What is no hit is the value of the source, and a bypass says that there is no cache. -/
  fetched : ∀ value status, outcome.result = .ok (value, status) → status ≠ .hit →
    outcome.ran = true ∧ source = .ok value ∧ (status = .bypass ↔ slot = none)
  /-- A hit is what the text written last is read as. -/
  hit : ∀ value, outcome.result = .ok (value, .hit) →
    outcome.ran = false ∧ ∃ place ∈ slot, Yields codec before history place.key value
  now : after.now = before.now
  /-- A text that is written replaces what is under its key, and nothing else. -/
  written : ∀ place ∈ slot, ∀ text, Writes codec source accepts before outcome text →
    ∀ key, after.contents key
      = if key = place.key then
          current before.now (some ⟨text, ExpiringMap.ending before.now place.ttl⟩)
        else before.contents key
  /-- If none is written, nothing changes. -/
  kept : (∀ place ∈ slot, ∀ text, ¬ Writes codec source accepts before outcome text) →
    ∀ key, after.contents key = before.contents key

variable {codec : Codec α} {slot : CacheSlot} {source : Except ε α} {accepts : α → Bool}
  {backend : Backend} {history : CacheHistory}

/-- What the cache has to give is what reading yields. -/
theorem lookUp_yields (h : Follows backend history) {key : String} {value : α} :
    (lookUp codec key backend).1 = some value ↔ Yields codec backend history key value := by
  have hread : (lookUp codec key backend).1 = some value
      ↔ ∃ text, (get key backend).1 = .ok (some text) ∧ codec.read? text = some value := by
    rw [lookUp_eq]
    dsimp only
    split
    · rename_i text htext
      rw [htext]
      simp
    · rename_i hnone
      refine ⟨nofun, ?_⟩
      rintro ⟨text, htext, -⟩
      exact absurd htext (hnone text)
  have hgarbage : codec.read? garbage = none := by
    unfold Codec.read?
    rw [parse?_garbage]
    rfl
  rw [hread]
  unfold Yields
  simp only [get_tracked h, ← CacheHistory.get_recorded]
  cases backend.nextFaults.garbage with
  | true =>
      simp only [if_true, Bool.true_eq_false, false_and, and_false, iff_false]
      rintro ⟨text, ⟨-, rfl⟩, hvalue⟩
      rw [hgarbage] at hvalue
      cases hvalue
  | false =>
      simp only [Bool.false_eq_true, if_false, true_and]
      constructor
      · rintro ⟨text, ⟨hget, htext⟩, hvalue⟩
        exact ⟨hget, text, htext, hvalue⟩
      · rintro ⟨hget, text, htext, hvalue⟩
        exact ⟨text, ⟨hget, htext⟩, hvalue⟩

theorem stored?_eq_some {text : String} :
    stored? codec accepts source = some text
      ↔ ∃ value json, source = .ok value ∧ accepts value = true ∧ codec.encode? value = some json
        ∧ text = json.text := by
  unfold stored?
  cases source with
  | error error => simp
  | ok value => simp [eq_comm (a := text)]

/-- Without a cache, the source answers and the backend is left alone. -/
theorem fetchLaw_none :
    FetchLaw codec none source accepts backend history
      (fetchAs codec none source accepts backend).1
      (fetchAs codec none source accepts backend).2 where
  failed error := by
    show (source.map _) = _ ↔ true = true ∧ _
    cases source <;> simp [Except.map]
  ran := by
    show true = true ↔ _
    simp
  fetched value status hresult hstatus := by
    have hmap : (source.map fun value => (value, CacheStatus.bypass)) = .ok (value, status) :=
      hresult
    obtain ⟨_, hsource, heq⟩ := Outcome.map_ok.mp hmap
    obtain ⟨rfl, rfl⟩ := Prod.mk.inj heq
    exact ⟨rfl, hsource, by simp⟩
  hit value hresult := by
    have hmap : (source.map fun value => (value, CacheStatus.bypass)) = .ok (value, .hit) :=
      hresult
    obtain ⟨_, -, heq⟩ := Outcome.map_ok.mp hmap
    cases (Prod.mk.inj heq).2
  now := rfl
  written := nofun
  kept _ _ := rfl

/-- Reading leaves the contents as they are. -/
theorem Follows.contents_get (h : Follows backend history) (key other : String) :
    (get key backend).2.contents other = backend.contents other := by
  obtain ⟨answer, hget⟩ := get_makes key backend
  rw [h.contents hget, h.contents .none]
  rfl

/-- Putting replaces what is under its key, and nothing else, unless it fails. -/
theorem Follows.contents_put (h : Follows backend history) (key text : String) (ttl : Option Nat)
    (other : String) :
    (put key text ttl backend).2.contents other
      = if backend.nextFaults.put = false ∧ other = key then
          current backend.now (some ⟨text, ExpiringMap.ending backend.now ttl⟩)
        else backend.contents other := by
  rw [h.contents (put_makes key text ttl backend), h.contents .none]
  cases backend.nextFaults.put with
  | true => rfl
  | false =>
      show current _ ((Finmap.insert key _ history.recorded).lookup other) = _
      by_cases hother : other = key
      · rw [if_pos ⟨rfl, hother⟩, hother, Finmap.lookup_insert]
      · rw [if_neg fun hboth => hother hboth.2, Finmap.lookup_insert_of_ne _ hother]
        rfl

/-- A fetch that is run because nothing was found writes what it has to put, unless that fails. -/
theorem writes_stored (key : String) {text : String} :
    Writes codec source accepts backend ⟨true, source.map fun value => (value, .miss)⟩ text
      ↔ (get key backend).2.nextFaults.put = false
        ∧ stored? codec accepts source = some text := by
  have hput : (get key backend).2.nextFaults
      = backend.faults (backend.calls.length + 1) := by
    obtain ⟨answer, hget⟩ := get_makes key backend
    unfold nextFaults
    rw [hget.faults, hget.appended, List.length_append]
    rfl
  rw [hput, stored?_eq_some, Writes]
  simp

/-- A fetch that finds a value answers with it, and leaves the contents as they are. -/
theorem fetchLaw_found (h : Follows backend history) {value : α}
    (hfound : (lookUp codec slot.key backend).1 = some value) :
    FetchLaw codec (some slot) source accepts backend history ⟨false, .ok (value, .hit)⟩
      (get slot.key backend).2 := by
  obtain ⟨answer, hget⟩ := get_makes slot.key backend
  have hyields : Yields codec backend history slot.key value := (lookUp_yields h).mp hfound
  exact {
    failed := by simp
    ran := by simpa using ⟨value, hyields⟩
    fetched := by simp +contextual
    hit := by
      intro other hother
      obtain ⟨rfl, -⟩ := Prod.mk.inj (Except.ok.inj hother)
      exact ⟨rfl, slot, rfl, hyields⟩
    now := hget.now
    written := by simp [Writes]
    kept := fun _ => h.contents_get slot.key }

/-- A fetch that finds nothing answers as its source does, and puts what is to be stored. -/
theorem fetchLaw_missed (h : Follows backend history)
    (hfound : (lookUp codec slot.key backend).1 = none) :
    FetchLaw codec (some slot) source accepts backend history
      ⟨true, source.map fun value => (value, .miss)⟩
      (match stored? codec accepts source with
        | some text => (put slot.key text slot.ttl (get slot.key backend).2).2
        | none => (get slot.key backend).2) := by
  obtain ⟨answer, hget⟩ := get_makes slot.key backend
  have hafter := h.makes hget
  have hnone : ∀ value, ¬ Yields codec backend history slot.key value := by
    intro value hyields
    rw [(lookUp_yields h).mpr hyields] at hfound
    cases hfound
  refine {
    failed := ?_
    ran := by simpa using hnone
    fetched := ?_
    hit := ?_
    now := ?_
    written := ?_
    kept := ?_ }
  · intro error
    cases source <;> simp [Except.map]
  · intro value status hresult hstatus
    obtain ⟨_, hsource, heq⟩ := Outcome.map_ok.mp hresult
    obtain ⟨rfl, rfl⟩ := Prod.mk.inj heq
    exact ⟨rfl, hsource, by simp⟩
  · intro value hresult
    obtain ⟨_, -, heq⟩ := Outcome.map_ok.mp hresult
    cases (Prod.mk.inj heq).2
  · split
    · exact (put_makes _ _ _ _).now.trans hget.now
    · exact hget.now
  · rintro place ⟨⟩ text htext key
    obtain ⟨hworks, hstored⟩ := (writes_stored slot.key).mp htext
    rw [hstored]
    dsimp only
    rw [hafter.contents_put, h.contents_get, hget.now]
    simp only [hworks, true_and]
  · intro hnot key
    split
    · rename_i text hstored
      rw [hafter.contents_put, h.contents_get, if_neg]
      rintro ⟨hworks, -⟩
      exact hnot slot rfl text ((writes_stored slot.key).mpr ⟨hworks, hstored⟩)
    · exact h.contents_get slot.key key

/-- With a cache, a fetch does what it should whether or not reading yields a value. -/
theorem fetchLaw_some (h : Follows backend history) :
    FetchLaw codec (some slot) source accepts backend history
      (fetchAs codec (some slot) source accepts backend).1
      (fetchAs codec (some slot) source accepts backend).2 := by
  rw [fetchAs_some]
  cases hfound : (lookUp codec slot.key backend).1 with
  | some value => exact fetchLaw_found h hfound
  | none => exact fetchLaw_missed h hfound

end

/-- **Whatever was fetched, put and deleted before, however the time passed and whatever went wrong,
a fetch through the cache does what it should.** -/
theorem cached_fetches {ε α : Type} (faults : Nat → Faults) (steps : List CacheStep)
    (codec : Codec α) (slot : Option CacheSlot) (source : Except ε α) (accepts : α → Bool) :
    FetchLaw codec slot source accepts ((failing faults).run steps)
      ((failing faults).history steps)
      (fetchAs codec slot source accepts ((failing faults).run steps)).1
      (fetchAs codec slot source accepts ((failing faults).run steps)).2 := by
  cases slot with
  | none => exact fetchLaw_none
  | some slot => exact fetchLaw_some (failing_follows faults steps)

/-! ### A menu that is fetched again -/

namespace Menu

/-- The menu is kept for five nanoseconds. -/
def slot : CacheSlot := ⟨"menu", some 5⟩

/-- The third call goes wrong if it puts something. -/
def faults (call : Nat) : Faults := { put := call == 2 }

/-- The menu is fetched, and later an attempt is made to put another one. -/
def steps : List CacheStep := [
  .fetch .json (some slot) (.ok (.str "soup") : Except String Json) (fun _ => true), .advance 3,
  .put "menu" "stew" none]

/-- What a fetch that would fail does then. -/
def again : CachedFetch String Json × Backend :=
  fetchAs .json (some slot) (.error "closed") (fun _ => true) ((failing faults).run steps)

end Menu

/-- The menu that was fetched is still there, and the source is not run. -/
theorem cached_fetches_menu :
    ∃ value, Menu.again.1.result = .ok (value, .hit) ∧ Menu.again.1.ran = false
      ∧ Yields .json ((failing Menu.faults).run Menu.steps)
        ((failing Menu.faults).history Menu.steps) "menu" value := by
  have hhit : (Menu.again.1.result.toOption.any fun found => found.2 == .hit) = true := by
    decide +kernel
  obtain ⟨⟨value, status⟩, hresult, hstatus⟩ := Outcome.ok_of_any hhit
  obtain rfl : status = .hit := beq_iff_eq.mp hstatus
  have hlaw : FetchLaw .json (some Menu.slot) _ _ _ _ Menu.again.1 Menu.again.2 :=
    cached_fetches Menu.faults Menu.steps .json (some Menu.slot) (.error "closed") fun _ => true
  obtain ⟨hran, place, hplace, hyields⟩ := hlaw.hit value hresult
  obtain rfl := Option.mem_some_iff.mp hplace
  exact ⟨value, hresult, hran, hyields⟩

end Backend

end GraphFetch
