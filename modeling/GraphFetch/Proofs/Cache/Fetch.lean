/-
What a fetch through a cache can give and leave behind.

Whatever goes wrong with the backend, reading only ever takes entries away, and what it
gives is the value of an entry that was there and had not ended.  Storing adds the one
entry that was put.  So a fetch gives the value of an entry under its key or what its
source gave, and leaves no entry but those there were and its own.  It takes no time.
-/
import GraphFetch.Cache.Fetch
import GraphFetch.Proofs.Cache.Expiry

namespace GraphFetch

/-! ### The store -/

namespace Store

theorem mem_of_mem_purgeDue {now : Nat} {entry : String × StoreEntry} :
    ∀ {due : List (Nat × String)} {entries : List (String × StoreEntry)},
      entry ∈ (purgeDue now due entries).entries → entry ∈ entries := by
  intro due
  induction due with
  | nil => intro entries h; exact h
  | cons first rest ih =>
      intro entries h
      obtain ⟨time, key⟩ := first
      unfold purgeDue at h
      split at h
      · have hdropped := ih h
        unfold dropExpired at hdropped
        split at hdropped
        · split at hdropped
          · exact Named.mem_of_mem_remove hdropped
          · exact hdropped
        · exact hdropped
      · exact h

theorem mem_of_mem_purge {now : Nat} {store : Store} {entry : String × StoreEntry}
    (h : entry ∈ (store.purge now).entries) : entry ∈ store.entries :=
  mem_of_mem_purgeDue h

/-- What is left by the deletions that are due has not ended. -/
theorem Coherent.live_of_mem_purge {now : Nat} {store : Store} (h : store.Coherent) {key : String}
    {entry : StoreEntry} (hmem : (key, entry) ∈ (store.purge now).entries) : entry.Live now := by
  have hpurged : (store.purge now).Coherent := h.purge
  have hfind := hpurged.distinct.find? hmem
  rw [h.find?_purge] at hfind
  exact of_decide_eq_true (Option.filter_eq_some_iff.mp hfind).2

end Store

/-- A backend with nothing in it, where at each call anything may go wrong. -/
def Backend.failing (faults : Nat → Faults) : Backend := { Backend.fresh with faults }

namespace Backend

/-- Whether a backend became another one in no time, with its store still in order. -/
structure Instant (before after : Backend) : Prop where
  now : after.now = before.now
  coherent : before.store.Coherent → after.store.Coherent

theorem Instant.refl (backend : Backend) : backend.Instant backend := ⟨rfl, id⟩

theorem Instant.trans {before between after : Backend} (h : before.Instant between)
    (hafter : between.Instant after) : before.Instant after :=
  ⟨hafter.now.trans h.now, hafter.coherent ∘ h.coherent⟩

/-- The texts that a backend holds. -/
def Holds (backend : Backend) (key text : String) : Prop :=
  ∃ entry, (key, entry) ∈ backend.store.entries ∧ entry.value = text

/-- The entries that a backend has to show. -/
def Shows (backend : Backend) (key : String) (entry : StoreEntry) : Prop :=
  (key, entry) ∈ (backend.store.purge backend.now).entries

theorem Shows.held {backend : Backend} {key : String} {entry : StoreEntry}
    (h : backend.Shows key entry) : (key, entry) ∈ backend.store.entries :=
  Store.mem_of_mem_purge h

theorem Shows.live {backend : Backend} (hcoherent : backend.store.Coherent) {key : String}
    {entry : StoreEntry} (h : backend.Shows key entry) : entry.Live backend.now :=
  hcoherent.live_of_mem_purge h

/-- Reading gives the text of an entry that is shown, or the garbage of a backend that went wrong,
and adds no entry. -/
theorem get_spec (key : String) (backend : Backend) :
    (∀ text, (get key backend).1 = .ok (some text) →
        text = garbage ∨ ∃ entry, backend.Shows key entry ∧ entry.value = text)
      ∧ (get key backend).2.store.entries ⊆ backend.store.entries
      ∧ backend.Instant (get key backend).2 := by
  unfold get
  split
  · exact ⟨fun text h => (by cases h), List.Subset.refl _, rfl, id⟩
  split
  · refine ⟨fun text h => ?_, List.Subset.refl _, rfl, id⟩
    cases h
    exact Or.inl rfl
  · refine ⟨fun text h => Or.inr ?_, fun _ => Store.mem_of_mem_purge, rfl, fun h => h.purge⟩
    have hfound : (Named.find? key (backend.store.purge backend.now).entries).map (·.value)
        = some text := Except.ok.inj h
    obtain ⟨entry, hfind, heq⟩ := Option.map_eq_some_iff.mp hfound
    exact ⟨entry, Named.mem_of_find? hfind, heq⟩

theorem parse?_garbage : Json.parse? garbage = none := by decide

end Backend

/-- The value that a text is read as. -/
def Codec.read? {α : Type} (codec : Codec α) (text : String) : Option α :=
  (Json.parse? text).bind codec.decode?

namespace Backend

/-- What the cache has to give is what is read, if that is a value. -/
theorem lookUp_eq {α : Type} (codec : Codec α) (key : String) (backend : Backend) :
    lookUp codec key backend =
      (match (get key backend).1 with
        | .ok (some text) => codec.read? text
        | _ => none,
      (get key backend).2) := by
  simp only [lookUp, getDecoded, bind, StateT.bind]
  rcases get key backend with ⟨answer, after⟩
  cases answer with
  | error fault => rfl
  | ok found =>
      cases found with
      | none => rfl
      | some text =>
          dsimp only [Codec.read?]
          cases (Json.parse? text).bind codec.decode? <;> rfl

theorem json_read? (text : String) : Codec.json.read? text = Json.parse? text :=
  Option.bind_fun_some _

/-- What the cache gives is the value of an entry it shows. -/
theorem lookUp_spec (key : String) (backend : Backend) :
    (∀ value, (lookUp .json key backend).1 = some value →
        ∃ entry, backend.Shows key entry ∧ Json.parse? entry.value = some value)
      ∧ (lookUp .json key backend).2.store.entries ⊆ backend.store.entries
      ∧ backend.Instant (lookUp .json key backend).2 := by
  obtain ⟨hget, hafter⟩ := get_spec key backend
  simp only [lookUp_eq, json_read?]
  refine ⟨fun value h => ?_, hafter⟩
  split at h
  · rename_i text hread
    rcases hget text hread with rfl | ⟨entry, hshows, rfl⟩
    · rw [parse?_garbage] at h
      exact absurd h (by simp)
    · exact ⟨entry, hshows, h⟩
  · exact absurd h (by simp)

/-- The entry that a value is kept in if it is put at a time. -/
def entryFor (now : Nat) (slot : CacheSlot) (value : Json) : StoreEntry :=
  ⟨value.text, Store.expiry? now slot.ttl⟩

/-- Storing adds at most its own entry. -/
theorem keep_spec (slot : CacheSlot) (value : Json) (backend : Backend) :
    (∀ key entry, (key, entry) ∈ (keep .json slot value backend).2.store.entries →
        (key, entry) ∈ backend.store.entries
          ∨ (key = slot.key ∧ entry = entryFor backend.now slot value))
      ∧ backend.Instant (keep .json slot value backend).2 := by
  rw [show (keep .json slot value backend).2
    = (put slot.key value.text slot.ttl backend).2 from rfl]
  unfold put
  split
  · exact ⟨fun _ _ h => Or.inl h, rfl, id⟩
  · refine ⟨fun key entry h => ?_, rfl, fun h => h.put _ _ _⟩
    rcases Named.mem_put h with hnew | hold
    · exact Or.inr (Prod.mk.inj hnew)
    · exact Or.inl (Store.mem_of_mem_purge hold)

/-! ### Fetches -/

variable {ε : Type}

/-- Without a slot the cache is left alone. -/
theorem fetch_none (source : Except ε Json) (accepts : Json → Bool) (backend : Backend) :
    fetch none source accepts backend
      = (⟨true, source.map fun value => (value, .bypass)⟩, backend) := rfl

/-- **A fetch through the cache gives the value of an entry that was shown, without running its
source, or what its source gave.** -/
theorem fetch_result (slot : CacheSlot) (source : Except ε Json) (accepts : Json → Bool)
    (backend : Backend) :
    (∃ value entry, (fetch (some slot) source accepts backend).1 = ⟨false, .ok (value, .hit)⟩
        ∧ backend.Shows slot.key entry ∧ Json.parse? entry.value = some value)
      ∨ (fetch (some slot) source accepts backend).1
          = ⟨true, source.map fun value => (value, .miss)⟩ := by
  obtain ⟨hlook, -⟩ := lookUp_spec slot.key backend
  simp only [fetch, fetchAs, bind, StateT.bind]
  rcases hread : lookUp .json slot.key backend with ⟨found, after⟩
  rw [hread] at hlook
  cases found with
  | some value =>
      obtain ⟨entry, hshows, hparse⟩ := hlook value rfl
      exact Or.inl ⟨value, entry, rfl, hshows, hparse⟩
  | none =>
      right
      cases source with
      | error fault => rfl
      | ok value =>
          dsimp only
          cases accepts value <;> rfl

/-- **A fetch through the cache leaves no entry but those there were and that of what it fetched**,
and takes no time. -/
theorem fetch_leaves (slot : Option CacheSlot) (source : Except ε Json) (accepts : Json → Bool)
    (backend : Backend) :
    let fetched := fetch slot source accepts backend
    (∀ key entry, (key, entry) ∈ fetched.2.store.entries → (key, entry) ∈ backend.store.entries
        ∨ ∃ own value, slot = some own ∧ key = own.key ∧ source = .ok value
          ∧ entry = entryFor backend.now own value ∧ fetched.1.result = .ok (value, .miss))
      ∧ backend.Instant fetched.2 := by
  cases slot with
  | none => exact ⟨fun _ _ h => Or.inl h, .refl backend⟩
  | some slot =>
      obtain ⟨-, hlook, hinstant⟩ := lookUp_spec slot.key backend
      simp only [fetch, fetchAs, bind, StateT.bind]
      rcases hread : lookUp .json slot.key backend with ⟨found, after⟩
      rw [hread] at hlook hinstant
      cases found with
      | some value => exact ⟨fun _ _ h => Or.inl (hlook h), hinstant⟩
      | none =>
          cases source with
          | error fault => exact ⟨fun _ _ h => Or.inl (hlook h), hinstant⟩
          | ok value =>
              dsimp only
              cases haccepts : accepts value with
              | false => exact ⟨fun _ _ h => Or.inl (hlook h), hinstant⟩
              | true =>
                  obtain ⟨hkeep, hkept⟩ := keep_spec slot value after
                  refine ⟨fun key entry h => ?_, hinstant.trans hkept⟩
                  rcases hkeep key entry h with hheld | ⟨hkey, hentry⟩
                  · exact Or.inl (hlook hheld)
                  · exact Or.inr ⟨slot, value, rfl, hkey, rfl, hinstant.now ▸ hentry, rfl⟩

/-- A backend that works gives what was fetched first, if that stays. -/
theorem fetch_again {slot : CacheSlot} {value : Json} {accepts accepts' : Json → Bool}
    (httl : slot.ttl = none) (haccepts : accepts value = true)
    (hread : Json.parse? value.text = some value) (source : Except ε Json) :
    (fetch (some slot) source accepts'
        (fetch (some slot) (.ok value : Except ε Json) accepts fresh).2).1
      = ⟨false, .ok (value, .hit)⟩ := by
  obtain ⟨key, ttl⟩ := slot
  have httl : ttl = none := httl
  subst httl
  let stored : Backend :=
    ⟨⟨[(key, ⟨value.text, none⟩)], []⟩, 0, fun _ => {}, [.get key .miss, .put key value.text none]⟩
  have hfirst : (fetch (some ⟨key, none⟩) (.ok value : Except ε Json) accepts fresh).2
    = stored := by
    simp only [fetch, fetchAs, bind, StateT.bind]
    rw [show lookUp .json key fresh = (none, fresh.note (.get key .miss)) from rfl]
    dsimp only
    rw [haccepts]
    rfl
  have hsecond : (lookUp .json key stored).1 = some value := by
    have hget : (get key stored).1 = .ok (some value.text) := by
      show Except.ok ((if key = key then some (⟨value.text, none⟩ : StoreEntry) else none).map
        (·.value)) = _
      rw [if_pos rfl]
      rfl
    rw [lookUp_eq, hget]
    exact (json_read? _).trans hread
  rw [hfirst]
  simp only [fetch, fetchAs, bind, StateT.bind]
  rcases hlook : lookUp .json key stored with ⟨found, after⟩
  rw [hlook] at hsecond
  rw [show found = some value from hsecond]
  rfl

end Backend

end GraphFetch
