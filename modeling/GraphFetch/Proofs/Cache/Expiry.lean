/-
A store answers like a map whose entries end.

Nothing ends in the background: an entry that has ended stays in the store until the next
access, and the deletions of a key that was put again or deleted stay scheduled.  Neither
is ever seen.  An entry that ends has a deletion scheduled for that time, so the first
access from then on drops it; and a deletion that is carried out drops an entry only if it
has ended, so one that is out of date does no harm.  After the deletions that are due, the
store therefore holds what the map shows at the time, and every access begins with these.
-/
import GraphFetch.Cache.Store
import GraphFetch.Proofs.Json.Named
import Mathlib.Data.Finmap

namespace GraphFetch

/-! ### Maps whose entries end -/

/-- Whether an entry counts at a time: it ends later or never. -/
def StoreEntry.Live (now : Nat) (entry : StoreEntry) : Prop := ∀ time ∈ entry.expiresAt, now < time

instance (now : Nat) (entry : StoreEntry) : Decidable (entry.Live now) :=
  inferInstanceAs (Decidable (∀ time ∈ entry.expiresAt, now < time))

/-- What was last put under each key and not deleted since, with the time at which it ends. -/
abbrev ExpiringMap := Finmap fun _ : String => StoreEntry

namespace ExpiringMap

/-- The entry that counts under a key. -/
def shown (now : Nat) (key : String) (map : ExpiringMap) : Option StoreEntry :=
  (map.lookup key).filter fun entry => entry.Live now

/-- The text that counts under a key. -/
def get (now : Nat) (key : String) (map : ExpiringMap) : Option String :=
  (map.shown now key).map StoreEntry.value

/-- When a text put now ends: after its time to live, or never if it has none or no clock can show
that time. -/
def ending (now : Nat) (ttl : Option Nat) : Option Nat :=
  (ttl.map (now + ·)).filter fun time => time < Store.endOfTime

def put (now : Nat) (key value : String) (ttl : Option Nat) (map : ExpiringMap) : ExpiringMap :=
  map.insert key ⟨value, ending now ttl⟩

def delete (key : String) (map : ExpiringMap) : ExpiringMap := map.erase key

/-- The number of keys under which a text counts. -/
def size (now : Nat) (map : ExpiringMap) : Nat :=
  (map.keys.filter fun key => (map.get now key).isSome).card

end ExpiringMap

/-! ### Calls -/

inductive StoreCall
  | get (key : String)
  | put (key value : String) (ttl : Option Nat)
  | delete (key : String)
  | size
  | isEmpty
deriving DecidableEq

inductive StoreAnswer
  | found (value : Option String)
  | done
  | count (number : Nat)
  | verdict (holds : Bool)
deriving DecidableEq

/-- What a store answers to a call, and the store after it. -/
def Store.answer (now : Nat) (call : StoreCall) (store : Store) : StoreAnswer × Store :=
  match call with
  | .get key =>
    let (value, store) := store.get now key
    (.found value, store)
  | .put key value ttl => (.done, store.put now key value ttl)
  | .delete key => (.done, store.delete now key)
  | .size =>
    let (number, store) := store.size now
    (.count number, store)
  | .isEmpty =>
    let (number, store) := store.size now
    (.verdict (number == 0), store)

/-- What a map answers to a call, and the map after it. -/
def ExpiringMap.answer (now : Nat) (call : StoreCall) (map : ExpiringMap) :
    StoreAnswer × ExpiringMap :=
  match call with
  | .get key => (.found (map.get now key), map)
  | .put key value ttl => (.done, map.put now key value ttl)
  | .delete key => (.done, map.delete key)
  | .size => (.count (map.size now), map)
  | .isEmpty => (.verdict (map.size now == 0), map)

/-- What a store answers to calls, each at its time. -/
def Store.answers : List (Nat × StoreCall) → Store → List StoreAnswer
  | [], _ => []
  | (now, call) :: rest, store =>
    let (answer, store) := store.answer now call
    answer :: Store.answers rest store

/-- What a map answers to calls, each at its time. -/
def ExpiringMap.answers : List (Nat × StoreCall) → ExpiringMap → List StoreAnswer
  | [], _ => []
  | (now, call) :: rest, map =>
    let (answer, map) := map.answer now call
    answer :: ExpiringMap.answers rest map

/-! ### What counts -/

namespace StoreEntry

variable {now : Nat} {entry : StoreEntry}

theorem live_iff : entry.Live now ↔ entry.isExpired now = false := by
  obtain ⟨value, expiresAt⟩ := entry
  cases expiresAt <;> simp [Live, isExpired]

/-- An entry that counts has counted before. -/
theorem Live.earlier {earlier : Nat} (hle : earlier ≤ now) (h : entry.Live now) :
    entry.Live earlier :=
  fun time htime => Nat.lt_of_le_of_lt hle (h time htime)

/-- The entry, if it counts. -/
def current (now : Nat) (found : Option StoreEntry) : Option StoreEntry :=
  found.filter fun entry => entry.Live now

theorem current_current {earlier : Nat} (hle : earlier ≤ now) (found : Option StoreEntry) :
    current now (current earlier found) = current now found := by
  unfold current
  rw [Option.filter_filter]
  congr 1
  funext entry
  rw [← Bool.decide_and, decide_eq_decide]
  exact ⟨fun h => h.2, fun h => ⟨h.earlier hle, h⟩⟩

theorem current_of_live {found : Option StoreEntry} (h : ∀ entry ∈ found, entry.Live now) :
    current now found = found := by
  cases found with
  | none => rfl
  | some entry => exact Option.filter_some_pos (by simpa using h entry rfl)

end StoreEntry

namespace Store

open StoreEntry (current)

variable {now : Nat} {due : List (Nat × String)} {entries : List (String × StoreEntry)}

/-! ### Deletions that are due -/

/-- Deletions, the soonest first. -/
def Ordered (due : List (Nat × String)) : Prop :=
  due.Pairwise fun first second => first.1 ≤ second.1

theorem Distinct.dropExpired (h : Named.Distinct entries) (key : String) :
    Named.Distinct (dropExpired now key entries) := by
  unfold Store.dropExpired
  split
  · split
    · exact h.remove key
    · exact h
  · exact h

/-- A deletion drops the entry of its key if that has ended, and no other. -/
theorem find?_dropExpired (h : Named.Distinct entries) (key other : String) :
    Named.find? other (dropExpired now key entries)
      = if other = key then current now (Named.find? other entries)
        else Named.find? other entries := by
  unfold dropExpired
  cases hfind : Named.find? key entries with
  | none =>
      dsimp only
      split
      · rename_i heq
        rw [heq, hfind]
        rfl
      · rfl
  | some entry =>
      dsimp only
      cases hexpired : entry.isExpired now with
      | true =>
          have hdead : ¬ entry.Live now := by simp [StoreEntry.live_iff, hexpired]
          rw [if_pos rfl, h.find?_remove]
          split
          · rename_i heq
            rw [heq, hfind, current, Option.filter_some_neg (by simpa using hdead)]
          · rfl
      | false =>
          have hlive : entry.Live now := StoreEntry.live_iff.mpr hexpired
          rw [if_neg (by simp)]
          split
          · rename_i heq
            rw [heq, hfind, StoreEntry.current_of_live]
            rintro other ⟨⟩
            exact hlive
          · rfl

theorem purgeDue_distinct (h : Named.Distinct entries) :
    Named.Distinct (purgeDue now due entries).entries := by
  induction due generalizing entries with
  | nil => exact h
  | cons first rest ih =>
      obtain ⟨time, key⟩ := first
      unfold purgeDue
      split
      · exact ih (Distinct.dropExpired h key)
      · exact h

/-- The deletions that stay are the last ones. -/
theorem purgeDue_due_suffix : (purgeDue now due entries).due <:+ due := by
  induction due generalizing entries with
  | nil => exact List.suffix_rfl
  | cons first rest ih =>
      obtain ⟨time, key⟩ := first
      unfold purgeDue
      split
      · exact ih.trans (List.suffix_cons _ _)
      · exact List.suffix_rfl

/-- The deletions that stay are those that are not due. -/
theorem mem_due_purgeDue (hordered : Ordered due) {time : Nat} {key : String}
    (hmem : (time, key) ∈ due) (htime : now < time) :
    (time, key) ∈ (purgeDue now due entries).due := by
  induction due generalizing entries with
  | nil => exact absurd hmem (by simp)
  | cons first rest ih =>
      obtain ⟨soonest, other⟩ := first
      unfold purgeDue
      split
      · rename_i hdue
        rcases List.mem_cons.mp hmem with heq | hmem
        · cases heq
          omega
        · exact ih (List.pairwise_cons.mp hordered).2 hmem
      · exact hmem

/-- Carrying out deletions drops what has ended under their keys, and nothing else. -/
theorem find?_purgeDue (hordered : Ordered due) (h : Named.Distinct entries) (key : String) :
    Named.find? key (purgeDue now due entries).entries
      = if ∃ time ≤ now, (time, key) ∈ due then current now (Named.find? key entries)
        else Named.find? key entries := by
  induction due generalizing entries with
  | nil => simp [purgeDue]
  | cons first rest ih =>
      obtain ⟨soonest, other⟩ := first
      obtain ⟨hsoonest, hrest⟩ := List.pairwise_cons.mp hordered
      unfold purgeDue
      split
      · rename_i hdue
        rw [ih hrest (Distinct.dropExpired h other), find?_dropExpired h]
        by_cases hkey : key = other
        · subst hkey
          have hnow : ∃ time ≤ now, (time, key) ∈ (soonest, key) :: rest :=
            ⟨soonest, hdue, List.mem_cons_self⟩
          rw [if_pos rfl, if_pos hnow, StoreEntry.current_current le_rfl, ite_self]
        · simp [hkey]
      · rename_i hdue
        have hnone : ¬ ∃ time ≤ now, (time, key) ∈ (soonest, other) :: rest := by
          rintro ⟨time, htime, hmem⟩
          rcases List.mem_cons.mp hmem with heq | hmem
          · cases heq
            exact hdue htime
          · exact hdue ((hsoonest _ hmem).trans htime)
        rw [if_neg hnone]

/-! ### Stores in order -/

/-- What every store keeps to: one entry for a key, and a deletion at every time at which an entry
ends. -/
structure Coherent (store : Store) : Prop where
  distinct : Named.Distinct store.entries
  ordered : Ordered store.due
  scheduled : ∀ key entry, Named.find? key store.entries = some entry →
    ∀ time ∈ entry.expiresAt, (time, key) ∈ store.due

theorem Coherent.empty : Coherent Store.empty where
  distinct := .nil
  ordered := List.Pairwise.nil
  scheduled _ _ hfind := absurd hfind (by simp [Store.empty, Named.find?])

variable {store : Store}

/-- **An access sees the entries that count, and only these.** -/
theorem Coherent.find?_purge (h : store.Coherent) (key : String) :
    Named.find? key (store.purge now).entries = current now (Named.find? key store.entries) := by
  unfold purge
  rw [find?_purgeDue h.ordered h.distinct]
  split
  · rfl
  · rename_i hnone
    symm
    refine StoreEntry.current_of_live fun entry hentry time htime => ?_
    by_contra hpast
    exact hnone ⟨time, Nat.not_lt.mp hpast, h.scheduled key entry hentry time htime⟩

theorem Coherent.purge (h : store.Coherent) : (store.purge now).Coherent where
  distinct := purgeDue_distinct h.distinct
  ordered := h.ordered.sublist purgeDue_due_suffix.sublist
  scheduled key entry hfind time htime := by
    rw [h.find?_purge] at hfind
    obtain ⟨hfound, hlive⟩ := Option.filter_eq_some_iff.mp hfind
    exact mem_due_purgeDue h.ordered (h.scheduled key entry hfound time htime)
      (of_decide_eq_true hlive time htime)

theorem mem_schedule {time : Nat} {key : String} {deletion : Nat × String} :
    deletion ∈ schedule time key due ↔ deletion = (time, key) ∨ deletion ∈ due := by
  induction due with
  | nil => simp [schedule]
  | cons first rest ih =>
      obtain ⟨other, otherKey⟩ := first
      unfold schedule
      split
      · simp
      · rw [List.mem_cons, ih, List.mem_cons]
        tauto

theorem Ordered.schedule (h : Ordered due) (time : Nat) (key : String) :
    Ordered (schedule time key due) := by
  induction due with
  | nil => exact List.pairwise_singleton _ _
  | cons first rest ih =>
      obtain ⟨other, otherKey⟩ := first
      obtain ⟨hfirst, hrest⟩ := List.pairwise_cons.mp h
      unfold Store.schedule
      split
      · rename_i hlt
        refine List.pairwise_cons.mpr ⟨fun deletion hmem => ?_, h⟩
        rcases List.mem_cons.mp hmem with rfl | hmem
        · exact hlt.le
        · exact hlt.le.trans (hfirst _ hmem)
      · rename_i hle
        refine List.pairwise_cons.mpr ⟨fun deletion hmem => ?_, ih hrest⟩
        rcases mem_schedule.mp hmem with rfl | hmem
        · exact Nat.not_lt.mp hle
        · exact hfirst _ hmem

theorem Coherent.put (h : store.Coherent) (key value : String) (ttl : Option Nat) :
    (store.put now key value ttl).Coherent := by
  have hpurged : (store.purge now).Coherent := h.purge
  constructor
  · exact hpurged.distinct.put _ _
  · unfold Store.put
    dsimp only
    split
    · exact hpurged.ordered.schedule _ _
    · exact hpurged.ordered
  · intro other entry hfind time htime
    have hput : (if other = key then some ⟨value, expiry? now ttl⟩
        else Named.find? other (store.purge now).entries) = some entry :=
      (Named.find?_put _ _ _ _).symm.trans hfind
    unfold Store.put
    dsimp only
    split at hput
    · rename_i heq
      obtain rfl := Option.some.inj hput
      have hexpiry : expiry? now ttl = some time := htime
      rw [hexpiry, heq]
      exact mem_schedule.mpr (Or.inl rfl)
    · have hmem := hpurged.scheduled other entry hput time htime
      split
      · exact mem_schedule.mpr (Or.inr hmem)
      · exact hmem

theorem Coherent.delete (h : store.Coherent) (key : String) : (store.delete now key).Coherent := by
  have hpurged : (store.purge now).Coherent := h.purge
  refine ⟨hpurged.distinct.remove key, hpurged.ordered, fun other entry hfind => ?_⟩
  have hremove : (if other = key then none else Named.find? other (store.purge now).entries)
      = some entry := (hpurged.distinct.find?_remove key other).symm.trans hfind
  split at hremove
  · exact absurd hremove (by simp)
  · exact hpurged.scheduled other entry hremove

/-! ### Stores and maps -/

/-- Whether a store and a map show the same from a time on. -/
structure Tracks (now : Nat) (store : Store) (map : ExpiringMap) : Prop where
  coherent : store.Coherent
  same : ∀ key, current now (Named.find? key store.entries) = map.shown now key

variable {map : ExpiringMap}

theorem Tracks.empty : Tracks now Store.empty ∅ :=
  ⟨.empty, fun _ => rfl⟩

theorem Tracks.later {earlier : Nat} (h : Tracks earlier store map) (hle : earlier ≤ now) :
    Tracks now store map := by
  refine ⟨h.coherent, fun key => ?_⟩
  rw [← StoreEntry.current_current hle, h.same key]
  exact StoreEntry.current_current hle (map.lookup key)

theorem Tracks.find?_purge (h : Tracks now store map) (key : String) :
    Named.find? key (store.purge now).entries = map.shown now key :=
  (h.coherent.find?_purge key).trans (h.same key)

theorem Tracks.purge (h : Tracks now store map) : Tracks now (store.purge now) map := by
  refine ⟨h.coherent.purge, fun key => ?_⟩
  rw [h.find?_purge]
  exact StoreEntry.current_current le_rfl (map.lookup key)

theorem expiry?_eq (ttl : Option Nat) : expiry? now ttl = ExpiringMap.ending now ttl := by
  cases ttl with
  | none => rfl
  | some ttl => simp [expiry?, ExpiringMap.ending, Option.filter]

theorem Tracks.put (h : Tracks now store map) (key value : String) (ttl : Option Nat) :
    Tracks now (store.put now key value ttl) (map.put now key value ttl) := by
  refine ⟨h.coherent.put key value ttl, fun other => ?_⟩
  show current now (Named.find? other
    (Named.put key ⟨value, expiry? now ttl⟩ (store.purge now).entries))
      = current now ((map.insert key _).lookup other)
  rw [Named.find?_put, expiry?_eq]
  by_cases hkey : other = key
  · rw [hkey, if_pos rfl, Finmap.lookup_insert]
  · rw [if_neg hkey, Finmap.lookup_insert_of_ne _ hkey]
    exact h.purge.same other

theorem Tracks.delete (h : Tracks now store map) (key : String) :
    Tracks now (store.delete now key) (map.delete key) := by
  refine ⟨h.coherent.delete key, fun other => ?_⟩
  show current now (Named.find? other (Named.remove key (store.purge now).entries))
      = current now ((map.erase key).lookup other)
  rw [h.coherent.purge.distinct.find?_remove]
  by_cases hkey : other = key
  · rw [hkey, if_pos rfl, Finmap.lookup_erase]
  · rw [if_neg hkey, Finmap.lookup_erase_ne hkey]
    exact h.purge.same other

/-- **A store has as many entries, once purged, as keys are shown.** -/
theorem Tracks.length_purge (h : Tracks now store map) :
    (store.purge now).entries.length = map.size now := by
  have hdistinct : (Named.names (store.purge now).entries).Nodup := h.coherent.purge.distinct
  have hkeys : (Named.names (store.purge now).entries).toFinset
      = map.keys.filter fun key => (map.get now key).isSome := by
    ext key
    have hmem : key ∈ Named.names (store.purge now).entries ↔ (map.shown now key).isSome := by
      rw [← h.find?_purge, Option.isSome_iff_ne_none, ne_eq, Named.find?_eq_none, not_not]
    have hshown : (map.shown now key).isSome → key ∈ map.keys := by
      intro hsome
      obtain ⟨entry, hentry⟩ := Option.isSome_iff_exists.mp hsome
      exact Finmap.mem_keys.mpr
        (Finmap.mem_of_lookup_eq_some (Option.filter_eq_some_iff.mp hentry).1)
    rw [List.mem_toFinset, Finset.mem_filter, hmem, ExpiringMap.get, Option.isSome_map]
    exact ⟨fun hsome => ⟨hshown hsome, hsome⟩, fun hboth => hboth.2⟩
  calc (store.purge now).entries.length
      = (Named.names (store.purge now).entries).length := by rw [Named.names, List.length_map]
    _ = (Named.names (store.purge now).entries).toFinset.card :=
        (List.toFinset_card_of_nodup hdistinct).symm
    _ = map.size now := by rw [hkeys]; rfl

/-! ### Runs -/

/-- **A call is answered as by the map, and what it does to the store it does to the map.** -/
theorem Tracks.answer (h : Tracks now store map) (call : StoreCall) :
    (store.answer now call).1 = (map.answer now call).1
      ∧ Tracks now (store.answer now call).2 (map.answer now call).2 := by
  cases call with
  | get key =>
      refine ⟨?_, h.purge⟩
      show StoreAnswer.found ((Named.find? key (store.purge now).entries).map StoreEntry.value)
        = .found (map.get now key)
      rw [h.find?_purge]
      rfl
  | put key value ttl => exact ⟨rfl, h.put key value ttl⟩
  | delete key => exact ⟨rfl, h.delete key⟩
  | size => exact ⟨congrArg StoreAnswer.count h.length_purge, h.purge⟩
  | isEmpty =>
      refine ⟨?_, h.purge⟩
      show StoreAnswer.verdict ((store.purge now).entries.length == 0)
        = .verdict (map.size now == 0)
      rw [h.length_purge]

theorem Tracks.answers {calls : List (Nat × StoreCall)} (h : Tracks now store map)
    (hclock : (now :: calls.map Prod.fst).Pairwise (· ≤ ·)) :
    Store.answers calls store = ExpiringMap.answers calls map := by
  induction calls generalizing now store map with
  | nil => rfl
  | cons first rest ih =>
      obtain ⟨time, call⟩ := first
      obtain ⟨hnow, hrest⟩ := List.pairwise_cons.mp hclock
      obtain ⟨hanswer, htracks⟩ := (h.later (hnow time List.mem_cons_self)).answer call
      show (store.answer time call).1 :: Store.answers rest (store.answer time call).2
        = (map.answer time call).1 :: ExpiringMap.answers rest (map.answer time call).2
      rw [hanswer, ih htracks hrest]

/-- **A store answers like a map whose entries end**, whatever is called and whenever, as long as
the clock does not go back. -/
theorem answers_eq_map {calls : List (Nat × StoreCall)}
    (hclock : (calls.map Prod.fst).Pairwise (· ≤ ·)) :
    Store.empty.answers calls = ExpiringMap.answers calls ∅ :=
  Tracks.empty.answers (List.pairwise_cons.mpr ⟨fun _ _ => Nat.zero_le _, hclock⟩)

/-- A key that is put again before it ends, one that has a deletion left over, and one that ends at
once. -/
def overwriting : List (Nat × StoreCall) := [
  (0, .put "page" "old" (some 5)), (4, .put "page" "new" (some 5)), (6, .get "page"),
  (6, .put "menu" "soup" (some 1)), (6, .delete "menu"), (6, .put "menu" "tea" none),
  (8, .size), (9, .get "page"), (9, .get "menu"), (9, .put "note" "now" (some 0)), (9, .size),
  (9, .delete "menu"), (9, .isEmpty)]

/-- What a map answers to these calls, a store answers. -/
theorem answers_eq_map_overwriting :
    (overwriting.map Prod.fst).Pairwise (· ≤ ·)
      ∧ Store.empty.answers overwriting = ExpiringMap.answers overwriting ∅
      ∧ ExpiringMap.answers overwriting ∅
        = [.done, .done, .found (some "new"), .done, .done, .done, .count 2, .found none,
          .found (some "tea"), .done, .count 1, .done, .verdict true] := by
  have hclock : (overwriting.map Prod.fst).Pairwise (· ≤ ·) := by decide
  have hmap := answers_eq_map hclock
  exact ⟨hclock, hmap, hmap.symm.trans (by decide +kernel)⟩

end Store

end GraphFetch
