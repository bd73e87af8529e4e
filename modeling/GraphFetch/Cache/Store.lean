/-
A store of texts that forgets.

An entry put with a time to live is gone once that has passed, and one without stays
until it is replaced or deleted.  Nothing runs in the background: every access first
drops what has expired by then.  To find that quickly, the store keeps a list of
deletions in the order in which they fall due.  A key that was put again since has
more than one of them, so a deletion that is due only drops an entry that has in
fact expired.
-/
import GraphFetch.Json.Named

namespace GraphFetch

/-- A stored text and the time, in nanoseconds, from which it is gone. -/
structure StoreEntry where
  value : String
  expiresAt : Option Nat
deriving DecidableEq, Inhabited

structure Store where
  entries : List (String × StoreEntry)
  /-- Deletions to come, the soonest first. -/
  due : List (Nat × String)
deriving Inhabited

/-- Whether an entry is gone at a time. -/
def StoreEntry.isExpired (now : Nat) (entry : StoreEntry) : Bool :=
  match entry.expiresAt with
  | some time => time ≤ now
  | none => false

namespace Store

def empty : Store := ⟨[], []⟩

/-! ### Expiry -/

/-- The first time that a clock cannot show: 2^63 seconds. -/
def endOfTime : Nat := Nat.pow 2 63 * 1000000000

/-- When an entry put now is gone; never if no clock can show that time. -/
def expiry? (now : Nat) (ttl : Option Nat) : Option Nat :=
  match ttl with
  | some ttl => if now + ttl < endOfTime then some (now + ttl) else none
  | none => none

/-- Puts a deletion behind those that fall due no later. -/
def schedule (time : Nat) (key : String) : List (Nat × String) → List (Nat × String)
  | [] => [(time, key)]
  | (other, otherKey) :: rest =>
    if time < other then (time, key) :: (other, otherKey) :: rest
    else (other, otherKey) :: schedule time key rest

/-- The entries without that of a key, if it has expired. -/
def dropExpired (now : Nat) (key : String) (entries : List (String × StoreEntry)) :
    List (String × StoreEntry) :=
  match Named.find? key entries with
  | some entry => if entry.isExpired now then Named.remove key entries else entries
  | none => entries

/-- Carries out the deletions that are due. -/
def purgeDue (now : Nat) : List (Nat × String) → List (String × StoreEntry) → Store
  | [], entries => ⟨entries, []⟩
  | (time, key) :: rest, entries =>
    if time ≤ now then purgeDue now rest (dropExpired now key entries)
    else ⟨entries, (time, key) :: rest⟩

/-- The store without what has expired. -/
def purge (now : Nat) (store : Store) : Store := purgeDue now store.due store.entries

/-! ### Access -/

/-- The text under a key. -/
def get (now : Nat) (key : String) (store : Store) : Option String × Store :=
  let store := store.purge now
  ((Named.find? key store.entries).map (·.value), store)

/-- Puts a text under a key. -/
def put (now : Nat) (key value : String) (ttl : Option Nat) (store : Store) : Store :=
  let store := store.purge now
  let expiresAt := expiry? now ttl
  { entries := Named.put key ⟨value, expiresAt⟩ store.entries
    due := match expiresAt with
      | some time => schedule time key store.due
      | none => store.due }

/-- Drops the text under a key. -/
def delete (now : Nat) (key : String) (store : Store) : Store :=
  let store := store.purge now
  { store with entries := Named.remove key store.entries }

/-- How many texts there are. -/
def size (now : Nat) (store : Store) : Nat × Store :=
  let store := store.purge now
  (store.entries.length, store)

end Store

end GraphFetch
