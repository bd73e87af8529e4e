/-
A cache backend that can fail.

Whoever uses a cache must be prepared for a backend that is down or answers with
bytes that mean nothing.  This one keeps a store and a clock, and may go wrong at any
call: `faults` says how, by the number of the call.  Every call is written down with
what came of it.
-/
import GraphFetch.Cache.Store
import GraphFetch.Json.Parser
import GraphFetch.Json.Printer

namespace GraphFetch

/-- What goes wrong at a call. -/
structure Faults where
  /-- Reading fails. -/
  get : Bool := false
  /-- Reading finds a text that is no JSON. -/
  garbage : Bool := false
  put : Bool := false
  delete : Bool := false
deriving DecidableEq, Inhabited

/-- What came of reading. -/
inductive CacheAnswer
  | hit
  | miss
  | error
  | garbage
deriving DecidableEq, Inhabited

/-- A call of the backend. -/
inductive CacheCall
  | get (key : String) (answer : CacheAnswer)
  | put (key value : String) (ttl : Option Nat)
  | putFailed (key : String)
  | delete (key : String)
  | deleteFailed (key : String)
deriving DecidableEq, Inhabited

/-- Why the cache could not be used. -/
inductive CacheError
  | get
  | put
  | delete
  /-- What was read is not what was expected. -/
  | undecodable
  /-- What was to be put cannot be written. -/
  | unencodable
deriving DecidableEq, Inhabited

/-- What the backend says. -/
def CacheError.message : CacheError → String
  | get => "get failed"
  | put => "put failed"
  | delete => "delete failed"
  | undecodable => "undecodable entry"
  | unencodable => "unencodable value"

structure Backend where
  store : Store
  /-- The time in nanoseconds. -/
  now : Nat
  /-- What goes wrong, by the number of the call. -/
  faults : Nat → Faults
  calls : List CacheCall

namespace Backend

/-- A backend that works, with nothing in it. -/
def fresh : Backend := ⟨.empty, 0, fun _ => {}, []⟩

instance : Inhabited Backend := ⟨fresh⟩

/-- Lets time pass. -/
def advance (duration : Nat) (backend : Backend) : Backend :=
  { backend with now := backend.now + duration }

/-- What goes wrong at the next call. -/
def nextFaults (backend : Backend) : Faults := backend.faults backend.calls.length

/-- Writes down a call. -/
def note (call : CacheCall) (backend : Backend) : Backend :=
  { backend with calls := backend.calls ++ [call] }

/-- The text that stands for garbage. -/
def garbage : String := "\x7bnot json"

/-- Reads the text under a key. -/
def get (key : String) : StateM Backend (Except CacheError (Option String)) := fun backend =>
  if backend.nextFaults.get then (.error .get, backend.note (.get key .error))
  else if backend.nextFaults.garbage then
    (.ok (some garbage), backend.note (.get key .garbage))
  else
    let (found, store) := backend.store.get backend.now key
    let answer := if found.isSome then .hit else .miss
    (.ok found, { backend with store }.note (.get key answer))

/-- Puts a text under a key. -/
def put (key value : String) (ttl : Option Nat) : StateM Backend (Except CacheError Unit) :=
  fun backend =>
    if backend.nextFaults.put then (.error .put, backend.note (.putFailed key))
    else
      let store := backend.store.put backend.now key value ttl
      (.ok (), { backend with store }.note (.put key value ttl))

/-- Drops the text under a key. -/
def delete (key : String) : StateM Backend (Except CacheError Unit) := fun backend =>
  if backend.nextFaults.delete then (.error .delete, backend.note (.deleteFailed key))
  else
    let store := backend.store.delete backend.now key
    (.ok (), { backend with store }.note (.delete key))

/-- How many texts there are. -/
def size : StateM Backend Nat := fun backend =>
  let (count, store) := backend.store.size backend.now
  (count, { backend with store })

/-! ### JSON -/

/-- Reads the text under a key as JSON, and that as something else. -/
def getDecoded {α : Type} (decode? : Json → Option α) (key : String) :
    StateM Backend (Except CacheError (Option α)) := do
  match ← get key with
  | .error error => return .error error
  | .ok none => return .ok none
  | .ok (some text) =>
    match (Json.parse? text).bind decode? with
    | some value => return .ok (some value)
    | none => return .error .undecodable

/-- Reads the text under a key as JSON. -/
def getJson (key : String) : StateM Backend (Except CacheError (Option Json)) :=
  getDecoded some key

/-- Writes a value as JSON and puts the compact text of that under a key. -/
def putEncoded {α : Type} (encode? : α → Option Json) (key : String) (value : α)
    (ttl : Option Nat) : StateM Backend (Except CacheError Unit) :=
  match encode? value with
  | some json => put key json.text ttl
  | none => return .error .unencodable

/-- Puts the compact text of a value under a key. -/
def putJson (key : String) (value : Json) (ttl : Option Nat) :
    StateM Backend (Except CacheError Unit) :=
  putEncoded some key value ttl

end Backend

end GraphFetch
