/-
Fetching through a cache.

The cache is looked into first and the fetch only runs when it has nothing to give.
Trouble with the cache never becomes trouble for the caller: what cannot be read is
not there, and what cannot be stored is not stored.
-/
import GraphFetch.Cache.Backend

namespace GraphFetch

/-- How the cache behaved. -/
inductive CacheStatus
  | hit
  | miss
  | bypass
deriving DecidableEq, Inhabited

def CacheStatus.text : CacheStatus → String
  | hit => "HIT"
  | miss => "MISS"
  | bypass => "BYPASS"

/-- Where a value is kept, and for how long. -/
structure CacheSlot where
  key : String
  ttl : Option Nat
deriving DecidableEq, Inhabited

/-- How the values of a fetch are written as JSON and read back, as far as they can be. -/
structure Codec (α : Type) where
  encode? : α → Option Json
  decode? : Json → Option α

/-- JSON as it is. -/
def Codec.json : Codec Json := ⟨some, some⟩

/-- What came of a fetch through a cache. -/
structure CachedFetch (ε α : Type) where
  /-- Whether the fetch itself was run. -/
  ran : Bool
  result : Except ε (α × CacheStatus)

namespace Backend

variable {ε α : Type}

/-- What the cache has to give; trouble counts as nothing. -/
def lookUp (codec : Codec α) (key : String) : StateM Backend (Option α) := do
  match ← getDecoded codec.decode? key with
  | .ok found => return found
  | .error _ => return none

/-- Stores a value as far as that is possible. -/
def keep (codec : Codec α) (slot : CacheSlot) (value : α) : StateM Backend Unit :=
  discard (putEncoded codec.encode? slot.key value slot.ttl)

/-- Answers from the cache, or else fetches and stores what is accepted; without a slot the cache
is left alone. -/
def fetchAs (codec : Codec α) (slot : Option CacheSlot) (source : Except ε α)
    (accepts : α → Bool) : StateM Backend (CachedFetch ε α) :=
  match slot with
  | none => return ⟨true, source.map fun value => (value, .bypass)⟩
  | some slot => do
    match ← lookUp codec slot.key with
    | some value => return ⟨false, .ok (value, .hit)⟩
    | none =>
      match source with
      | .error error => return ⟨true, .error error⟩
      | .ok value =>
        if accepts value then keep codec slot value
        return ⟨true, .ok (value, .miss)⟩

/-- Answers with JSON from the cache, or else fetches it. -/
def fetch (slot : Option CacheSlot) (source : Except ε Json) (accepts : Json → Bool) :
    StateM Backend (CachedFetch ε Json) :=
  fetchAs .json slot source accepts

end Backend

end GraphFetch
