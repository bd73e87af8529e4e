/-
Settings of the engine, with their defaults.
-/

namespace GraphFetch

/-- How the names of modifiers in eager expressions begin. -/
structure FilterPrefixes where
  projection : String := "s"
  argument : String := "f"
deriving DecidableEq, Inhabited

structure QuerySettings where
  /-- Fetch only the columns that a selection needs. -/
  selectOptimization : Bool := true
  /-- Treat arguments without a value as not given. -/
  skipUndefined : Bool := false
  /-- Write stored columns with their table in projections. -/
  qualifyColumns : Bool := true
  filterPrefixes : FilterPrefixes := {}
deriving DecidableEq, Inhabited

structure CacheSettings where
  enabled : Bool := true
  /-- How long results live, in nanoseconds; without it they are kept. -/
  ttl : Option Nat := none
  /-- The member of a request that disables the cache for it when it is true. -/
  bypassField : String := "skipCache"
  keyPrefix : String := "eager"
deriving DecidableEq, Inhabited

structure Settings where
  query : QuerySettings := {}
  cache : CacheSettings := {}
deriving DecidableEq, Inhabited

end GraphFetch
