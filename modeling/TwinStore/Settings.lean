import TwinStore.Converge.Entries

/-!
# Settings

The settings that pairs and caches share, and their defaults.
-/

namespace TwinStore

/-- The settings of a pair or a cache; times are in milliseconds. -/
structure Settings where
  /-- The time limit of one convergence run. -/
  runLimit : Nat := Synchronizer.defaultLimit
  /-- How a pair of maps converges. -/
  strategy : Converge.Strategy := .copy
  /-- How long a cached entry stays, counted from its last use. -/
  cacheTtl : Option Nat := none
  /-- Whether a write is put into the cache; otherwise it drops the cached entry. -/
  cachesWrites : Bool := true
  /-- How many announcements wait for a receiver before the oldest are lost. -/
  eventCapacity : Nat := 64
  deriving DecidableEq, Inhabited

end TwinStore
