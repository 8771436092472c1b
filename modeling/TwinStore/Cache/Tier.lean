import TwinStore.Converge.Run

/-!
# A cache before a source

A `CacheTier` reads from its cache first and writes to its source first. A failure of the cache is
never the caller's: it counts as a miss when reading, and when writing it makes the cache be
refreshed from the source.
-/

namespace TwinStore

variable {V H α : Type}

/-- A cache before a source of the same contract. -/
structure CacheTier (V H : Type) where
  name : String
  source : H
  cache : H
  synchronizer : Synchronizer V H

namespace CacheTier

/-- A new tier. It is refused if the cache cannot be refreshed from the source. -/
def make (name : String) (source cache : H) (synchronizer : Synchronizer V H) :
    Action V (CacheTier V H) := do
  synchronizer.validate source cache
  return { name, source, cache, synchronizer }

/-- Count a failure of the cache. -/
def noteError (c : CacheTier V H) (work : CacheWork) : Action V Unit :=
  Action.count (.cacheErrors c.name work)

/-- The cache's answer, if it is one. -/
def probe [CacheProbe α] (c : CacheTier V H) (op : H → Action V α) : Action V (Option α) := do
  match ← Action.attempt (op c.cache) with
  | .ok a =>
    let hit := CacheProbe.isHit a
    Action.count (.cacheLookups c.name hit)
    return if hit then some a else none
  | .error _ =>
    c.noteError .read
    return none

/-- Read from the cache; on a miss read from the source, and let `backfill` warm the cache with what
the source had. -/
def read [CacheProbe α] (c : CacheTier V H) (op : H → Action V α)
    (backfill : H → α → Action V Unit) : Action V α := do
  match ← c.probe op with
  | some a => return a
  | none =>
    let a ← op c.source
    if CacheProbe.isHit a then
      if let .error _ ← Action.attempt (backfill c.cache a) then c.noteError .backfill
    return a

/-- Read from the cache; on a miss read from the source. -/
def readThrough [CacheProbe α] (c : CacheTier V H) (op : H → Action V α) : Action V α := do
  match ← c.probe op with
  | some a => return a
  | none => op c.source

/-- Bring the cache up to date. -/
def refresh (c : CacheTier V H) (t : Token) : Action V Report :=
  c.synchronizer.run c.source c.cache t

/-- Write to the source, and then make the update of the cache that the source's answer calls for,
if any. An update that fails or is refused makes the cache be refreshed; nobody cancels that. -/
def write (c : CacheTier V H) (op : H → Action V α) (update : H → α → Option (Action V Bool)) :
    Action V α := do
  let a ← op c.source
  if let some change := update c.cache a then
    let applied ← do
      match ← Action.attempt change with
      | .ok accepted => pure accepted
      | .error _ =>
        c.noteError .write
        pure false
    if !applied then
      let _ ← Action.attempt (c.refresh none)
  return a

end CacheTier

end TwinStore
