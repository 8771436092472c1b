import TwinStore.Cache.Stores

/-!
# Sets cached on demand

A cached set is taken to be complete as soon as it has a member, and an empty one is filled with
the whole source set by the next read that needs it (`OnDemandSet.seed`). An `OnDemandSetMap` hands
out, for each key, a cached set over such a set and over the source's set, which a `LazySet` fetches
on first use, so that a hit in the cache never reaches the source. Whole-set writes go to the source
and drop the cached set.
-/

namespace TwinStore

variable {V : Type}

/-! ## Filling a cached set -/

/-- A cached set that is filled when a read finds it empty. The source is only read. -/
structure OnDemandSet (V : Type) where
  name : String
  source : SetStore V
  cache : SetStore V
  /-- Puts the cached set's expiry off, where that is wanted. -/
  slide : Option (Token → Action V Bool)

namespace OnDemandSet

/-- Put the expiry off. -/
def touch (s : OnDemandSet V) (t : Token) : Action V Unit := do
  if let some slide := s.slide then
    let _ ← slide t

/-- Add members to the cache until one cannot be added; the answer is how many there were. -/
def addUntilError (s : OnDemandSet V) (t : Token) : List String → Nat → Action V Nat
  | [], seeded => return seeded
  | x :: xs, seeded => do
    match ← Action.attempt (s.cache.add x t) with
    | .ok () => addUntilError s t xs (seeded + 1)
    | .error _ =>
      Action.count (.cacheErrors s.name .seed)
      return seeded

/-- Fill the cache with the source's members, which are the answer even if the cache fails. -/
def seed (s : OnDemandSet V) (t : Token) : Action V (List String) := do
  let members ← s.source.collect t
  if !members.isEmpty then
    let seeded ← s.addUntilError t members 0
    if 0 < seeded then
      let _ ← Action.attempt (s.touch t)
    Action.count (.cacheSeeded s.name) seeded
  return members

/-- The cached members, or the source's if there are none. -/
def collect (s : OnDemandSet V) (t : Token) : Action V (List String) := do
  let cached ← s.cache.collect t
  if cached.isEmpty then s.seed t else return cached

/-- A member is put into a cached set only if that has members already. -/
def add (s : OnDemandSet V) (x : String) (t : Token) : Action V Unit := do
  if (← s.cache.count t) = 0 then
    return
  s.cache.add x t
  s.touch t

/-- A confirmed member puts the expiry off. -/
def contains (s : OnDemandSet V) (x : String) (t : Token) : Action V Bool := do
  let found ← s.cache.contains x t
  if found then
    s.cache.add x t
    s.touch t
  return found

/-- The number of cached members, or of the source's if there are none. -/
def count (s : OnDemandSet V) (t : Token) : Action V Nat := do
  let cached ← s.cache.count t
  if 0 < cached then return cached else return (← s.seed t).length

/-- The filled set as a set. -/
def store (s : OnDemandSet V) : SetStore V where
  add := s.add
  remove x t := s.cache.remove x t
  members t := do return .full (← s.collect t)
  contains := s.contains
  count := s.count

end OnDemandSet

/-! ## Fetching a set on first use -/

/-- The set under a key of a map of sets. The way to it, once found, is kept in a cell. -/
structure LazySet (V : Type) where
  map : SetMapStore V
  key : Key
  cell : Nat

namespace LazySet

/-- A set that is not fetched yet. -/
def make (map : SetMapStore V) (key : Key) : Action V (LazySet V) := do
  return { map, key, cell := ← Action.ask .newCell }

/-- Fetch the set unless that has been done. Of several who want it first, one fetches and the
others wait; after a failure the next one tries. -/
def resolve (s : LazySet V) (t : Token) : Action V (SetStore V) := do
  if let some route ← Action.ask (.readCell s.cell) then
    return s.map.follow s.key route
  Action.locked (.cell s.cell) do
    if let some route ← Action.ask (.readCell s.cell) then
      return s.map.follow s.key route
    let route ← s.map.route s.key t
    Action.ask (.fillCell s.cell route)
    return s.map.follow s.key route

/-- The fetched set as a set. -/
def store (s : LazySet V) : SetStore V where
  add x t := do (← s.resolve t).add x t
  remove x t := do (← s.resolve t).remove x t
  members t := do (← s.resolve t).members t
  contains x t := do (← s.resolve t).contains x t
  count t := do (← s.resolve t).count t

end LazySet

/-! ## Maps of sets -/

/-- A map of sets whose sets are cached on demand. -/
structure OnDemandSetMap (V : Type) where
  name : String
  source : SetMapStore V
  cache : SetMapStore V
  /-- The time to live in effect. -/
  ttl : Option Nat
  /-- The time limit of refreshing one set. -/
  limit : Nat

namespace OnDemandSetMap

/-- A new map of sets cached on demand. -/
def make (name : String) (source cache : SetMapStore V) (settings : Settings) :
    Action V (OnDemandSetMap V) := do
  let ttl ← cache.effectiveTtl settings.cacheTtl
  return { name, source, cache, ttl, limit := settings.runLimit }

/-- Drop the cached set under a key. -/
def invalidate (m : OnDemandSetMap V) (k : Key) (t : Token) : Action V Unit := do
  if let .error _ ← Action.attempt (m.cache.remove k t) then
    Action.count (.cacheErrors m.name .invalidate)

/-- Store a whole set in the source. -/
def add (m : OnDemandSetMap V) (k : Key) (value : SetStore V) (overwrite : Bool) (t : Token) :
    Action V Bool := do
  let added ← m.source.add k value overwrite t
  if added then m.invalidate k t
  return added

/-- Remove a whole set from the source. -/
def remove (m : OnDemandSetMap V) (k : Key) (t : Token) : Action V Bool := do
  let removed ← m.source.remove k t
  m.invalidate k t
  return removed

/-- Whether a key exists: the cache may say so, but only the source denies it. -/
def contains (m : OnDemandSetMap V) (k : Key) (t : Token) : Action V Bool := do
  match ← Action.attempt (m.cache.contains k t) with
  | .ok true =>
    Action.count (.cacheLookups m.name true)
    return true
  | .ok false => Action.count (.cacheLookups m.name false)
  | .error _ => Action.count (.cacheErrors m.name .read)
  m.source.contains k t

/-- Find the cached set under a key, with a source that is fetched on first use; without a cache the
source alone is used. -/
def route (m : OnDemandSetMap V) (k : Key) (t : Token) : Action V Route := do
  match ← Action.attempt (m.cache.route k t) with
  | .ok cache => return .cached cache (← Action.ask .newCell)
  | .error _ =>
    Action.count (.cacheErrors m.name .read)
    return .uncached (← Action.ask .newCell)

/-- The cached set over a set of the cache and a set of the source. -/
def cachedSet (m : OnDemandSetMap V) (k : Key) (cache source : SetStore V) : CacheSet V :=
  let slide := m.ttl.map fun ttl t => m.cache.touch k ttl t
  let onDemand : OnDemandSet V := { name := m.name, source, cache, slide }
  CacheSet.make m.name source onDemand.store m.limit

/-- The source's set under a key, fetched into a cell. -/
def sourceSet (m : OnDemandSetMap V) (k : Key) (cell : Nat) : SetStore V :=
  LazySet.store { map := m.source, key := k, cell }

/-- The set that was found. -/
def follow (m : OnDemandSetMap V) (k : Key) : Route → SetStore V
  | .cached cache cell => (m.cachedSet k (m.cache.follow k cache) (m.sourceSet k cell)).store
  | .uncached cell => m.sourceSet k cell
  | other => m.source.follow k other

/-- The cached map as a map of sets; its keys are the source's. -/
def store (m : OnDemandSetMap V) : SetMapStore V where
  add := m.add
  remove := m.remove
  contains := m.contains
  canList := m.source.canList
  keys t := m.source.listAs "source" t
  find k t := do
    if ← m.contains k t then return some (← m.route k t) else return none
  route := m.route
  follow := m.follow

end OnDemandSetMap

end TwinStore
