import TwinStore.Cache.Tier
import TwinStore.Converge.Members
import TwinStore.Settings

/-!
# Cached maps and sets

A `CacheMap` answers reads from its cache when it can and puts what the source answers into the
cache; with a time to live in effect, every put starts the entry's expiry afresh. A `CacheSet`
copies members that its source confirms into its cache.
-/

namespace TwinStore

variable {V : Type}

/-- The time to live in effect: none if the cache cannot expire keys. -/
def KeyedStore.effectiveTtl {α : Type} (cache : KeyedStore V α) (ttl : Option Nat) :
    Action V (Option Nat) := do
  if ← cache.canExpire then return ttl else return none

/-! ## Maps -/

/-- A cached map. -/
structure CacheMap (V : Type) where
  tier : CacheTier V (MapStore V)
  /-- The time to live in effect. -/
  ttl : Option Nat
  cachesWrites : Bool

namespace CacheMap

/-- How a cached map is refreshed unless told otherwise: what is cached is brought up to date, and
nothing else is fetched. -/
def refresher (limit : Nat) : Synchronizer V (MapStore V) :=
  Converge.Strategy.intersection.synchronizer limit

/-- A new cached map, refreshed by `synchronizer`. -/
def make (name : String) (source cache : MapStore V) (synchronizer : Synchronizer V (MapStore V))
    (settings : Settings) : Action V (CacheMap V) := do
  let ttl ← cache.effectiveTtl settings.cacheTtl
  let tier ← CacheTier.make name source cache synchronizer
  return { tier, ttl, cachesWrites := settings.cachesWrites }

/-- Put an entry into the cache and start its expiry afresh. -/
def put (c : CacheMap V) (cache : MapStore V) (k : Key) (v : V) (t : Token) : Action V Bool := do
  let stored ← cache.add k v true t
  if let some ttl := c.ttl then
    let _ ← cache.touch k ttl t
  return stored

/-- Drop an entry from the cache, whether it was there or not. -/
def drop (cache : MapStore V) (k : Key) (t : Token) : Action V Bool := do
  let _ ← cache.remove k t
  return true

/-- The update of the cache that an addition calls for. -/
def updateOf (c : CacheMap V) (k : Key) (v : V) (t : Token) (cache : MapStore V) (added : Bool) :
    Option (Action V Bool) :=
  if added then
    if c.cachesWrites then some (c.put cache k v t) else some (drop cache k t)
  else none

/-- Warm the cache with an entry of the source. -/
def backfill (c : CacheMap V) (k : Key) (t : Token) (cache : MapStore V) (v : Option V) :
    Action V Unit := do
  if let some v := v then
    let _ ← c.put cache k v t

/-- The cached map as a map; its keys are the source's. -/
def store (c : CacheMap V) : MapStore V where
  add k v overwrite t := c.tier.write (fun m => m.add k v overwrite t) (c.updateOf k v t)
  get k t := c.tier.read (fun m => m.get k t) (c.backfill k t)
  remove k t := c.tier.write (fun m => m.remove k t) fun cache _ => some (drop cache k t)
  contains k t := c.tier.readThrough fun m => m.contains k t
  canList := c.tier.source.canList
  keys t := c.tier.source.listAs "source" t

end CacheMap

/-! ## Sets -/

/-- A cached set. -/
structure CacheSet (V : Type) where
  tier : CacheTier V (SetStore V)

namespace CacheSet

/-- A new cached set, refreshed by overwriting; a refresh takes at most `limit`. -/
def make (name : String) (source cache : SetStore V) (limit : Nat) : CacheSet V :=
  ⟨{ name, source, cache, synchronizer := Converge.overwriteSet limit }⟩

/-- Add members one by one. -/
def addAll (s : SetStore V) (t : Token) : List String → Action V Unit
  | [] => pure ()
  | x :: xs => do
    s.add x t
    addAll s t xs

/-- The cached set as a set. -/
def store (c : CacheSet V) : SetStore V where
  add x t := c.tier.write (fun s => s.add x t) fun cache _ => some do
    cache.add x t
    return true
  remove x t := c.tier.write (fun s => s.remove x t) fun cache _ => some do
    let _ ← cache.remove x t
    return true
  members t := do
    return .full (← c.tier.read (fun s => s.collect t) fun cache xs => addAll cache t xs)
  contains x t := c.tier.read (fun s => s.contains x t) fun cache _ => cache.add x t
  count t := c.tier.readThrough fun s => s.count t

end CacheSet

end TwinStore
