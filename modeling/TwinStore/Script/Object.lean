import TwinStore.Failover.Stores
import TwinStore.Failover.Queues
import TwinStore.Cache.OnDemand
import TwinStore.Notify
import TwinStore.Scope
import TwinStore.Program.Backend

/-!
# Objects of a script

A script makes objects and calls them by name. An `Object` is a base store or anything the library
builds on stores; `asMap?`, `asSetMap?`, `asSet?` and `asQueue?` say as which stores it can be used,
and `engine?` gives the engine behind it. A `Thing` is an object together with what it keeps in use.
-/

namespace TwinStore

variable {V H : Type}

namespace Engine

/-- The engine with its stores known by their sides, whatever their contract. -/
def bySide (e : Engine V H) : Engine V Side where
  core := e.core
  name := e.name
  primary := .primary
  secondary := .secondary
  synchronizer := e.synchronizer.contramap e.storeOn
  recovery := e.recovery

end Engine

/-- What a script can make. -/
inductive Object (V : Type) where
  | base (site : Site)
  | replicatedMap (e : Engine V (MapStore V))
  | backupMap (e : Engine V (MapStore V))
  | backupSet (e : Engine V (SetStore V))
  | backupSetMap (b : BackupSetMap V)
  | fallbackQueue (e : Engine V (QueueStore V))
  | replicatedQueue (e : Engine V (BlockingQueue V))
  | mapEngine (e : Engine V (MapStore V))
  | setEngine (e : Engine V (SetStore V))
  | cacheMap (c : CacheMap V)
  | cacheSet (c : CacheSet V)
  | onDemandSet (s : OnDemandSet V)
  | onDemandSetMap (m : OnDemandSetMap V)
  | lazySet (s : LazySet V)
  /-- A map that notifies of its writes. -/
  | map (m : MapStore V)
  /-- A set that notifies of its writes, or one handed out by a map of sets. -/
  | set (s : SetStore V)
  /-- A map of sets that notifies of its writes. -/
  | setMap (m : SetMapStore V)
  | scope (s : Scope V)
  | scopedMap (scope : Nat) (e : Enrolment V) (inner : MapStore V)
  | scopedSetMap (scope : Nat) (e : Enrolment V) (inner : SetMapStore V)
  | receiver (number : Nat)
  | watcher (number : Nat)

namespace Object

/-- The object as a map. -/
def asMap? : Object V → Option (MapStore V)
  | base (.map i) => some (Backend.map i)
  | replicatedMap e => some e.replicatedMap
  | backupMap e => some e.backupMap
  | cacheMap c => some c.store
  | map m => some m
  | scopedMap _ e inner => some (e.map inner)
  | _ => none

/-- The object as a map of sets. -/
def asSetMap? : Object V → Option (SetMapStore V)
  | base (.setMap i) => some (Backend.setMap i)
  | backupSetMap b => some b.store
  | onDemandSetMap m => some m.store
  | setMap m => some m
  | scopedSetMap _ e inner => some (e.setMap inner)
  | _ => none

/-- The object as a set. -/
def asSet? : Object V → Option (SetStore V)
  | base (.set i) => some (Backend.set i)
  | backupSet e => some e.backupSet
  | cacheSet c => some c.store
  | onDemandSet s => some s.store
  | lazySet s => some s.store
  | set s => some s
  | _ => none

/-- The object as a queue that can be waited for. -/
def asBlockingQueue? : Object V → Option (BlockingQueue V)
  | base (.queue i) => some (Backend.queue i)
  | replicatedQueue e => some e.replicatedQueue
  | _ => none

/-- The object as a queue. -/
def asQueue? : Object V → Option (QueueStore V)
  | fallbackQueue e => some e.fallbackQueue
  | other => other.asBlockingQueue?.map (·.toQueueStore)

/-- Use the object through its keys, as a map or as a map of sets. -/
def throughKeys? {β : Type} (o : Object V) (use : {α : Type} → KeyedStore V α → β) : Option β :=
  match o.asMap?, o.asSetMap? with
  | some m, _ => some (use m)
  | none, some m => some (use m.toKeyedStore)
  | none, none => none

/-- The engine behind the object. -/
def engine? : Object V → Option (Engine V Side)
  | replicatedMap e => some e.bySide
  | backupMap e => some e.bySide
  | backupSet e => some e.bySide
  | backupSetMap b => some b.engine.bySide
  | fallbackQueue e => some e.bySide
  | replicatedQueue e => some e.bySide
  | mapEngine e => some e.bySide
  | setEngine e => some e.bySide
  | _ => none

/-- The object as a map taking part in the scope of a number. -/
def participant? (scope : Nat) : Object V → Option (Participant V)
  | scopedMap s e inner => if s = scope then some (e.participant inner) else none
  | scopedSetMap s e inner =>
    if s = scope then some (e.participant inner.toKeyedStore) else none
  | _ => none

end Object

/-- An object, the name it was made under, and the numbers of the things it keeps in use. -/
structure Thing (V : Type) where
  title : String
  object : Object V
  uses : List Nat := []
  /-- What a set that the object hands out keeps in use, by the way in which it was reached. -/
  lends : Route → List Nat := fun _ => []
  /-- What the recovery of the engine behind the object keeps in use, if that is not all of it. -/
  root : Option (List Nat) := none
  /-- The reader that reports the announcements of the engine behind the object. -/
  receiver : Option Nat := none

/-- What the recovery of the engine behind a thing keeps in use. -/
def Thing.recoveryUses (thing : Thing V) : List Nat :=
  thing.root.getD thing.uses

end TwinStore
