import TwinStore.Failover.Engine
import TwinStore.Converge.Members

/-!
# Pairs as stores

The contracts of a pair of maps, sets or maps of sets. A replicated map writes to both maps; a map,
set or map of sets that is backed up writes to its secondary what its primary has accepted. All of
them read from the primary and fall back to the secondary. The set under a key of a map of sets is
itself backed up, by an engine derived from the map's: its failures take the whole map down.
-/

namespace TwinStore

variable {V α : Type}

namespace KeyedStore

/-- Whether both maps of a pair can list their keys. -/
def bothList (p s : KeyedStore V α) : Prog V Bool := do
  if ← p.canList then s.canList else return false

end KeyedStore

namespace Engine

/-! ## Maps -/

/-- The reading half of a pair of maps: primary first, then secondary. -/
def listKeys (e : Engine V (KeyedStore V α)) (t : Token) : Action V (Listing Key) := do
  return .full (← e.fallback fun m => m.collectKeys "replica" t)

/-- Writes go to both maps. -/
def replicatedMap (e : Engine V (MapStore V)) : MapStore V where
  add k v overwrite t := e.replicate fun m => m.add k v overwrite t
  get k t := e.fallback fun m => m.get k t
  remove k t := e.replicate fun m => m.remove k t
  contains k t := e.fallback fun m => m.contains k t
  canList := KeyedStore.bothList e.primary e.secondary
  keys t := e.listKeys t

/-- Writes that the primary accepts go to the secondary too. -/
def backupMap (e : Engine V (MapStore V)) : MapStore V where
  add k v overwrite t := e.backup fun m => m.add k v overwrite t
  get k t := e.fallback fun m => m.get k t
  remove k t := e.backup fun m => m.remove k t
  contains k t := e.fallback fun m => m.contains k t
  canList := KeyedStore.bothList e.primary e.secondary
  keys t := e.listKeys t

/-! ## Sets -/

/-- Writes that the primary accepts go to the secondary too. -/
def backupSet (e : Engine V (SetStore V)) : SetStore V where
  add x t := e.backup fun s => s.add x t
  remove x t := e.backup fun s => s.remove x t
  members t := do return .full (← e.fallback fun s => s.collect t)
  contains x t := e.fallback fun s => s.contains x t
  count t := e.fallback fun s => s.count t

end Engine

/-! ## Maps of sets -/

/-- A pair of maps of sets, backed up; `limit` bounds the repair of one set. -/
structure BackupSetMap (V : Type) where
  engine : Engine V (SetMapStore V)
  limit : Nat

namespace BackupSetMap

/-- Whether a key exists. -/
def contains (b : BackupSetMap V) (k : Key) (t : Token) : Action V Bool :=
  b.engine.fallback fun m => m.contains k t

/-- Find the set under a key in both maps, or in the one that answers. -/
def route (b : BackupSetMap V) (k : Key) (t : Token) : Action V Route := do
  match ← Action.attempt (b.engine.primary.route k t) with
  | .error cause =>
    b.engine.markDown cause
    return .secondaryOnly (← b.engine.secondary.route k t)
  | .ok primary =>
    b.engine.recoverIfDown
    match ← Action.attempt (b.engine.secondary.route k t) with
    | .ok secondary => return .paired primary secondary
    | .error _ => return .primaryOnly primary

/-- The set that was found. -/
def follow (b : BackupSetMap V) (k : Key) : Route → SetStore V
  | .paired p s =>
    (b.engine.derive (b.engine.primary.follow k p) (b.engine.secondary.follow k s)
      (Converge.overwriteSet b.limit)).backupSet
  | .secondaryOnly s => b.engine.secondary.follow k s
  | .primaryOnly p => b.engine.primary.follow k p
  | other => b.engine.primary.follow k other

/-- Writes that the primary accepts go to the secondary too. -/
def store (b : BackupSetMap V) : SetMapStore V where
  add k value overwrite t := b.engine.backup fun m => m.add k value overwrite t
  remove k t := b.engine.backup fun m => m.remove k t
  contains k t := b.contains k t
  canList := KeyedStore.bothList b.engine.primary.toKeyedStore b.engine.secondary.toKeyedStore
  keys t := do return .full (← b.engine.fallback fun m => m.collectKeys "replica" t)
  find k t := do
    if ← b.contains k t then return some (← b.route k t) else return none
  route := b.route
  follow := b.follow

end BackupSetMap

end TwinStore
