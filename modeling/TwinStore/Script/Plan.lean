import TwinStore.Script.Session

/-!
# Making things

A `Plan` says what to make, of things made before. `Session.make` follows a plan; it may fail as the
making of a pair, a cache or a scope may, and then nothing is kept.
-/

namespace TwinStore

variable {V α : Type}

/-! ## Plans -/

/-- How a store is brought to a store. -/
inductive SyncKind where
  | entries (strategy : Converge.Strategy)
  | members
  | moveItems
  | duplicateItems
  deriving DecidableEq

/-- A synchronizer; without a limit it has the default one. -/
structure SyncPlan where
  kind : SyncKind
  limit : Option Nat := none

namespace SyncPlan

/-- The time limit of a run. -/
def timeLimit (p : SyncPlan) : Nat := p.limit.getD Synchronizer.defaultLimit

/-- The synchronizer as one of keyed stores. -/
def forEntries? (p : SyncPlan) : Option (Synchronizer V (KeyedStore V α)) :=
  match p.kind with
  | .entries strategy => some (strategy.synchronizer p.timeLimit)
  | _ => none

/-- The synchronizer as one of sets. -/
def forMembers? (p : SyncPlan) : Option (Synchronizer V (SetStore V)) :=
  match p.kind with
  | .members => some (Converge.overwriteSet p.timeLimit)
  | _ => none

/-- The synchronizer as one of queues. -/
def forItems? (p : SyncPlan) : Option (Synchronizer V (QueueStore V)) :=
  match p.kind with
  | .moveItems => some (Converge.queueCopy p.timeLimit)
  | .duplicateItems => some (Converge.queueDuplicate p.timeLimit)
  | _ => none

end SyncPlan

/-- The names of a primary and its secondary, or of a source and its cache, and how what is made of
them is called and set up. -/
structure DuoPlan where
  front : String
  behind : String
  name : Option String := none
  settings : Settings := {}

/-- What the duo is called, if it is made under the name `id`: that, unless it has a name of its
own. -/
def DuoPlan.title (d : DuoPlan) (id : String) : String :=
  d.name.getD id

/-- The surroundings of a base store. -/
structure BasePlan where
  delay : Nat := 0
  grants : Grants := {}

/-- A map's place in a scope. -/
structure EnrolmentPlan where
  scope : String
  mapId : String
  format : Format

/-- What to make. -/
inductive Plan (V : Type) where
  | map (entries : List (Key × V)) (base : BasePlan)
  | set (members : List String) (base : BasePlan)
  | setMap (entries : List (Key × List String)) (base : BasePlan)
  | queue (items : List V) (base : BasePlan)
  | replicatedMap (duo : DuoPlan) (sync : Option SyncPlan)
  | backupMap (duo : DuoPlan) (sync : Option SyncPlan)
  | backupSet (duo : DuoPlan)
  | backupSetMap (duo : DuoPlan)
  | fallbackQueue (duo : DuoPlan)
  | replicatedQueue (duo : DuoPlan)
  | mapEngine (duo : DuoPlan) (sync : Option SyncPlan) (parent : Option String)
  | setEngine (duo : DuoPlan) (limit : Option Nat) (parent : Option String)
  | cacheMap (duo : DuoPlan) (sync : Option SyncPlan)
  | cacheSet (duo : DuoPlan)
  | onDemandSet (duo : DuoPlan) (expiration : Option (String × Key × Nat))
  | onDemandSetMap (duo : DuoPlan)
  | lazySet (setMap : String) (key : Key)
  | notifyMap (inner : String) (failing : Bool)
  | notifySet (inner : String) (failing : Bool)
  | notifySetMap (inner : String) (failing : Bool)
  | scope (identifier members : String)
  | scopedMap (inner : String) (enrolment : EnrolmentPlan)
  | scopedSetMap (inner : String) (enrolment : EnrolmentPlan)

namespace Registry

/-! ## Parts of things -/

/-- How a thing comes about. -/
abbrev Making (V : Type) := World V → Except Halt (Thing V) × World V

/-- Make a thing by an action. -/
def Making.ofAction (a : Action V (Thing V)) : Making V :=
  fun w => w.run a.run

/-- Make a thing that needs no action. -/
def Making.ofThing (thing : Thing V) : Making V :=
  fun w => (.ok thing, w)

/-- The map of a name, with its number. -/
def map? (s : Registry V) (name : String) : Option (Nat × MapStore V) := do
  let (number, thing) ← s.find? name
  return (number, ← thing.object.asMap?)

/-- The set of a name, with its number. -/
def set? (s : Registry V) (name : String) : Option (Nat × SetStore V) := do
  let (number, thing) ← s.find? name
  return (number, ← thing.object.asSet?)

/-- The map of sets of a name, with its number and what its sets keep in use. -/
def setMap? (s : Registry V) (name : String) :
    Option (Nat × (Route → List Nat) × SetMapStore V) := do
  let (number, thing) ← s.find? name
  return (number, thing.lends, ← thing.object.asSetMap?)

/-- The queue of a name, with its number. -/
def queue? (s : Registry V) (name : String) : Option (Nat × QueueStore V) := do
  let (number, thing) ← s.find? name
  return (number, ← thing.object.asQueue?)

/-- The queue of a name that can be waited for, with its number. -/
def blockingQueue? (s : Registry V) (name : String) : Option (Nat × BlockingQueue V) := do
  let (number, thing) ← s.find? name
  return (number, ← thing.object.asBlockingQueue?)

/-- The scope of a name, with its number. -/
def scope? (s : Registry V) (name : String) : Option (Nat × Scope V) := do
  let (number, thing) ← s.find? name
  match thing.object with
  | .scope scope => return (number, scope)
  | _ => none

/-! ## Following plans -/

/-- Make a base store. -/
def makeBase (s : Registry V) (id : String) : Plan V → Option (Making V)
  | .map entries base => some fun w =>
    let b := { content := .ofList entries, delay := base.delay, grants := base.grants }
    (.ok { title := id, object := .base (.map s.nextNumber) },
      { w with maps := w.maps.put s.nextNumber b })
  | .set members base => some fun w =>
    let b := { content := Std.ExtTreeSet.ofList members, delay := base.delay }
    (.ok { title := id, object := .base (.set s.nextNumber) },
      { w with sets := w.sets.put s.nextNumber b })
  | .setMap entries base => some fun w =>
    let b := { content := MemberMap.ofList entries, delay := base.delay, grants := base.grants }
    (.ok { title := id, object := .base (.setMap s.nextNumber) },
      { w with setMaps := w.setMaps.put s.nextNumber b })
  | .queue items base => some fun w =>
    let b := { content := items, delay := base.delay }
    (.ok { title := id, object := .base (.queue s.nextNumber) },
      { w with queues := w.queues.put s.nextNumber b })
  | _ => none

/-- The synchronizer that is asked for, if any is; none if it is not one of maps. -/
def mapSynchronizer? (sync : Option SyncPlan) (default : Synchronizer V (MapStore V)) :
    Option (Synchronizer V (MapStore V)) :=
  match sync with
  | some sync => sync.forEntries?
  | none => some default

/-- How many announcements a duo keeps: one with a synchronizer of its own has the defaults. -/
def capacityOf (d : DuoPlan) (sync : Option SyncPlan) : Nat :=
  match sync with
  | some _ => ({} : Settings).eventCapacity
  | none => d.settings.eventCapacity

/-- Make a pair of maps. -/
def makeMapPair (s : Registry V) (id : String) (d : DuoPlan) (sync : Option SyncPlan)
    (object : Engine V (MapStore V) → Object V) : Option (Making V) := do
  let (p, primary) ← s.map? d.front
  let (q, secondary) ← s.map? d.behind
  let default := d.settings.strategy.synchronizer d.settings.runLimit
  let synchronizer ← mapSynchronizer? sync default
  return .ofAction do
    let e ← Engine.make (d.title id) primary secondary synchronizer (capacityOf d sync)
    return { title := id, object := object e, uses := [p, q] }

/-- Make a pair. -/
def makePair (s : Registry V) (id : String) : Plan V → Option (Making V)
  | .replicatedMap d sync => s.makeMapPair id d sync .replicatedMap
  | .backupMap d sync => s.makeMapPair id d sync .backupMap
  | .backupSet d => do
    let (p, primary) ← s.set? d.front
    let (q, secondary) ← s.set? d.behind
    return .ofAction do
      let e ← Engine.make (d.title id) primary secondary (Converge.overwriteSet d.settings.runLimit)
        d.settings.eventCapacity
      return { title := id, object := .backupSet e, uses := [p, q] }
  | .backupSetMap d => do
    let (p, ofPrimary, primary) ← s.setMap? d.front
    let (q, ofSecondary, secondary) ← s.setMap? d.behind
    let limit := d.settings.runLimit
    let synchronizer := (d.settings.strategy.synchronizer limit).contramap SetMapStore.toKeyedStore
    return .ofAction do
      let engine ← Engine.make (d.title id) primary secondary synchronizer d.settings.eventCapacity
      let object := .backupSetMap { engine, limit }
      let lends
        | .primaryOnly route => ofPrimary route
        | .secondaryOnly route => ofSecondary route
        | _ => [p, q]
      return { title := id, object, uses := [p, q], lends }
  | .fallbackQueue d => do
    let (p, primary) ← s.queue? d.front
    let (q, secondary) ← s.queue? d.behind
    return .ofAction do
      let e ← Engine.make (d.title id) primary secondary (Converge.queueCopy d.settings.runLimit)
        d.settings.eventCapacity
      return { title := id, object := .fallbackQueue e, uses := [p, q] }
  | .replicatedQueue d => do
    let (p, primary) ← s.blockingQueue? d.front
    let (q, secondary) ← s.blockingQueue? d.behind
    let synchronizer :=
      (Converge.queueDuplicate d.settings.runLimit).contramap BlockingQueue.toQueueStore
    return .ofAction do
      let e ← Engine.make (d.title id) primary secondary synchronizer d.settings.eventCapacity
      return { title := id, object := .replicatedQueue e, uses := [p, q] }
  | _ => none

/-- Make an engine: a new one, or one derived from the engine of a parent. -/
def makeEngine {H : Type} (s : Registry V) (id : String) (d : DuoPlan) (parent : Option String)
    (primary secondary : Nat × H) (synchronizer : Synchronizer V H)
    (object : Engine V H → Object V) : Option (Making V) := do
  let uses := [primary.1, secondary.1]
  match parent with
  | none =>
    return .ofAction do
      let e ← Engine.make (d.title id) primary.2 secondary.2 synchronizer d.settings.eventCapacity
      return { title := id, object := object e, uses }
  | some parent =>
    let (_, parent) ← s.find? parent
    let root ← parent.object.engine?
    let e := root.derive primary.2 secondary.2 synchronizer
    let root := parent.recoveryUses
    return .ofThing { title := id, object := object e, uses := uses ++ root, root }

/-- Make an engine of maps or of sets. -/
def makeRaw (s : Registry V) (id : String) : Plan V → Option (Making V)
  | .mapEngine d sync parent => do
    let default := d.settings.strategy.synchronizer d.settings.runLimit
    let synchronizer ← mapSynchronizer? sync default
    s.makeEngine id d parent (← s.map? d.front) (← s.map? d.behind) synchronizer .mapEngine
  | .setEngine d limit parent => do
    let synchronizer := Converge.overwriteSet (limit.getD Synchronizer.defaultLimit)
    s.makeEngine id d parent (← s.set? d.front) (← s.set? d.behind) synchronizer .setEngine
  | _ => none

/-- Make something with a cache. -/
def makeCached (s : Registry V) (id : String) : Plan V → Option (Making V)
  | .cacheMap d sync => do
    let (p, source) ← s.map? d.front
    let (q, cache) ← s.map? d.behind
    let synchronizer ← mapSynchronizer? sync (CacheMap.refresher d.settings.runLimit)
    return .ofAction do
      let c ← CacheMap.make (d.title id) source cache synchronizer d.settings
      return { title := id, object := .cacheMap c, uses := [p, q] }
  | .cacheSet d => do
    let (p, source) ← s.set? d.front
    let (q, cache) ← s.set? d.behind
    let c := CacheSet.make (d.title id) source cache d.settings.runLimit
    return .ofThing { title := id, object := .cacheSet c, uses := [p, q] }
  | .onDemandSet d none => do
    let (p, source) ← s.set? d.front
    let (q, cache) ← s.set? d.behind
    let object := .onDemandSet { name := d.title id, source, cache, slide := none }
    return .ofThing { title := id, object, uses := [p, q] }
  | .onDemandSet d (some (holder, key, ttl)) => do
    let (p, source) ← s.set? d.front
    let (q, cache) ← s.set? d.behind
    let (r, _, holder) ← s.setMap? holder
    let slide := some fun t => holder.touch key ttl t
    let object := .onDemandSet { name := d.title id, source, cache, slide }
    return .ofThing { title := id, object, uses := [p, q, r] }
  | .onDemandSetMap d => do
    let (p, _, source) ← s.setMap? d.front
    let (q, ofCache, cache) ← s.setMap? d.behind
    return .ofAction do
      let m ← OnDemandSetMap.make (d.title id) source cache d.settings
      let lends
        | .cached route _ => p :: if m.ttl.isSome then [q] else ofCache route
        | _ => [p]
      return { title := id, object := .onDemandSetMap m, uses := [p, q], lends }
  | .lazySet name key => do
    let (p, _, map) ← s.setMap? name
    return .ofAction do
      return { title := id, object := .lazySet (← LazySet.make map key), uses := [p] }
  | _ => none

/-- Make something that notifies of its writes. -/
def makeNotifier (s : Registry V) (id : String) : Plan V → Option (Making V)
  | .notifyMap name failing => do
    let (p, inner) ← s.map? name
    making failing { title := id, object := .map (Notify.map inner s.nextNumber), uses := [p] }
  | .notifySet name failing => do
    let (p, inner) ← s.set? name
    let object := .set (Notify.set inner s.nextNumber .member)
    making failing { title := id, object, uses := [p] }
  | .notifySetMap name failing => do
    let (p, lends, inner) ← s.setMap? name
    let object := .setMap (Notify.setMap inner s.nextNumber)
    making failing { title := id, object, uses := [p], lends }
  | _ => none
where
  making (failing : Bool) (thing : Thing V) : Option (Making V) :=
    some fun w =>
      (.ok thing, if failing then { w with failing := s.nextNumber :: w.failing } else w)

/-- The enrolment of a map, unless its scope refuses it. -/
def enrol (s : Registry V) (p : EnrolmentPlan) :
    Option (Nat × Except StoreError (Enrolment V)) := do
  let (number, scope) ← s.scope? p.scope
  let taken := (s.participants number).map (·.mapId)
  let codec : KeyCodec := { format := p.format, shape := s.keyShape }
  return (number, (scope.checkMap taken p.mapId).map fun _ =>
    { scope, mapId := p.mapId, serializer := codec.serializer })

/-- Make a scope, or a map that takes part in one. -/
def makeScoped (s : Registry V) (id : String) : Plan V → Option (Making V)
  | .scope identifier members => do
    let (p, _, members) ← s.setMap? members
    return .ofAction do
      let scope ← Action.ofExcept (Scope.make identifier members)
      return { title := id, object := .scope scope, uses := [p] }
  | .scopedMap name plan => do
    let (p, inner) ← s.map? name
    let (scope, enrolment) ← s.enrol plan
    return .ofAction do
      let e ← Action.ofExcept enrolment
      return { title := id, object := .scopedMap scope e inner, uses := [p, scope] }
  | .scopedSetMap name plan => do
    let (p, ofInner, inner) ← s.setMap? name
    let (scope, enrolment) ← s.enrol plan
    return .ofAction do
      let e ← Action.ofExcept enrolment
      let object := .scopedSetMap scope e inner
      return { title := id, object, uses := [p, scope], lends := fun r => scope :: ofInner r }
  | _ => none

/-- How a plan is followed; none if it does not fit the things that there are. -/
def making? (s : Registry V) (id : String) (plan : Plan V) : Option (Making V) :=
  s.makeBase id plan <|> s.makePair id plan <|> s.makeRaw id plan <|> s.makeCached id plan <|>
    s.makeNotifier id plan <|> s.makeScoped id plan

/-- Give a thing with an engine a reader of its announcements. -/
def withReceiver (w : World V) (thing : Thing V) : Thing V × World V :=
  match thing.object.engine? with
  | none => (thing, w)
  | some e =>
    let (receiver, w) := w.subscribe e.core
    ({ thing with receiver := some receiver }, w)

end Registry

/-- Make a thing and keep it under a name, unless making it fails; none if the plan does not fit. -/
def Session.make (s : Session V) (id : String) (plan : Plan V) :
    Option (Except Halt Unit × Session V) := do
  let making ← s.registry.making? id plan
  match making s.world with
  | (.error halt, world) => return (.error halt, { s with world })
  | (.ok thing, world) =>
    let (thing, world) := Registry.withReceiver world thing
    return (.ok (), { world, registry := s.registry.keep id thing })

end TwinStore
