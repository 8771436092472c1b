import TwinStore.Program.Contract

/-!
# Base stores

The contracts of the stores that everything else is built on: each operation is one call. The sets
under the keys of a map of sets are reached by their key; storing a whole set asks first, collects
the members only if the key is free, and then puts them there.
-/

namespace TwinStore.Backend

variable {V : Type}

/-- A call to a map. -/
def onMap (i : Nat) (op : MapOp V) (t : Token) : Action V op.Answer :=
  Action.call (.map i op) t

/-- A call to a set. -/
def onSet (i : Nat) (op : SetOp) (t : Token) : Action V op.Answer :=
  Action.call (.set i op) t

/-- A call to a map of sets. -/
def onSetMap (i : Nat) (op : SetMapOp) (t : Token) : Action V op.Answer :=
  Action.call (.setMap i op) t

/-- A call to a queue. -/
def onQueue (i : Nat) (op : QueueOp V) (t : Token) : Action V op.Answer :=
  Action.call (.queue i op) t

/-- The capabilities a store grants. -/
def grants (site : Site) : Prog V Grants :=
  Prog.request (.grants site)

/-- Base map `i`. -/
def map (i : Nat) : MapStore V where
  add k v overwrite t := onMap i (.add k v overwrite) t
  get k t := onMap i (.get k) t
  remove k t := onMap i (.remove k) t
  contains k t := onMap i (.contains k) t
  canList := Grants.keys <$> grants (.map i)
  keys t := onMap i .keys t
  canExpire := Grants.expiry <$> grants (.map i)
  expire k ttl t := onMap i (.expire k ttl) t
  expireAt k instant t := onMap i (.expireAt k instant) t

/-- Base set `i`. -/
def set (i : Nat) : SetStore V where
  add x t := onSet i (.add x) t
  remove x t := onSet i (.remove x) t
  members t := onSet i .members t
  contains x t := onSet i (.contains x) t
  count t := onSet i .count t

/-- The set under a key of base map of sets `i`. -/
def setUnder (i : Nat) (k : Key) : SetStore V where
  add x t := onSetMap i (.member k (.add x)) t
  remove x t := onSetMap i (.member k (.remove x)) t
  members t := onSetMap i (.member k .members) t
  contains x t := onSetMap i (.member k (.contains x)) t
  count t := onSetMap i (.member k .count) t

/-- Store a whole set under a key. -/
def addSet (i : Nat) (k : Key) (value : SetStore V) (overwrite : Bool) (t : Token) :
    Action V Bool := do
  if ← onSetMap i (.add k overwrite) t then
    let members ← value.collect t
    Action.ask (.storeSet i k members)
    return true
  else
    return false

/-- Base map of sets `i`. -/
def setMap (i : Nat) : SetMapStore V where
  add k value overwrite t := addSet i k value overwrite t
  remove k t := onSetMap i (.remove k) t
  contains k t := onSetMap i (.contains k) t
  canList := Grants.keys <$> grants (.setMap i)
  keys t := onSetMap i .keys t
  canExpire := Grants.expiry <$> grants (.setMap i)
  expire k ttl t := onSetMap i (.expire k ttl) t
  expireAt k instant t := onSetMap i (.expireAt k instant) t
  find k t := do
    if ← onSetMap i (.get k) t then return some .direct else return none
  route k t := do
    onSetMap i (.reach k) t
    return .direct
  follow k _ := setUnder i k

/-- Base queue `i`. -/
def queue (i : Nat) : BlockingQueue V where
  enqueue v t := onQueue i (.enqueue v) t
  dequeue t := onQueue i .dequeue t
  count t := onQueue i .count t
  take t := onQueue i .take t

end TwinStore.Backend
