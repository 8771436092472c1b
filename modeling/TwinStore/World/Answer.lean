import TwinStore.Program.Contract
import TwinStore.World.State

/-!
# What the world answers

A call goes in two steps: `World.consult` decides its fate and records it, `World.settle` carries it
out, so that time may pass in between. `World.answer` answers any request at once; a program run
alone on it (`World.run`) behaves as if nobody else were there and nothing took time.
-/

namespace TwinStore

variable {V : Type}

/-! ## Operations on contents -/

/-- Carry out an operation on a map, given the time and the date. -/
def MapOp.apply (arrangement : Arrangement) (now date : Nat) :
    (op : MapOp V) → EntryMap V → op.Answer × EntryMap V
  | .add k v overwrite, m => m.add now k v overwrite
  | .get k, m => m.get now k
  | .remove k, m => m.remove now k
  | .contains k, m => m.contains now k
  | .keys, m => (.full (arrangement.keys (m.keys now)), m)
  | .expire k ttl, m => m.expireAt now k (now + ttl)
  | .expireAt k instant, m => m.expireAt now k (now + timeLeft date instant)

/-- Carry out an operation on a set. -/
def SetOp.apply (arrangement : Arrangement) : (op : SetOp) → MemberSet → op.Answer × MemberSet
  | .add x, s => ((), s.insert x)
  | .remove x, s => (s.contains x, s.erase x)
  | .members, s => (.full (arrangement.members s.toList), s)
  | .contains x, s => (s.contains x, s)
  | .count, s => (s.size, s)

/-- Carry out an operation on the set under a key. -/
def SetOp.applyUnder (arrangement : Arrangement) (now : Nat) (k : Key) :
    (op : SetOp) → MemberMap → op.Answer × MemberMap
  | .add x, m => ((), MemberMap.addMember m now k x)
  | .remove x, m => MemberMap.removeMember m now k x
  | .members, m =>
    let (xs, m) := MemberMap.members m now k
    (.full (arrangement.members xs), m)
  | .contains x, m => (MemberMap.hasMember m now k x, m)
  | .count, m => MemberMap.memberCount m now k

/-- Carry out an operation on a map of sets, given the time and the date. -/
def SetMapOp.apply (arrangement : Arrangement) (now date : Nat) :
    (op : SetMapOp) → MemberMap → op.Answer × MemberMap
  | .add k overwrite, m =>
    (MemberMap.accepts m now k overwrite, if overwrite then m else m.evict now k)
  | .get k, m => m.contains now k
  | .remove k, m => m.remove now k
  | .contains k, m => m.contains now k
  | .keys, m => (.full (arrangement.keys (m.keys now)), m)
  | .reach _, m => ((), m)
  | .expire k ttl, m => m.expireAt now k (now + ttl)
  | .expireAt k instant, m => m.expireAt now k (now + timeLeft date instant)
  | .member k op, m => op.applyUnder arrangement now k m

/-- Carry out an operation on a queue. Taking from an empty queue answers none: there is nobody to
wait for. -/
def QueueOp.apply : (op : QueueOp V) → List V → op.Answer × List V
  | .enqueue v, items => ((), items ++ [v])
  | .dequeue, items => (items.head?, items.tail)
  | .count, items => (items.length, items)
  | .take, items => (items.head?, items.tail)

namespace World

/-! ## Calls -/

/-- The date. -/
def date (w : World V) : Nat := w.epoch + w.clock

/-- Carry out a call. -/
def perform (w : World V) : (c : Call V) → c.Answer × World V
  | .map i op =>
    let b := w.maps.nth i
    let (a, content) := op.apply w.arrangement w.clock w.date b.content
    (a, { w with maps := w.maps.put i { b with content } })
  | .set i op =>
    let b := w.sets.nth i
    let (a, content) := op.apply w.arrangement b.content
    (a, { w with sets := w.sets.put i { b with content } })
  | .setMap i op =>
    let b := w.setMaps.nth i
    let (a, content) := op.apply w.arrangement w.clock w.date b.content
    (a, { w with setMaps := w.setMaps.put i { b with content } })
  | .queue i op =>
    let b := w.queues.nth i
    let (a, content) := op.apply b.content
    (a, { w with queues := w.queues.put i { b with content } })

/-- Decide the fate of a call, and record the call. -/
def consult (w : World V) (c : Call V) (t : Token) : Option Strike × World V :=
  let (fate, w) :=
    match w.plan c.site with
    | none => (none, w)
    | some plan =>
      let (fate, plan) := plan.consult c.method
      (fate, w.setPlan c.site (some plan))
  let visit : Visit V :=
    { call := c
      isFailed := match fate with | some (.fail ..) => true | _ => false
      isRejected := match fate with | some .reject => true | _ => false
      isCancelled := w.isCancelled t }
  (fate, w.visit visit)

/-- Carry a call out as its fate wants. A failed call leaves its store as it was. -/
def settle (w : World V) (c : Call V) (fate : Option Strike) : Except Halt c.Answer × World V :=
  match fate with
  | none =>
    let (a, w) := w.perform c
    (.ok a, w)
  | some .reject =>
    match c.refusal with
    | some a => (.ok a, w)
    | none =>
      let (a, w) := w.perform c
      (.ok a, w)
  | some (.fail cause none) => (.error (.failed cause), w)
  | some (.fail cause (some n)) =>
    let (a, after) := w.perform c
    match c.failAfter n cause a with
    | some a => (.ok a, after)
    | none => (.error (.failed cause), w)

/-- Answer a call at once. -/
def call (w : World V) (c : Call V) (t : Token) : Except Halt c.Answer × World V :=
  let (fate, w) := w.consult c t
  w.settle c fate

/-! ## Other requests -/

/-- Put a collected set under a key. -/
def storeSet (w : World V) (i : Nat) (k : Key) (members : List String) : World V :=
  let b := w.setMaps.nth i
  { w with
    setMaps := w.setMaps.put i
      { b with content := MemberMap.store b.content k (Std.ExtTreeSet.ofList members) } }

/-- Make the health record of a new pair; the answer is its number. -/
def newEngine (w : World V) (name : String) (capacity : Nat) : Nat × World V :=
  let w := w.setMeasure (.primaryHealthy name) fun _ => 1
  (w.engineCount,
    { w with
      engines := w.engines.put w.engineCount (.make name capacity)
      engineCount := w.engineCount + 1 })

/-- Count an announcement. -/
def countEvent (w : World V) (name : String) (e : Event) : World V :=
  w.count (.failoverEvents name e.kind) 1

/-- Take a pair down. -/
def markDown (w : World V) (engine : Nat) (cause : StoreError) : World V :=
  let name := (w.engines.nth engine).name
  let w := w.setOutlook engine (·.fail cause)
  let w := w.setMeasure (.primaryHealthy name) fun _ => 0
  (w.countEvent name (.primaryFailed cause)).countEvent name .masterDown

/-- Bring a pair up. -/
def markUp (w : World V) (engine : Nat) : World V :=
  let name := (w.engines.nth engine).name
  let w := w.setOutlook engine (·.recover)
  let w := w.setMeasure (.primaryHealthy name) fun _ => 1
  w.countEvent name .masterRecovered

/-- Hand an applied write to a handler; the answer says whether it coped. -/
def deliver (w : World V) (handler : Nat) (write : Write V) (t : Token) : Bool × World V :=
  let notice : Notice V := { handler, write, isCancelled := w.isCancelled t }
  (!w.failing.contains handler, { w with notices := w.notices ++ [notice] })

/-- Answer a request at once: every lock is free, and no run is cut short. -/
def answer : (r : Request V) → World V → r.Answer × World V
  | .call c t, w => w.call c t
  | .storeSet i k members, w => ((), w.storeSet i k members)
  | .grants site, w => (w.grants site, w)
  | .newEngine name capacity, w => w.newEngine name capacity
  | .health engine, w => ((w.engines.nth engine).health, w)
  | .markDown engine cause, w => ((), w.markDown engine cause)
  | .markUp engine, w => ((), w.markUp engine)
  | .acquire _, w => (.ok (), w)
  | .release _, w => ((), w)
  | .isCancelled t, w => (w.isCancelled t, w)
  | .enter _ _, w => (w.runs, { w with runs := w.runs + 1 })
  | .leave, w => ((), { w with runs := w.runs - 1 })
  | .count m amount, w => ((), w.count m amount)
  | .deliver handler write t, w => w.deliver handler write t
  | .newCell, w => (w.cellCount, { w with cellCount := w.cellCount + 1 })
  | .readCell cell, w => (w.cells.nth cell, w)
  | .fillCell cell route, w => ((), { w with cells := w.cells.put cell (some route) })
  | .isInUse store, w => (!w.released.contains store, w)

/-- Run a program alone. -/
def run {α : Type} (w : World V) (p : Prog V α) : α × World V :=
  p.run answer w

end World

end TwinStore
