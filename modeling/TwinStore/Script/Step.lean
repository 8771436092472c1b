import TwinStore.Script.Trace
import TwinStore.Script.Verb

/-!
# Steps

A script is a list of steps: things are made, called, disturbed and dropped. `Session.perform` takes
one step and records what came of it (`Record`): the reply, the calls that reached base stores, the
notifications, and the announcements that reached the reader of each engine.
-/

namespace TwinStore

variable {V : Type}

/-- What a call does. -/
inductive Deed (V : Type) where
  /-- Ask something of a thing. -/
  | ask (name : String) (verb : Verb V)
  /-- Run a synchronizer once. -/
  | synchronize (sync : SyncPlan) (source target : String)
  /-- See whether a synchronizer may run. -/
  | validate (sync : SyncPlan) (source target : String)

/-- A call, and what surrounds it. -/
structure Invocation (V : Type) where
  deed : Deed V
  /-- The name under which an object that is handed out is kept. -/
  keepAs : Option String := none
  startsAt : Nat := 0
  isCancelled : Bool := false
  cancelAfter : Option Nat := none

/-- One step of a script. -/
inductive Step (V : Type) where
  | make (id : String) (plan : Plan V)
  | call (c : Invocation V)
  /-- Several calls at the same time. -/
  | together (calls : List (Invocation V))
  /-- Give a base store a fault plan, or take it away. -/
  | fault (name : String) (plan : Option FaultPlan)
  | delay (name : String) (milliseconds : Nat)
  | grant (name : String) (grants : Grants)
  /-- Let real time pass. -/
  | sleep (milliseconds : Nat)
  | drop (name : String)
  /-- Look at all base stores. -/
  | dump

/-- A notification, with the name of the thing that sent it. -/
structure NamedNotice (V : Type) where
  sender : String
  write : Write V
  isCancelled : Bool

/-- What came of a step. -/
structure Record (V : Type) where
  reply : Reply V
  /-- The calls that reached base stores. -/
  trace : List (TraceEntry V)
  notices : List (NamedNotice V)
  /-- What reached the reader of each engine, where anything did. -/
  readings : List (String × List Reading)

/-- The number of a base store. -/
def Site.number : Site → Nat
  | .map i => i
  | .set i => i
  | .setMap i => i
  | .queue i => i

/-! ## Calls -/

/-- The names a call is about. -/
def Deed.names : Deed V → List String
  | .ask name (.addSet _ (.named value) _) => [name, value]
  | .ask name _ => [name]
  | .synchronize _ source target => [source, target]
  | .validate _ source target => [source, target]

namespace Registry

/-- A call as a task; none if it does not fit the things that there are. -/
def taskOf? (s : Registry V) : Deed V → Option (Task V)
  | .ask name verb => do
    let (number, thing) ← s.find? name
    s.task? number thing verb
  | .synchronize sync source target => s.syncTask? sync source target runSync
  | .validate sync source target => s.syncTask? sync source target checkSync

/-- Keep the object that a call handed out, if it is wanted. -/
def keepGiven (s : Registry V) (name : Option String) (o : Outcome V) : Registry V :=
  match name, o.given with
  | some name, some { object, uses } => s.keep name { title := name, object, uses }
  | _, _ => s

end Registry

/-- The outcome of a job. One that was cut short itself, or never ended, waited for ever. -/
def Outcome.ofResult : Option (Except Halt (Outcome V)) → Outcome V
  | some (.ok o) => o
  | some (.error (.failed e)) => { reply := .failed e }
  | some (.error (.cut _)) => { reply := .blocked }
  | none => { reply := .blocked }

/-- A call as a job for the caller of a number. Names are looked up when the call starts. What it
hands out has its name as soon as the call ends, and what nobody needs then is released. -/
def Invocation.job (c : Invocation V) (caller : Nat) :
    Job (Registry V) V (Except Halt (Outcome V)) where
  make s w :=
    let task := (s.taskOf? c.deed).getD (.say .misfit)
    let (a, w) := task (some caller) w
    (a.run, s.beginCall caller (s.numbersOf c.deed.names), w)
  conclude result s w :=
    let s := (s.endCall caller).keepGiven c.keepAs (.ofResult (some result))
    (s, { w with released := s.released })
  startsAt := c.startsAt
  isCancelled := c.isCancelled
  cancelAfter := c.cancelAfter

namespace Session

/-- Carry calls out at the same time. -/
def invoke (s : Session V) (calls : List (Invocation V)) : List (Reply V) × Session V :=
  let (results, registry, world) :=
    s.world.together s.registry (calls.mapIdx fun caller c => c.job caller)
  (results.map fun result => (Outcome.ofResult result).reply, { world, registry })

/-! ## Base stores -/

/-- The base store of a name. -/
def site? (s : Session V) (name : String) : Option Site := do
  let (_, thing) ← s.registry.find? name
  match thing.object with
  | .base site => return site
  | _ => none

/-- Change a base store. -/
def disturb (s : Session V) (name : String) (change : World V → Site → World V) :
    Reply V × Session V :=
  match s.site? name with
  | some site => (.done, { s with world := change s.world site })
  | none => (.misfit, s)

/-! ## Steps -/

/-- Take a step; the answer is the reply. -/
def takeStep (s : Session V) : Step V → Reply V × Session V
  | .make id plan =>
    match s.make id plan with
    | some (.ok (), s) => (.done, s)
    | some (.error (.failed e), s) => (.failed e, s)
    | some (.error (.cut _), s) => (.blocked, s)
    | none => (.misfit, s)
  | .call c =>
    let (replies, s) := s.invoke [c]
    (replies.headD .misfit, s)
  | .together calls =>
    let (replies, s) := s.invoke calls
    (.all replies, s)
  | .fault name plan => s.disturb name fun w site => w.setPlan site plan
  | .delay name ms => s.disturb name fun w site => w.setDelay site ms
  | .grant name grants => s.disturb name fun w site => w.setGrants site grants
  | .sleep ms => (.done, { s with world := { s.world with clock := s.world.clock + ms } })
  | .drop name =>
    let (existed, registry) := s.registry.drop name
    (.truth existed, { s with registry })
  | .dump => (.contents s.contents, s)

/-- Read what has reached the readers of engines. -/
def drainAll (s : Session V) : List (String × List Reading) × Session V :=
  s.registry.named.foldl
    (fun (found, s) (name, thing) =>
      match thing.receiver with
      | none => (found, s)
      | some receiver =>
        let (readings, world) := s.world.drain receiver
        (if readings.isEmpty then found else found ++ [(name, readings)], { s with world }))
    ([], s)

/-- Take what the world has recorded out of it. -/
def collect (s : Session V) : List (TraceEntry V) × List (NamedNotice V) × Session V :=
  let title := s.registry.titleOf
  let trace := s.world.visits.map fun visit => { store := title visit.call.site.number, visit }
  let notices := s.world.notices.map fun n =>
    { sender := title n.handler, write := n.write, isCancelled := n.isCancelled }
  (TraceEntry.arrange trace, notices,
    { s with world := { s.world with visits := [], notices := [] } })

/-- Take a step and record what came of it. -/
def perform (s : Session V) (step : Step V) : Record V × Session V :=
  let (reply, s) := s.takeStep step
  let (trace, notices, s) := s.collect
  let (readings, s) := s.drainAll
  ({ reply, trace, notices, readings }, s)

/-- Take steps one after the other. -/
def performAll (s : Session V) : List (Step V) → List (Record V) × Session V
  | [] => ([], s)
  | step :: rest =>
    let (record, s) := s.perform step
    let (records, s) := s.performAll rest
    (record :: records, s)

/-- The date at which scripts are taken to begin, in milliseconds since 1970. -/
def startDate : Nat := 1750000000000

/-- A session in which nothing has been made. -/
def start (keyShape : Shape) : Session V :=
  { world := { epoch := startDate }, registry := { keyShape } }

end Session

end TwinStore
