import TwinStore.World.Answer

/-!
# Programs taking turns

Several programs, the branches, run on one world. A branch runs until it has to wait: for the delay
of a base store, for a lock, or for an item of a queue. Branches that can go on take turns
(`Machine.next?`); when none can, time jumps to the next date at which one can. Locks and items go
to those who wait for them in the order in which they began to wait.

A branch that is inside runs may be cut short where it waits: by the time limit of a run, or by its
caller if the run heeds the caller. The request it waits for is then answered with the number of the
run that ends, and a call that was still in its delay has no effect. Who can go on at the date of
a limit does so first: a limit only ends waits (`Machine.halt?`). Run 0 of every branch is the
branch itself, which nobody cancels and which may take a day.

Besides the world, branches share a state of their callers' own, which they read when they start and
change when they end; programs do not see it.
-/

namespace TwinStore

variable {S V R : Type}

/-! ## Branches -/

/-- What a branch waits for, and how it goes on. -/
inductive Wait (S V R : Type) where
  /-- Its turn. -/
  | turn (next : Prog V R)
  /-- The date of its start; the program is made then. -/
  | start (make : S → World V → Prog V R × S × World V) (due : Nat)
  /-- The date at which the delay of a call ends. -/
  | delay (c : Call V) (t : Token) (fate : Option Strike) (next : Except Halt c.Answer → Prog V R)
      (due : Nat)
  /-- A lock. -/
  | lock (lock : Lock) (next : Except Halt Unit → Prog V R)
  /-- An item of a queue, unless its caller cancels. -/
  | item (queue : Nat) (t : Token) (next : Except Halt (Option V) → Prog V R)
  /-- Nothing any more. -/
  | done (result : R)

namespace Wait

/-- The date at which the wait ends by itself. -/
def due? : Wait S V R → Option Nat
  | start _ due => some due
  | delay _ _ _ _ due => some due
  | _ => none

/-- The result of a branch that waits for nothing any more. -/
def result? : Wait S V R → Option R
  | done r => some r
  | _ => none

end Wait

/-- An open run: the date of its time limit, and the caller it heeds. -/
structure Frame where
  due : Nat
  token : Token

/-- A program and its open runs, the innermost first. -/
structure Branch (S V R : Type) where
  wait : Wait S V R
  frames : List Frame := []
  /-- The date at which its caller will cancel. -/
  cancelDue : Option Nat := none
  /-- What its end changes. -/
  conclude : R → S → World V → S × World V

namespace Branch

/-- The number of the innermost run that is past its time limit. A run's number is how many are open
around it. -/
def late? (branch : Branch S V R) (now : Nat) : Option Nat :=
  (branch.frames.findIdx? (·.due ≤ now)).map fun i => branch.frames.length - 1 - i

/-- The number of the outermost run that heeds a caller. -/
def heeding? (branch : Branch S V R) (caller : Nat) : Option Nat :=
  branch.frames.reverse.findIdx? (·.token = some caller)

/-- The dates at which something happens to the branch; none once it has ended. -/
def dates (branch : Branch S V R) : List Nat :=
  match branch.wait with
  | .done _ => []
  | wait => wait.due?.toList ++ branch.cancelDue.toList ++ branch.frames.map (·.due)

end Branch

/-- Branches on one world. -/
structure Machine (S V R : Type) where
  world : World V
  /-- What the callers share. -/
  state : S
  now : Nat := 0
  branches : List (Branch S V R)
  /-- The branches that can go on, in the order in which they came to. -/
  ready : List Nat := []
  /-- The branch that had the last turn since time went on. -/
  latest : Option Nat := none
  /-- The locks that are held, each with those that wait for it. -/
  locks : List (Lock × List Nat) := []
  /-- The queues whose items are waited for, each with who waits. -/
  takers : List (Nat × Nat) := []

namespace Machine

/-! ## Parts -/

/-- Change a branch. -/
def modifyBranch (m : Machine S V R) (b : Nat) (f : Branch S V R → Branch S V R) :
    Machine S V R :=
  { m with branches := m.branches.modify b f }

/-- Let a branch wait for something. -/
def setWait (m : Machine S V R) (b : Nat) (wait : Wait S V R) : Machine S V R :=
  m.modifyBranch b fun branch => { branch with wait }

/-- What a branch waits for. -/
def wait? (m : Machine S V R) (b : Nat) : Option (Wait S V R) :=
  m.branches[b]?.map (·.wait)

/-- Let a branch go on when its turn comes. -/
def makeReady (m : Machine S V R) (b : Nat) : Machine S V R :=
  if m.ready.contains b then m else { m with ready := m.ready ++ [b] }

/-- Let a branch go on with a program when its turn comes. -/
def resume (m : Machine S V R) (b : Nat) (p : Prog V R) : Machine S V R :=
  (m.setWait b (.turn p)).makeReady b

/-- How many runs of a branch are open. -/
def depth (m : Machine S V R) (b : Nat) : Nat :=
  (m.branches[b]?.map (·.frames.length)).getD 0

/-- Open a run. -/
def enter (m : Machine S V R) (b limit : Nat) (t : Token) : Machine S V R :=
  m.modifyBranch b fun branch =>
    { branch with frames := { due := m.now + limit, token := t } :: branch.frames }

/-- Close the innermost run. -/
def leave (m : Machine S V R) (b : Nat) : Machine S V R :=
  m.modifyBranch b fun branch => { branch with frames := branch.frames.tail }

/-! ## Waits that are cut short -/

/-- A branch waits for neither locks nor items any more. -/
def withdraw (m : Machine S V R) (b : Nat) : Machine S V R :=
  { m with
    takers := m.takers.filter (·.2 ≠ b)
    locks := m.locks.map fun (lock, waiting) => (lock, waiting.filter (· ≠ b)) }

/-- What puts an end to whatever a branch may wait for at this date: the innermost of its runs that
are past their limits, or else its caller, who cancels, by the outermost run that heeds it. -/
def halt? (m : Machine S V R) (b : Nat) : Option Halt × Machine S V R :=
  match m.branches[b]? with
  | none => (none, m)
  | some branch =>
    match branch.late? m.now with
    | some run => (some (.cut run), m)
    | none =>
      if branch.cancelDue.any (· ≤ m.now) then
        let world := { m.world with cancelled := b :: m.world.cancelled }
        let m := { m with world }.modifyBranch b fun branch => { branch with cancelDue := none }
        ((branch.heeding? b).map .cut, m)
      else (none, m)

/-- Let a branch wait, unless its wait is cut short at once. -/
def await {α : Type} (m : Machine S V R) (b : Nat) (wait : Wait S V R) :
    Option (Except Halt α) × Machine S V R :=
  match m.halt? b with
  | (some halt, m) => (some (.error halt), m.withdraw b)
  | (none, m) => (none, m.setWait b wait)

/-! ## Queues -/

/-- Let the first of those that wait for an item of a queue look again. -/
def wakeTaker (m : Machine S V R) (queue : Nat) : Machine S V R :=
  match m.takers.find? (·.1 = queue) with
  | some (q, b) => { m with takers := m.takers.erase (q, b) }.makeReady b
  | none => m

/-- News for those that wait for an item of a queue, once one has been taken and others are left. -/
def passOn (m : Machine S V R) (queue : Nat) (taken : Option V) : Machine S V R :=
  if taken.isNone || (m.world.queues.nth queue).content.isEmpty then m else m.wakeTaker queue

/-- What a call that has been carried out means for those that wait. -/
def announce (m : Machine S V R) : (c : Call V) → c.Answer → Machine S V R
  | .queue i (.enqueue _), _ => m.wakeTaker i
  | .queue i .dequeue, taken => m.passOn i taken
  | .queue i .take, taken => m.passOn i taken
  | _, _ => m

/-- Carry a call out. -/
def settle (m : Machine S V R) (c : Call V) (fate : Option Strike) :
    Except Halt c.Answer × Machine S V R :=
  let (a, world) := m.world.settle c fate
  let m := { m with world }
  match a with
  | .ok a => (.ok a, m.announce c a)
  | .error e => (.error e, m)

/-- Wait for an item of a queue, unless the caller has cancelled. -/
def awaitItem (m : Machine S V R) (b queue : Nat) (t : Token)
    (next : Except Halt (Option V) → Prog V R) :
    Option (Except Halt (Option V)) × Machine S V R :=
  match m.await b (.item queue t next) with
  | (none, m) => if m.world.isCancelled t then (some (.ok none), m.withdraw b) else (none, m)
  | halted => halted

/-- Take an item, or wait for one as the last of those that do. -/
def take (m : Machine S V R) (b queue : Nat) (t : Token) (fate : Option Strike)
    (next : Except Halt (Option V) → Prog V R) :
    Option (Except Halt (Option V)) × Machine S V R :=
  match m.settle (.queue queue .take) fate with
  | (.ok none, m) => { m with takers := m.takers ++ [(queue, b)] }.awaitItem b queue t next
  | (a, m) => (some a, m)

/-- Carry a call of a branch out; there may be nothing to take yet. -/
def carryOut (m : Machine S V R) (b : Nat) (c : Call V) (t : Token) (fate : Option Strike)
    (next : Except Halt c.Answer → Prog V R) : Option (Except Halt c.Answer) × Machine S V R :=
  match c, next with
  | .queue i .take, next => m.take b i t fate next
  | c, _ =>
    let (a, m) := m.settle c fate
    (some a, m)

/-! ## Locks -/

/-- A lock that nobody needs to hold: that of a cell that has been filled. -/
def isOpen (m : Machine S V R) : Lock → Bool
  | .cell cell => (m.world.cells.nth cell).isSome
  | .engine _ => false

/-- Take a lock that is free, or wait for it as the last of those that do. -/
def acquire (m : Machine S V R) (b : Nat) (lock : Lock) (next : Except Halt Unit → Prog V R) :
    Option (Except Halt Unit) × Machine S V R :=
  if m.isOpen lock then (some (.ok ()), m)
  else if m.locks.any (·.1 = lock) then
    let locks := m.locks.map fun (l, waiting) =>
      if l = lock then (l, waiting ++ [b]) else (l, waiting)
    { m with locks }.await b (.lock lock next)
  else (some (.ok ()), { m with locks := m.locks ++ [(lock, [])] })

/-- Let a branch that waits for a lock have it. -/
def grant (m : Machine S V R) (b : Nat) : Machine S V R :=
  match m.wait? b with
  | some (.lock _ next) => m.resume b (next (.ok ()))
  | _ => m

/-- Give a lock back: it goes to the first of those that wait for it. -/
def release (m : Machine S V R) (lock : Lock) : Machine S V R :=
  match m.locks.find? (·.1 = lock) with
  | none => m
  | some (_, []) => { m with locks := m.locks.filter (·.1 ≠ lock) }
  | some (_, b :: rest) =>
    let locks := m.locks.map fun (l, waiting) => if l = lock then (l, rest) else (l, waiting)
    { m with locks }.grant b

/-- Let everybody who waits for a lock pass at once: nobody needs to hold it any more. -/
def openUp (m : Machine S V R) (lock : Lock) : Machine S V R :=
  let waiting := (m.locks.filter (·.1 = lock)).flatMap (·.2)
  waiting.foldl grant { m with locks := m.locks.filter (·.1 ≠ lock) }

/-! ## Running a branch -/

/-- Answer a request of a branch, or let the branch wait for the answer. -/
def request (m : Machine S V R) (b : Nat) (r : Request V) (next : r.Answer → Prog V R) :
    Option r.Answer × Machine S V R :=
  match r, next with
  | .call c t, next =>
    let (fate, world) := m.world.consult c t
    let m := { m with world }
    match world.delay c.site with
    | 0 => m.carryOut b c t fate next
    | delay => m.await b (.delay c t fate next (m.now + delay))
  | .acquire lock, next => m.acquire b lock next
  | .release lock, _ => (some (), m.release lock)
  | .enter limit t, _ => (some (m.depth b), m.enter b limit t)
  | .leave, _ => (some (), m.leave b)
  | .fillCell cell route, _ =>
    let (a, world) := m.world.answer (.fillCell cell route)
    (some a, { m with world }.openUp (.cell cell))
  | r, _ =>
    let (a, world) := m.world.answer r
    (some a, { m with world })

/-- End a branch. -/
def finish (m : Machine S V R) (b : Nat) (result : R) : Machine S V R :=
  match m.branches[b]? with
  | some branch =>
    let (state, world) := branch.conclude result m.state m.world
    { m with state, world }.setWait b (.done result)
  | none => m

/-- Run a branch until it waits or ends. -/
def advance (b : Nat) : Prog V R → Machine S V R → Machine S V R
  | .ret result, m => m.finish b result
  | .ask r next, m =>
    match m.request b r next with
    | (some a, m) => advance b (next a) m
    | (none, m) => m

/-- How long a branch may take: a day. -/
def branchLimit : Nat := 24 * 60 * 60 * 1000

/-- Go on with an answer, if there is one. -/
def proceed {α : Type} (b : Nat) (next : α → Prog V R) :
    Option α × Machine S V R → Machine S V R
  | (some a, m) => advance b (next a) m
  | (none, m) => m

/-- Give a branch its turn: it goes on if what it waits for has come, or if its wait is cut
short. -/
def run (m : Machine S V R) (b : Nat) : Machine S V R :=
  match m.wait? b with
  | some (.turn next) => advance b next m
  | some (.start make due) =>
    if due ≤ m.now then
      let (p, state, world) := make m.state m.world
      advance b p ({ m with state, world }.enter b branchLimit none)
    else m
  | some (.delay c t fate next due) =>
    if due ≤ m.now then proceed b next (m.carryOut b c t fate next)
    else proceed b next (m.await b (.delay c t fate next due))
  | some (.lock lock next) => proceed b next (m.await b (.lock lock next))
  | some (.item i t next) =>
    if m.takers.contains (i, b) then proceed b next (m.awaitItem b i t next)
    else proceed b next (m.take b i t none next)
  | _ => m

/-! ## Running all of them -/

/-- Up to so many branches take their turns in rounds, and more of them in the order in which they
came to be able to go on. -/
def roundLimit : Nat := 30

/-- The branch whose turn it is. In a round every branch that can go on does, in order; one that
comes to be able to only after its place in the round has passed is left to the next round. -/
def next? (m : Machine S V R) : Option Nat :=
  if roundLimit < m.branches.length then m.ready.head?
  else (m.ready.filter fun b => m.latest.all (· < b)).min? <|> m.ready.min?

/-- The next date at which something happens. -/
def nextDate? (m : Machine S V R) : Option Nat :=
  ((m.branches.flatMap (·.dates)).filter (m.now < ·)).min?

/-- Let time jump to a date: everybody to whom something happens then can go on. -/
def jump (m : Machine S V R) (date : Nat) : Machine S V R :=
  let woken := m.branches.zipIdx.filter fun (branch, _) => branch.dates.any (· ≤ date)
  woken.foldl (fun m (_, b) => m.makeReady b) { m with now := date, latest := none }

/-- One turn of a branch, or one jump of time if no branch can go on; none if nothing is left to
happen. -/
def turn? (m : Machine S V R) : Option (Machine S V R) :=
  match m.next? with
  | some b => some ({ m with ready := m.ready.erase b, latest := some b }.run b)
  | none => m.nextDate?.map m.jump

/-- Up to so many turns. -/
def turns : Nat → Machine S V R → Machine S V R
  | 0, m => m
  | n + 1, m =>
    match m.turn? with
    | some m => turns n m
    | none => m

/-- More turns than any branches can use up in a day that passes in milliseconds. -/
def turnLimit : Nat := 0x10000000000000000

/-- The results of the branches, none for one that has none. -/
def results (m : Machine S V R) : List (Option R) :=
  m.branches.map (·.wait.result?)

end Machine

/-! ## Jobs -/

/-- A program to run, made when it starts. -/
structure Job (S V R : Type) where
  make : S → World V → Prog V R × S × World V
  /-- What its end changes. -/
  conclude : R → S → World V → S × World V := fun _ s w => (s, w)
  startsAt : Nat := 0
  /-- Its caller has cancelled before it starts. -/
  isCancelled : Bool := false
  /-- Its caller cancels so long after its start. -/
  cancelAfter : Option Nat := none

namespace Job

/-- The branch for a job. -/
def branch (job : Job S V R) : Branch S V R where
  wait := .start job.make job.startsAt
  cancelDue := job.cancelAfter.map (job.startsAt + ·)
  conclude := job.conclude

/-- The numbers of the jobs whose callers have cancelled. -/
def cancelled (jobs : List (Job S V R)) : List Nat :=
  jobs.zipIdx.filterMap fun (job, b) => if job.isCancelled then some b else none

end Job

/-- Branches for jobs: branch `b` is the job of number `b`, and `b` is its caller. -/
def Machine.ofJobs (w : World V) (s : S) (jobs : List (Job S V R)) : Machine S V R where
  world := { w with cancelled := Job.cancelled jobs }
  state := s
  branches := jobs.map (·.branch)
  ready := List.range jobs.length

/-- Run jobs at the same time, until nothing is left to happen. -/
def World.together (w : World V) (s : S) (jobs : List (Job S V R)) :
    List (Option R) × S × World V :=
  let m := (Machine.ofJobs w s jobs).turns Machine.turnLimit
  (m.results, m.state, { m.world with cancelled := [] })

end TwinStore
