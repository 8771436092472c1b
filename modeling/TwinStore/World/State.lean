import TwinStore.Memory.MemberMap
import TwinStore.World.Fault

/-!
# The world of the stores

A `World` holds everything that requests read and change: the base stores with their contents, the
health of the pairs and who reads it, the cells of lazily fetched sets, who has cancelled, and what
has been recorded of all that. Base stores keep their contents in memory; around them stand a delay,
a fault plan and the capabilities they grant.
-/

namespace TwinStore

/-- Numbered things; a number that has none stands for the default. -/
abbrev Shelf (α : Type) := Std.ExtTreeMap Nat α

namespace Shelf

variable {α : Type} [Inhabited α]

/-- The thing of a number. -/
def nth (s : Shelf α) (i : Nat) : α := s.getD i default

/-- Put a thing at a number. -/
def put (s : Shelf α) (i : Nat) (a : α) : Shelf α := s.insert i a

@[simp] theorem nth_put_self (s : Shelf α) (i : Nat) (a : α) : (s.put i a).nth i = a := by
  simp [nth, put]

theorem nth_put_of_ne (s : Shelf α) {i j : Nat} (a : α) (h : i ≠ j) :
    (s.put i a).nth j = s.nth j := by
  simp [nth, put, Std.ExtTreeMap.getD_insert, h]

end Shelf

/-- A base store: its contents, and what stands around them. -/
structure Base (σ : Type) where
  content : σ
  delay : Nat := 0
  plan : Option FaultPlan := none
  grants : Grants := {}

instance {σ : Type} [Inhabited σ] : Inhabited (Base σ) := ⟨{ content := default }⟩

/-- A call that reached a base store: how it fared, and whether its caller had cancelled. -/
structure Visit (V : Type) where
  call : Call V
  isFailed : Bool
  isRejected : Bool
  isCancelled : Bool

/-- A write that reached a handler. -/
structure Notice (V : Type) where
  handler : Nat
  write : Write V
  isCancelled : Bool

/-- The order in which base stores enumerate what they hold. -/
structure Arrangement where
  keys : List Key → List Key := id
  members : List String → List String := id
  keys_perm : ∀ ks, (keys ks).Perm ks := by exact fun ks => List.Perm.refl ks
  members_perm : ∀ xs, (members xs).Perm xs := by exact fun xs => List.Perm.refl xs

/-- Everything that requests read and change. -/
structure World (V : Type) where
  /-- The real time. -/
  clock : Nat := 0
  /-- The date at time zero. -/
  epoch : Nat := 0
  arrangement : Arrangement := {}
  maps : Shelf (Base (EntryMap V)) := ∅
  sets : Shelf (Base MemberSet) := ∅
  setMaps : Shelf (Base MemberMap) := ∅
  queues : Shelf (Base (List V)) := ∅
  engines : Shelf Outlook := ∅
  engineCount : Nat := 0
  receivers : Shelf Receiver := ∅
  receiverCount : Nat := 0
  watchers : Shelf Watcher := ∅
  watcherCount : Nat := 0
  cells : Shelf (Option Route) := ∅
  cellCount : Nat := 0
  /-- How many runs are open. -/
  runs : Nat := 0
  /-- The callers that have cancelled. -/
  cancelled : List Nat := []
  /-- The handlers that do not cope. -/
  failing : List Nat := []
  /-- The stores that are not in use any more. -/
  released : List Nat := []
  visits : List (Visit V) := []
  notices : List (Notice V) := []
  measures : List (Measure × Nat) := []

namespace World

variable {V : Type}

/-- Whether a caller has cancelled. -/
def isCancelled (w : World V) (t : Token) : Bool :=
  t.any w.cancelled.contains

/-- Change the value of a measure. -/
def setMeasure (w : World V) (m : Measure) (change : Nat → Nat) : World V :=
  { w with
    measures :=
      if w.measures.any (·.1 = m) then
        w.measures.map fun (n, total) => if n = m then (n, change total) else (n, total)
      else w.measures ++ [(m, change 0)] }

/-- Add to a running total. -/
def count (w : World V) (m : Measure) (amount : Nat) : World V :=
  w.setMeasure m (· + amount)

/-- Record a call. -/
def visit (w : World V) (v : Visit V) : World V :=
  { w with visits := w.visits ++ [v] }

/-- The delay, the plan and the capabilities of a base store. -/
def around (w : World V) : Site → Nat × Option FaultPlan × Grants
  | .map i => let b := w.maps.nth i; (b.delay, b.plan, b.grants)
  | .set i => let b := w.sets.nth i; (b.delay, b.plan, b.grants)
  | .setMap i => let b := w.setMaps.nth i; (b.delay, b.plan, b.grants)
  | .queue i => let b := w.queues.nth i; (b.delay, b.plan, b.grants)

/-- The delay of a base store. -/
def delay (w : World V) (site : Site) : Nat := (w.around site).1

/-- The fault plan of a base store. -/
def plan (w : World V) (site : Site) : Option FaultPlan := (w.around site).2.1

/-- The capabilities a base store grants. -/
def grants (w : World V) (site : Site) : Grants := (w.around site).2.2

/-- Change the delay of a base store. -/
def setDelay (w : World V) (site : Site) (delay : Nat) : World V :=
  match site with
  | .map i => { w with maps := w.maps.put i { w.maps.nth i with delay } }
  | .set i => { w with sets := w.sets.put i { w.sets.nth i with delay } }
  | .setMap i => { w with setMaps := w.setMaps.put i { w.setMaps.nth i with delay } }
  | .queue i => { w with queues := w.queues.put i { w.queues.nth i with delay } }

/-- Change the fault plan of a base store. -/
def setPlan (w : World V) (site : Site) (plan : Option FaultPlan) : World V :=
  match site with
  | .map i => { w with maps := w.maps.put i { w.maps.nth i with plan } }
  | .set i => { w with sets := w.sets.put i { w.sets.nth i with plan } }
  | .setMap i => { w with setMaps := w.setMaps.put i { w.setMaps.nth i with plan } }
  | .queue i => { w with queues := w.queues.put i { w.queues.nth i with plan } }

/-- Change the capabilities a base store grants. -/
def setGrants (w : World V) (site : Site) (grants : Grants) : World V :=
  match site with
  | .map i => { w with maps := w.maps.put i { w.maps.nth i with grants } }
  | .set i => { w with sets := w.sets.put i { w.sets.nth i with grants } }
  | .setMap i => { w with setMaps := w.setMaps.put i { w.setMaps.nth i with grants } }
  | .queue i => { w with queues := w.queues.put i { w.queues.nth i with grants } }

/-- Change the health record of a pair. -/
def setOutlook (w : World V) (engine : Nat) (change : Outlook → Outlook) : World V :=
  { w with engines := w.engines.put engine (change (w.engines.nth engine)) }

/-! ## Readers -/

/-- A new reader of the announcements about a pair, from now on; the answer is its number. -/
def subscribe (w : World V) (engine : Nat) : Nat × World V :=
  let position := (w.engines.nth engine).events.length
  (w.receiverCount,
    { w with
      receivers := w.receivers.put w.receiverCount { engine, position }
      receiverCount := w.receiverCount + 1 })

/-- What is waiting for a reader. -/
def drain (w : World V) (receiver : Nat) : List Reading × World V :=
  let r := w.receivers.nth receiver
  let (readings, r) := r.drain (w.engines.nth r.engine)
  (readings, { w with receivers := w.receivers.put receiver r })

/-- A new reader of the health of a pair; the answer is its number. -/
def watch (w : World V) (engine : Nat) : Nat × World V :=
  let seen := (w.engines.nth engine).revision
  (w.watcherCount,
    { w with
      watchers := w.watchers.put w.watcherCount { engine, seen }
      watcherCount := w.watcherCount + 1 })

/-- Whether a health has been set since its reader's last look, and what it is now. -/
def look (w : World V) (watcher : Nat) : (Bool × Health) × World V :=
  let r := w.watchers.nth watcher
  let o := w.engines.nth r.engine
  let (health, after) := r.look o
  ((r.hasChanged o, health), { w with watchers := w.watchers.put watcher after })

end World

end TwinStore
