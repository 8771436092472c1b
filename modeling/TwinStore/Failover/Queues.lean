import TwinStore.Failover.Engine
import TwinStore.Converge.Items

/-!
# Pairs of queues

A fallback queue uses its secondary only while its primary fails, so the recovery moves the
secondary's items into the primary. A replicated queue keeps both queues equal, so the recovery
copies the secondary over the primary. The head of a stale primary must not be delivered: a dequeue
from a replicated queue that is down first reads a length, so that a recovery takes place before
anything is taken off either queue.
-/

namespace TwinStore.Engine

variable {V : Type}

/-- Every operation goes to the primary, and to the secondary if the primary fails. -/
def fallbackQueue (e : Engine V (QueueStore V)) : QueueStore V where
  enqueue v t := e.fallback fun q => q.enqueue v t
  dequeue t := e.fallback fun q => q.dequeue t
  count t := e.fallback fun q => q.count t

/-- Let a pair that is down recover, if its primary answers. -/
def catchUp (e : Engine V (BlockingQueue V)) (t : Token) : Action V Unit := do
  if (← e.health) = .down then
    let _ ← e.fallback fun q => q.count t

/-- Wait for an item of the primary, or of the secondary while the primary is down, and drop the
matching head of the secondary. -/
def takeBoth (e : Engine V (BlockingQueue V)) (t : Token) : Action V (Option V) := do
  e.catchUp t
  let item ← e.fallback fun q => q.take t
  if item.isSome && (← e.health) == .up then
    if let .error _ ← Action.attempt (e.secondary.dequeue t) then e.noteSecondaryError
  return item

/-- Items enter and leave both queues. -/
def replicatedQueue (e : Engine V (BlockingQueue V)) : BlockingQueue V where
  enqueue v t := e.replicate fun q => q.enqueue v t
  dequeue t := do
    e.catchUp t
    e.replicate fun q => q.dequeue t
  count t := e.fallback fun q => q.count t
  take t := e.takeBoth t

end TwinStore.Engine
