import TwinStore.Converge.Run

/-!
# Bringing a queue to a queue

`moveWalk` empties the source into the target. `duplicateWalk` makes the target an ordered copy of
the source: the target is emptied, then each item of the source is taken off its head, put back at
its tail and put into the target. An item leaves a queue before it enters another, and a duplicated
item returns to the source first.
-/

namespace TwinStore.Converge

variable {V : Type}

/-- How many rounds a walk over a queue may take. A queue counts its items in 64 bits, so a walk
that takes an item off in every round ends before that. -/
def roundLimit : Nat := 0x10000000000000000

/-- Move items, at most as many as told, until the source is empty. -/
def moveItems (source target : QueueStore V) (t : Token) : Nat → Walk V Unit
  | 0 => pure ()
  | rounds + 1 => do
    if 0 < (← source.count t) then
      match ← source.dequeue t with
      | some v =>
        target.enqueue v t
        Walk.wrote
        moveItems source target t rounds
      | none => pure ()
    else pure ()

/-- Empty the source into the target. -/
def moveWalk (source target : QueueStore V) (t : Token) : Walk V Unit :=
  moveItems source target t roundLimit

/-- Take items off, at most as many as told, until the queue is empty. -/
def discardItems (target : QueueStore V) (t : Token) : Nat → Walk V Unit
  | 0 => pure ()
  | rounds + 1 => do
    match ← target.dequeue t with
    | some _ =>
      Walk.removed
      discardItems target t rounds
    | none => pure ()

/-- Rotate the source by so many items, putting each into the target too. -/
def rotateItems (source target : QueueStore V) (t : Token) : Nat → Walk V Unit
  | 0 => pure ()
  | rounds + 1 => do
    match ← source.dequeue t with
    | some v =>
      source.enqueue v t
      target.enqueue v t
      Walk.wrote
      rotateItems source target t rounds
    | none => pure ()

/-- Make the target an ordered copy of the source. -/
def duplicateWalk (source target : QueueStore V) (t : Token) : Walk V Unit := do
  discardItems target t roundLimit
  rotateItems source target t (← source.count t)

/-- The synchronizer that empties the source into the target. -/
def queueCopy (limit : Nat) : Synchronizer V (QueueStore V) where
  name := "queue_copy"
  limit := limit
  validate _ _ := pure ()
  walk := moveWalk

/-- The synchronizer that makes the target a copy of the source. -/
def queueDuplicate (limit : Nat) : Synchronizer V (QueueStore V) where
  name := "queue_mirror"
  limit := limit
  validate _ _ := pure ()
  walk := duplicateWalk

end TwinStore.Converge
