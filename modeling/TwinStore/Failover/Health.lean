import TwinStore.Store.Error
import TwinStore.Store.Measure

/-!
# Health and outages

A pair of stores is up or down. Its primary's first failure takes it down and is announced by
`primaryFailed` and `masterDown`; the recovery that ends the outage is announced by
`masterRecovered`. An `Outlook` is the health of one pair with all that has been announced about
it; a `Receiver` reads those announcements from the point where it joined, and may lag behind a
bounded buffer.
-/

namespace TwinStore

/-- Whether the primary of a pair can be relied upon. -/
inductive Health where
  | up
  | down
  deriving DecidableEq, Inhabited

/-- An announcement about a pair. -/
inductive Event where
  | primaryFailed (cause : StoreError)
  | masterDown
  | masterRecovered
  deriving DecidableEq

/-- Which step of an outage an announcement belongs to. -/
def Event.kind : Event → EventKind
  | primaryFailed _ => .primaryFailed
  | masterDown => .masterDown
  | masterRecovered => .masterRecovered

/-- The two stores of a pair. -/
inductive Side where
  | primary
  | secondary
  deriving DecidableEq

/-- Which store of a pair is brought up to date. -/
inductive Direction where
  | primaryToSecondary
  | secondaryToPrimary
  deriving DecidableEq

/-- The health of a pair, how often it was set, and the announcements so far. -/
structure Outlook where
  name : String := ""
  health : Health := .up
  revision : Nat := 0
  events : List Event := []
  buffer : Nat := 1
  deriving Inhabited

namespace Outlook

/-- The least power of two that is at least `n`. -/
def bufferFor (n : Nat) : Nat :=
  (List.range 64).foldl (fun size _ => if size < n then 2 * size else size) 1

/-- A new pair is up. -/
def make (name : String) (capacity : Nat) : Outlook :=
  { name, buffer := bufferFor capacity }

/-- The primary has failed: the pair is down, announced with the cause. -/
def fail (o : Outlook) (cause : StoreError) : Outlook :=
  { o with
    health := .down
    revision := o.revision + 1
    events := o.events ++ [.primaryFailed cause, .masterDown] }

/-- The primary is up to date again. -/
def recover (o : Outlook) : Outlook :=
  { o with health := .up, revision := o.revision + 1, events := o.events ++ [.masterRecovered] }

end Outlook

/-- What a receiver reads: announcements, after the number of those it missed. -/
inductive Reading where
  | lagged (missed : Nat)
  | event (e : Event)

/-- A reader of announcements: those before `position` are behind it. -/
structure Receiver where
  engine : Nat
  position : Nat
  deriving Inhabited

namespace Receiver

/-- All that is waiting for the receiver: of more than the buffer holds, the oldest are lost. -/
def drain (r : Receiver) (o : Outlook) : List Reading × Receiver :=
  let waiting := o.events.drop r.position
  let missed := waiting.length - o.buffer
  let kept := (waiting.drop missed).map Reading.event
  (if missed = 0 then kept else .lagged missed :: kept, { r with position := o.events.length })

end Receiver

/-- A reader of the health of a pair, which remembers how often it had been set at its last look. -/
structure Watcher where
  engine : Nat
  seen : Nat
  deriving Inhabited

namespace Watcher

/-- Whether the health has been set since the last look. -/
def hasChanged (w : Watcher) (o : Outlook) : Bool :=
  w.seen ≠ o.revision

/-- Look. -/
def look (w : Watcher) (o : Outlook) : Health × Watcher :=
  (o.health, { w with seen := o.revision })

end Watcher

end TwinStore
