import TwinStore.Store.Key
import TwinStore.Failover.Health

/-!
# Requests

A program does nothing by itself: it asks. A `Call` is one operation on one base store; a `Request`
is a call or one of the few other things a program may ask of the world around it. `Request.Answer`
says what comes back. A request that has to wait may be cut short, which its answer then says.
-/

namespace TwinStore

/-- The caller whose cancellation a program heeds; none for work that nobody can cancel. -/
abbrev Token := Option Nat

/-- Why a program stopped before its end: a store failed, or the run of the given number was cut
short by its time limit or its caller. -/
inductive Halt where
  | failed (cause : StoreError)
  | cut (run : Nat)

/-! ## Operations of the base stores -/

/-- Operations of a map. -/
inductive MapOp (V : Type) where
  | add (key : Key) (value : V) (overwrite : Bool)
  | get (key : Key)
  | remove (key : Key)
  | contains (key : Key)
  | keys
  | expire (key : Key) (ttl : Nat)
  | expireAt (key : Key) (instant : Nat)

/-- Operations of a set. -/
inductive SetOp where
  | add (member : String)
  | remove (member : String)
  | members
  | contains (member : String)
  | count

/-- Operations of a map of sets. Storing a whole set takes two steps: `add` asks whether the key is
free, and the members follow once they are collected. -/
inductive SetMapOp where
  | add (key : Key) (overwrite : Bool)
  | get (key : Key)
  | remove (key : Key)
  | contains (key : Key)
  | keys
  | reach (key : Key)
  | expire (key : Key) (ttl : Nat)
  | expireAt (key : Key) (instant : Nat)
  | member (key : Key) (op : SetOp)

/-- Operations of a queue. -/
inductive QueueOp (V : Type) where
  | enqueue (item : V)
  | dequeue
  | count
  | take

/-- What an operation of a map answers. -/
@[reducible] def MapOp.Answer {V : Type} : MapOp V → Type
  | .get _ => Option V
  | .keys => Listing Key
  | _ => Bool

/-- What an operation of a set answers. -/
@[reducible] def SetOp.Answer : SetOp → Type
  | .add _ => Unit
  | .members => Listing String
  | .count => Nat
  | _ => Bool

/-- What an operation of a map of sets answers. -/
@[reducible] def SetMapOp.Answer : SetMapOp → Type
  | .keys => Listing Key
  | .reach _ => Unit
  | .member _ op => op.Answer
  | _ => Bool

/-- What an operation of a queue answers. -/
@[reducible] def QueueOp.Answer {V : Type} : QueueOp V → Type
  | .enqueue _ => Unit
  | .count => Nat
  | _ => Option V

/-- One operation on one base store. -/
inductive Call (V : Type) where
  | map (store : Nat) (op : MapOp V)
  | set (store : Nat) (op : SetOp)
  | setMap (store : Nat) (op : SetMapOp)
  | queue (store : Nat) (op : QueueOp V)

/-- What a call answers. -/
@[reducible] def Call.Answer {V : Type} : Call V → Type
  | .map _ op => op.Answer
  | .set _ op => op.Answer
  | .setMap _ op => op.Answer
  | .queue _ op => op.Answer

/-- A base store, named by its kind and its number among the stores of that kind. -/
inductive Site where
  | map (store : Nat)
  | set (store : Nat)
  | setMap (store : Nat)
  | queue (store : Nat)
  deriving DecidableEq

/-- The store a call goes to. -/
def Call.site {V : Type} : Call V → Site
  | .map i _ => .map i
  | .set i _ => .set i
  | .setMap i _ => .setMap i
  | .queue i _ => .queue i

/-! ## Other things a program may ask -/

/-- The optional capabilities of a map. -/
structure Grants where
  keys : Bool := true
  expiry : Bool := true
  deriving DecidableEq, Inhabited

/-- How the set under a key was reached through layers of stores, so that it can be reached the
same way again. -/
inductive Route where
  /-- The one store that there is. -/
  | direct
  /-- Both stores of a pair. -/
  | paired (primary secondary : Route)
  /-- The primary alone. -/
  | primaryOnly (primary : Route)
  /-- The secondary alone. -/
  | secondaryOnly (secondary : Route)
  /-- A cache before a source that is fetched on first use, into the given cell. -/
  | cached (cache : Route) (cell : Nat)
  /-- The source alone, fetched on first use, into the given cell. -/
  | uncached (cell : Nat)
  deriving DecidableEq

/-- A write to one member set. -/
inductive MemberWrite where
  | added (member : String)
  | removed (member : String)
  deriving DecidableEq

/-- A write that has been applied. -/
inductive Write (V : Type) where
  | entryAdded (key : Key) (value : V)
  | entryRemoved (key : Key)
  | member (write : MemberWrite)
  | setAdded (key : Key)
  | setRemoved (key : Key)
  | setMember (key : Key) (write : MemberWrite)

/-- What one program at a time may hold: the transitions of a pair, or the fetching into a cell. -/
inductive Lock where
  | engine (engine : Nat)
  | cell (cell : Nat)
  deriving DecidableEq

/-- What a program may ask. -/
inductive Request (V : Type) where
  /-- An operation on a base store. -/
  | call (c : Call V) (token : Token)
  /-- Put a collected set under a key. -/
  | storeSet (store : Nat) (key : Key) (members : List String)
  /-- The optional capabilities of a base store. -/
  | grants (site : Site)
  /-- Make the health record of a new pair. -/
  | newEngine (name : String) (capacity : Nat)
  /-- The health of a pair. -/
  | health (engine : Nat)
  /-- Take a pair down. -/
  | markDown (engine : Nat) (cause : StoreError)
  /-- Bring a pair up. -/
  | markUp (engine : Nat)
  /-- Wait for a lock. -/
  | acquire (lock : Lock)
  /-- Give a lock back. -/
  | release (lock : Lock)
  /-- Whether a caller has cancelled. -/
  | isCancelled (token : Token)
  /-- Begin a run with a time limit; the answer is its number. -/
  | enter (limit : Nat) (token : Token)
  /-- End the innermost run. -/
  | leave
  /-- Add to a measure. -/
  | count (measure : Measure) (amount : Nat)
  /-- Hand an applied write to a handler; the answer says whether it coped. -/
  | deliver (handler : Nat) (write : Write V) (token : Token)
  /-- Make an empty cell. -/
  | newCell
  /-- Read a cell. -/
  | readCell (cell : Nat)
  /-- Fill a cell. -/
  | fillCell (cell : Nat) (route : Route)
  /-- Whether a store that was handed to others is still in use. -/
  | isInUse (store : Nat)

/-- What comes back. -/
@[reducible] def Request.Answer {V : Type} : Request V → Type
  | .call c _ => Except Halt c.Answer
  | .acquire _ => Except Halt Unit
  | .grants _ => Grants
  | .newEngine _ _ => Nat
  | .health _ => Health
  | .isCancelled _ => Bool
  | .enter _ _ => Nat
  | .deliver _ _ _ => Bool
  | .newCell => Nat
  | .readCell _ => Option Route
  | .isInUse _ => Bool
  | _ => Unit

end TwinStore
