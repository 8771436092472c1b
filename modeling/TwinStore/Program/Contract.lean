import TwinStore.Program.Action

/-!
# Contracts

What a store can do, whoever provides it: a memory store, a pair of stores, a cache before a source.
A contract is a record of actions. Maps, maps of sets, sets and queues each have one; everything
else in the library takes contracts and makes contracts, so that stores nest to any depth.
-/

namespace TwinStore

variable {V α β : Type}

namespace Listing

/-- An enumeration that ended well. -/
def full (items : List α) : Listing α := { items }

/-- All the items, if the enumeration ended well. -/
def collect (l : Listing α) : Action V (List α) :=
  match l.failure with
  | none => pure l.items
  | some e => Action.fail e

end Listing

/-- A set of members. -/
structure SetStore (V : Type) where
  add : String → Token → Action V Unit
  /-- Remove a member; the answer says whether it was there. -/
  remove : String → Token → Action V Bool
  members : Token → Action V (Listing String)
  contains : String → Token → Action V Bool
  count : Token → Action V Nat

/-- All the members, or the failure met while enumerating them. -/
def SetStore.collect (s : SetStore V) (t : Token) : Action V (List String) := do
  (← s.members t).collect

/-- Entries under keys. `canList` and `canExpire` say whether the operations below them may be used
at the moment; unless it says otherwise, a store cannot expire keys. -/
structure KeyedStore (V α : Type) where
  /-- Add an entry; the answer is `false` if there is one already and it may not be overwritten. -/
  add : Key → α → Bool → Token → Action V Bool
  get : Key → Token → Action V (Option α)
  /-- Remove an entry; the answer says whether it was there. -/
  remove : Key → Token → Action V Bool
  contains : Key → Token → Action V Bool
  canList : Prog V Bool
  keys : Token → Action V (Listing Key)
  canExpire : Prog V Bool := pure false
  /-- Let an entry expire after some time; the answer says whether it was there. -/
  expire : Key → Nat → Token → Action V Bool := fun _ _ _ => pure false
  /-- Let an entry expire at an instant; the answer says whether it was there. -/
  expireAt : Key → Nat → Token → Action V Bool := fun _ _ _ => pure false

/-- A map. -/
abbrev MapStore (V : Type) := KeyedStore V V

/-- A map of sets. The set under a key is reached in two steps, so that it can be reached again
without asking any store: `route` finds the way, or `find` if only a set that exists is wanted, and
`follow` takes it. -/
structure SetMapStore (V : Type) extends KeyedStore V (SetStore V) where
  find : Key → Token → Action V (Option Route)
  route : Key → Token → Action V Route
  follow : Key → Route → SetStore V
  get := fun k t => do return (← find k t).map (follow k)

/-- The set under a key, empty if there is none. -/
def SetMapStore.reach (m : SetMapStore V) (k : Key) (t : Token) : Action V (SetStore V) := do
  return m.follow k (← m.route k t)

/-- A queue. -/
structure QueueStore (V : Type) where
  enqueue : V → Token → Action V Unit
  /-- Take the head off; the answer is none if the queue is empty. -/
  dequeue : Token → Action V (Option V)
  count : Token → Action V Nat

/-- A queue that can be waited for. -/
structure BlockingQueue (V : Type) extends QueueStore V where
  /-- Wait for an item; the answer is none if the caller cancels. -/
  take : Token → Action V (Option V)

namespace KeyedStore

/-- Fail unless the store, playing `role`, can list its keys. -/
def requireKeys (m : KeyedStore V α) (role : String) : Action V Unit := do
  if !(← m.canList) then Action.fail (.missingCapability role "KeysMap")

/-- The keys of a store playing `role`. -/
def listAs (m : KeyedStore V α) (role : String) (t : Token) : Action V (Listing Key) := do
  m.requireKeys role
  m.keys t

/-- All the keys of a store playing `role`, or the failure met while enumerating them. -/
def collectKeys (m : KeyedStore V α) (role : String) (t : Token) : Action V (List Key) := do
  (← m.listAs role t).collect

/-- Put a key's expiry some time ahead. A store that cannot expire keys is left alone. -/
def touch (m : KeyedStore V α) (k : Key) (ttl : Nat) (t : Token) : Action V Bool := do
  if ← m.canExpire then m.expire k ttl t else return false

end KeyedStore

/-- The set with the given members, held by nobody else. -/
def SetStore.ofMembers (members : MemberSet) : SetStore V where
  add _ _ := pure ()
  remove x _ := pure (members.contains x)
  members _ := pure (.full members.toList)
  contains x _ := pure (members.contains x)
  count _ := pure members.size

/-! ## Results that say whether a write or a read worked -/

/-- Results of writes: a write may be refused without failing. -/
class WriteOutcome (α : Type) where
  isAccepted : α → Bool

instance : WriteOutcome Bool := ⟨id⟩
instance : WriteOutcome Unit := ⟨fun _ => true⟩

/-- Results of reads: a cache's answer may be nothing worth returning. -/
class CacheProbe (α : Type) where
  isHit : α → Bool

instance : CacheProbe (Option α) := ⟨Option.isSome⟩
instance : CacheProbe Bool := ⟨id⟩
instance : CacheProbe Nat := ⟨fun n => 0 < n⟩
instance : CacheProbe (List α) := ⟨fun l => !l.isEmpty⟩

end TwinStore
