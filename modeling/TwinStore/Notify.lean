import TwinStore.Program.Contract

/-!
# Write notifications

A notifying store forwards every operation to the store within and, once a write has been applied,
hands a description of it to a handler. A write that failed or was refused is not reported. What the
handler makes of it changes nothing for the caller; whether it coped is counted.
-/

namespace TwinStore.Notify

variable {V : Type}

/-- Hand an applied write to a handler. -/
def report (handler : Nat) (kind : NoticeKind) (write : Write V) (t : Token) : Action V Unit := do
  let coped ← Action.ask (.deliver handler write t)
  Action.count (.notifications kind coped)

/-- A map that reports its writes. Expiry is not reported. -/
def map (inner : MapStore V) (handler : Nat) : MapStore V :=
  { inner with
    add := fun k v overwrite t => do
      let added ← inner.add k v overwrite t
      if added then report handler .mapAdded (.entryAdded k v) t
      return added
    remove := fun k t => do
      let removed ← inner.remove k t
      if removed then report handler .mapRemoved (.entryRemoved k) t
      return removed
    keys := fun t => inner.listAs "inner" t }

/-- A set that reports every addition, and each removal of a member that was there; `describe` puts
a write to the set into the handler's terms. -/
def set (inner : SetStore V) (handler : Nat) (describe : MemberWrite → Write V) : SetStore V :=
  { inner with
    add := fun x t => do
      inner.add x t
      report handler .setAdded (describe (.added x)) t
    remove := fun x t => do
      let removed ← inner.remove x t
      if removed then report handler .setRemoved (describe (.removed x)) t
      return removed }

/-- The set under a key of a map of sets, reporting its writes under that key. -/
def setUnder (handler : Nat) (k : Key) (inner : SetStore V) : SetStore V :=
  set inner handler (.setMember k)

/-- A map of sets that reports whole-set writes, and writes to the sets it hands out. -/
def setMap (inner : SetMapStore V) (handler : Nat) : SetMapStore V :=
  { inner with
    add := fun k value overwrite t => do
      let added ← inner.add k value overwrite t
      if added then report handler .setMapAdded (.setAdded k) t
      return added
    get := fun k t => do return (← inner.find k t).map (setUnder handler k ∘ inner.follow k)
    remove := fun k t => do
      let removed ← inner.remove k t
      if removed then report handler .setMapRemoved (.setRemoved k) t
      return removed
    keys := fun t => inner.listAs "inner" t
    follow := fun k route => setUnder handler k (inner.follow k route) }

end TwinStore.Notify
