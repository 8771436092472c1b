import TwinStore.Program.Request

/-!
# Planned faults

A base store may be given a plan: of the calls it is asked that match the plan, some pass, the next
ones are struck, and later ones pass again. A struck call fails, or is rejected: it answers as if
the store had refused it, where there is such an answer. A struck enumeration may yield some items
first.
-/

namespace TwinStore

/-- What happens to a struck call. -/
inductive Strike where
  /-- The call fails; an enumeration yields some items first, if so many are given. -/
  | fail (cause : StoreError) (after : Option Nat)
  /-- The call is refused. -/
  | reject

/-- Which calls are struck, and how. -/
structure FaultPlan where
  /-- The methods that match; none means that all do. -/
  methods : Option (List String) := none
  /-- How many more matching calls pass. -/
  skip : Nat := 0
  /-- How many more are struck then; none means all. -/
  count : Option Nat := none
  strike : Strike

namespace FaultPlan

/-- The fate of a call, and the plan for the calls after it. -/
def consult (p : FaultPlan) (method : String) : Option Strike × FaultPlan :=
  if p.methods.all (·.contains method) then
    match p.skip, p.count with
    | skip + 1, _ => (none, { p with skip })
    | 0, none => (some p.strike, p)
    | 0, some 0 => (none, p)
    | 0, some (count + 1) => (some p.strike, { p with count := some count })
  else (none, p)

end FaultPlan

variable {V : Type}

/-- The name of an operation of a set. -/
def SetOp.method : SetOp → String
  | add _ => "add"
  | remove _ => "remove"
  | members => "members"
  | contains _ => "contains"
  | count => "len"

/-- The name of a call's operation. -/
def Call.method : Call V → String
  | .map _ op =>
    match op with
    | .add .. => "add"
    | .get _ => "get"
    | .remove _ => "remove"
    | .contains _ => "contains"
    | .keys => "keys"
    | .expire .. => "expire"
    | .expireAt .. => "expire_at"
  | .set _ op => op.method
  | .setMap _ op =>
    match op with
    | .add .. => "add"
    | .get _ => "get"
    | .remove _ => "remove"
    | .contains _ => "contains"
    | .keys => "keys"
    | .reach _ => "get_or_empty"
    | .expire .. => "expire"
    | .expireAt .. => "expire_at"
    | .member _ op => "set_" ++ op.method
  | .queue _ op =>
    match op with
    | .enqueue _ => "enqueue"
    | .dequeue => "dequeue"
    | .count => "len"
    | .take => "take"

/-- What a refused operation of a set answers, if it can be refused. -/
def SetOp.refusal : (op : SetOp) → Option op.Answer
  | .remove _ => some false
  | .contains _ => some false
  | .add _ => none
  | .members => none
  | .count => none

/-- What a refused call answers, if it can be refused. -/
def Call.refusal : (c : Call V) → Option c.Answer
  | .map _ (.add ..) => some false
  | .map _ (.get _) => some none
  | .map _ (.remove _) => some false
  | .map _ (.contains _) => some false
  | .map _ .keys => none
  | .map _ (.expire ..) => some false
  | .map _ (.expireAt ..) => some false
  | .set _ op => op.refusal
  | .setMap _ (.add ..) => some false
  | .setMap _ (.get _) => some false
  | .setMap _ (.remove _) => some false
  | .setMap _ (.contains _) => some false
  | .setMap _ .keys => none
  | .setMap _ (.reach _) => none
  | .setMap _ (.expire ..) => some false
  | .setMap _ (.expireAt ..) => some false
  | .setMap _ (.member _ op) => op.refusal
  | .queue _ .dequeue => some none
  | .queue _ (.enqueue _) => none
  | .queue _ .count => none
  | .queue _ .take => none

/-- An enumeration that fails after so many items. -/
def Listing.failAfter {α : Type} (l : Listing α) (n : Nat) (cause : StoreError) : Listing α :=
  { items := l.items.take n, failure := some cause }

/-- An answer that fails after so many items, if the call is an enumeration. -/
def Call.failAfter (n : Nat) (cause : StoreError) : (c : Call V) → c.Answer → Option c.Answer
  | .map _ .keys, l => some (l.failAfter n cause)
  | .set _ .members, l => some (l.failAfter n cause)
  | .setMap _ .keys, l => some (l.failAfter n cause)
  | .setMap _ (.member _ .members), l => some (l.failAfter n cause)
  | _, _ => none

end TwinStore
