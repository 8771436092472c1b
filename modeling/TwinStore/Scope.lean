import TwinStore.Program.Contract
import TwinStore.Text.Codec

/-!
# Scopes

A scope remembers which keys were put into which maps, so that they can be removed all at once. It
keeps one member per key in a set of its own: the map's identifier, a colon and the key as text. An
identifier holds no colon, so the first colon of a member ends it. `Scope.clear` removes every
recorded key from the map that recorded it and then drops the record; a failure leaves the record
as it was, for the next attempt.
-/

namespace TwinStore

variable {V : Type}

/-! ## Identifiers and members -/

namespace Scope

/-- What ends the identifier in a member. -/
def separator : Char := ':'

/-- Refuse an identifier that is empty or holds the separator; `role` says what it identifies. -/
def checkIdentifier (role identifier : String) : Except StoreError Unit :=
  if identifier.toList.isEmpty then
    .error (.invalidArgument (role ++ " identifier is empty"))
  else if identifier.toList.contains separator then
    .error (.invalidArgument (role ++ " identifier '" ++ identifier ++ "' contains ':'"))
  else .ok ()

/-- The member that records a key of a map. -/
def member (mapId raw : String) : String :=
  mapId ++ String.singleton separator ++ raw

/-- The identifier and the key of a member: what stands before and after its first separator. -/
def split? (text : String) : Option (String × String) :=
  let before := text.toList.takeWhile (· ≠ separator)
  match text.toList.dropWhile (· ≠ separator) with
  | [] => none
  | _ :: after => some (String.ofList before, String.ofList after)

end Scope

/-! ## The record -/

/-- A scope; its members are kept in a map of sets, under its identifier. -/
structure Scope (V : Type) where
  identifier : String
  members : SetMapStore V

/-- A map taking part in a scope: how to remove one of its keys, given as text. -/
structure Participant (V : Type) where
  mapId : String
  /-- Whether the map still takes part. -/
  takesPart : Prog V Bool := pure true
  remove : String → Token → Action V Bool

namespace Scope

/-- A new scope. -/
def make (identifier : String) (members : SetMapStore V) : Except StoreError (Scope V) := do
  checkIdentifier "scope" identifier
  return { identifier, members }

/-- Refuse a map whose identifier is unusable or taken. -/
def checkMap (s : Scope V) (taken : List String) (mapId : String) : Except StoreError Unit := do
  checkIdentifier "map" mapId
  if taken.contains mapId then
    throw (.invalidArgument
      ("map '" ++ mapId ++ "' is already registered in scope '" ++ s.identifier ++ "'"))

/-- The set of the scope's members. -/
def record (s : Scope V) (t : Token) : Action V (SetStore V) :=
  s.members.reach (.text s.identifier) t

/-- Record a key. -/
def addKey (s : Scope V) (mapId raw : String) (t : Token) : Action V Unit := do
  (← s.record t).add (member mapId raw) t

/-- Forget a key; the answer says whether it was recorded. -/
def removeKey (s : Scope V) (mapId raw : String) (t : Token) : Action V Bool := do
  (← s.record t).remove (member mapId raw) t

/-- The number of recorded keys. -/
def count (s : Scope V) (t : Token) : Action V Nat := do
  (← s.record t).count t

/-- Remove the key that a member records; the answer says whether it was there. A malformed member,
or one of a map that takes part no more, is passed over. -/
def removeRecorded (participants : List (Participant V)) (t : Token) (text : String) :
    Action V Bool :=
  match split? text with
  | none => return false
  | some (mapId, raw) =>
    match participants.find? (·.mapId = mapId) with
    | none => return false
    | some p => do if ← p.takesPart then p.remove raw t else return false

/-- Remove the keys that members record, counting those that were there. -/
def removeAll (participants : List (Participant V)) (t : Token) : List String → Nat → Action V Nat
  | [], removed => return removed
  | text :: rest, removed => do
    let wasThere ← removeRecorded participants t text
    removeAll participants t rest (if wasThere then removed + 1 else removed)

/-- Remove every recorded key from its map and drop the record; the answer is the number of keys
that were there. -/
def clear (s : Scope V) (participants : List (Participant V)) (t : Token) : Action V Nat := do
  let recorded ← (← s.record t).collect t
  let removed ← removeAll participants t recorded 0
  let _ ← s.members.remove (.text s.identifier) t
  Action.count (.scopeClears s.identifier)
  Action.count (.scopeRemovedKeys s.identifier) removed
  return removed

end Scope

/-! ## Maps that record their keys -/

/-- What a recording map needs: its scope, its identifier there, and how its keys are written. -/
structure Enrolment (V : Type) where
  scope : Scope V
  mapId : String
  serializer : KeySerializer

namespace Enrolment

variable {α : Type}

/-- A key as it is recorded, or the reason why it cannot be. -/
def raw (e : Enrolment V) (k : Key) : Action V String :=
  Action.ofExcept (e.serializer.encode k)

/-- Take part in the scope by removing keys from `inner`. -/
def participant (e : Enrolment V) (inner : KeyedStore V α) : Participant V where
  mapId := e.mapId
  remove raw t := do
    inner.remove (← Action.ofExcept (e.serializer.decode raw)) t

/-- The map within, recording what is added and forgetting what is removed. A key that cannot be
written is refused before the map is asked. -/
def keyed (e : Enrolment V) (inner : KeyedStore V α) : KeyedStore V α :=
  { inner with
    add := fun k v overwrite t => do
      let raw ← e.raw k
      let added ← inner.add k v overwrite t
      if added then e.scope.addKey e.mapId raw t
      return added
    remove := fun k t => do
      let raw ← e.raw k
      let removed ← inner.remove k t
      if removed then
        let _ ← e.scope.removeKey e.mapId raw t
      return removed
    keys := fun t => inner.listAs "inner" t }

/-- The set under a key, recording the key whenever a member is added. -/
def setUnder (e : Enrolment V) (k : Key) (inner : SetStore V) : SetStore V :=
  { inner with
    add := fun x t => do
      inner.add x t
      e.scope.addKey e.mapId (← e.raw k) t }

/-- A map that records its keys. -/
def map (e : Enrolment V) (inner : MapStore V) : MapStore V :=
  e.keyed inner

/-- A map of sets that records its keys, also when a member is added to a set it handed out. -/
def setMap (e : Enrolment V) (inner : SetMapStore V) : SetMapStore V :=
  { e.keyed inner.toKeyedStore with
    get := fun k t => do
      let _ ← e.raw k
      return (← inner.find k t).map (e.setUnder k ∘ inner.follow k)
    find := fun k t => do
      let _ ← e.raw k
      inner.find k t
    route := fun k t => do
      let _ ← e.raw k
      inner.route k t
    follow := fun k route => e.setUnder k (inner.follow k route) }

end Enrolment

end TwinStore
