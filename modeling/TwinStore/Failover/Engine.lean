import TwinStore.Converge.Run

/-!
# Pairs of stores

An `Engine` is a pair of stores of one contract with a health. Operations go through one of three
templates: `fallback` asks the secondary only if the primary fails, `replicate` asks both, and
`backup` asks the secondary too once the primary has accepted a write. The primary's first failure
takes the pair down (`markDown`); its next success brings the primary up to date from the secondary
and takes the pair up again (`recoverIfDown`). Transitions and convergence runs hold the engine's
lock and look at the health again once they hold it, so each change of health happens once.
Ordinary operations never wait for the lock.

An engine derived from another watches over another pair, but shares its health, its lock and its
recovery: whatever pair fails or succeeds, it is the root's primary that is brought up to date.
-/

namespace TwinStore

variable {V H C α : Type}

/-- A pair of stores with a health record, and the recovery that ends an outage. -/
structure Engine (V H : Type) where
  /-- The number of the health record, which derived engines share. -/
  core : Nat
  name : String
  primary : H
  secondary : H
  synchronizer : Synchronizer V H
  /-- Brings the root pair's primary up to date from its secondary. -/
  recovery : Token → Action V Report

namespace Engine

/-- The store on a side of the pair. -/
def storeOn (e : Engine V H) : Side → H
  | .primary => e.primary
  | .secondary => e.secondary

/-- The engine of a pair that is nobody's part: its recovery brings its own primary up to date. -/
def root (core : Nat) (name : String) (primary secondary : H) (synchronizer : Synchronizer V H) :
    Engine V H :=
  { core, name, primary, secondary, synchronizer
    recovery := synchronizer.run secondary primary }

/-- A new pair, up. It is refused if its synchronizer lacks a capability in either direction. -/
def make (name : String) (primary secondary : H) (synchronizer : Synchronizer V H)
    (capacity : Nat) : Action V (Engine V H) := do
  synchronizer.validate primary secondary
  synchronizer.validate secondary primary
  let core ← Action.ask (.newEngine name capacity)
  return .root core name primary secondary synchronizer

/-- An engine over another pair that shares this engine's health and recovery. -/
def derive (e : Engine V H) (primary secondary : C) (synchronizer : Synchronizer V C) :
    Engine V C :=
  { core := e.core, name := e.name, primary, secondary, synchronizer, recovery := e.recovery }

/-! ## Changes of health -/

/-- The health of the pair. -/
def health (e : Engine V H) : Action V Health :=
  Action.ask (.health e.core)

/-- Record a failure of the primary: an up pair goes down. -/
def markDown (e : Engine V H) (cause : StoreError) : Action V Unit := do
  if (← e.health) = .up then
    Action.locked (.engine e.core) do
      if (← e.health) = .up then
        Action.ask (.markDown e.core cause)

/-- After a success of the primary: a down pair recovers and goes up. The recovery is nobody's to
cancel; if it fails the pair stays down. -/
def recoverIfDown (e : Engine V H) : Action V Unit := do
  if (← e.health) = .down then
    Action.locked (.engine e.core) do
      if (← e.health) = .down then
        match ← Action.attempt (e.recovery none) with
        | .ok _ => Action.ask (.markUp e.core)
        | .error cause => Action.fail (.resync cause)

/-- Bring the secondary up to date after it missed a write. A failure is left to later repairs. -/
def repairSecondary (e : Engine V H) : Action V Unit :=
  Action.locked (.engine e.core) do
    let _ ← Action.attempt (e.synchronizer.run e.primary e.secondary none)

/-- Bring one store of the pair up to date from the other. -/
def resync (e : Engine V H) (direction : Direction) (t : Token) : Action V Report :=
  Action.locked (.engine e.core) do
    match direction with
    | .primaryToSecondary => e.synchronizer.run e.primary e.secondary t
    | .secondaryToPrimary => e.synchronizer.run e.secondary e.primary t

/-- Count a failure of the secondary that the caller does not see. -/
def noteSecondaryError (e : Engine V H) : Action V Unit :=
  Action.count (.secondaryErrors e.name)

/-! ## Templates -/

/-- Ask the primary; if it fails, ask the secondary. -/
def fallback (e : Engine V H) (op : H → Action V α) : Action V α := do
  match ← Action.attempt (op e.primary) with
  | .ok a =>
    e.recoverIfDown
    return a
  | .error cause =>
    e.markDown cause
    op e.secondary

/-- Ask both stores; the primary's answer counts, and the secondary's only if the primary fails. -/
def replicate (e : Engine V H) (op : H → Action V α) : Action V α := do
  let primary ← Action.attempt (op e.primary)
  let secondary ← Action.attempt (op e.secondary)
  match primary with
  | .ok a =>
    if let .error _ := secondary then e.noteSecondaryError
    e.recoverIfDown
    return a
  | .error cause =>
    e.markDown cause
    Action.ofExcept secondary

/-- Ask the primary, and the secondary once the primary has accepted. The accepted write reaches the
secondary before any recovery, so that the recovery carries it back; a write that the secondary
missed is repaired. -/
def backup [WriteOutcome α] (e : Engine V H) (op : H → Action V α) : Action V α := do
  match ← Action.attempt (op e.primary) with
  | .error cause =>
    e.markDown cause
    op e.secondary
  | .ok a =>
    if WriteOutcome.isAccepted a then
      let passedOn ← Action.attempt (op e.secondary)
      e.recoverIfDown
      if let .error _ := passedOn then
        e.noteSecondaryError
        e.repairSecondary
    return a

end Engine

end TwinStore
