import TwinStore.Program.Contract

/-!
# Convergence runs

A convergence run brings a target store to a source store. It counts what it writes and removes as
it goes, so that a run that is cut short, by its time limit or by its caller, still reports how far
it came: being cut short is no failure. `drive` bounds one run; a `Synchronizer` is a walk over two
stores with the capabilities it needs and its time limit.
-/

namespace TwinStore

variable {V H K α : Type}

/-- How many items of the target a run has written and removed. -/
structure Tally where
  written : Nat := 0
  removed : Nat := 0
  deriving DecidableEq

/-- What a run did, and whether it was cut short. -/
structure Report extends Tally where
  timedOut : Bool
  deriving DecidableEq

/-- The work of a run: an action that keeps count, also of what it did before it halted. -/
abbrev Walk (V : Type) := ExceptT Halt (StateT Tally (Prog V))

namespace Walk

instance : MonadLift (Action V) (Walk V) :=
  ⟨fun a => ExceptT.mk (StateT.lift a.run)⟩

/-- One more item written. -/
def wrote : Walk V Unit :=
  modify fun n => { n with written := n.written + 1 }

/-- One more item removed. -/
def removed : Walk V Unit :=
  modify fun n => { n with removed := n.removed + 1 }

/-- Remove an item, counting it if it was there. -/
def removing (remove : Action V Bool) : Walk V Unit := do
  if ← remove then removed

/-- Fail if an enumeration ended early. -/
def close (l : Listing α) : Walk V Unit :=
  match l.failure with
  | none => pure ()
  | some e => throw (.failed e)

/-- Do something for each item in turn. -/
def each (items : List α) (f : α → Walk V Unit) : Walk V Unit :=
  match items with
  | [] => pure ()
  | a :: rest => do
    f a
    each rest f

end Walk

namespace Report

/-- Record the end of a run, and report it. -/
def conclude (name : String) (tally : Tally) (timedOut : Bool) : Action V Report := do
  Action.count (.itemsWritten name) tally.written
  Action.count (.itemsRemoved name) tally.removed
  Action.count (.runs name (if timedOut then .timeout else .success))
  Action.count (.runTimings name)
  return { tally with timedOut }

end Report

/-- Run a walk until it ends, its time limit comes or its caller cancels. A walk whose caller has
cancelled already does not begin. Only a failure of a store is a failure of the run. -/
def drive (name : String) (limit : Nat) (t : Token) (walk : Walk V Unit) : Action V Report := do
  if ← Action.ask (.isCancelled t) then
    Report.conclude name {} true
  else
    let run ← Action.ask (.enter limit t)
    let (result, tally) ← ExceptT.lift (walk.run.run {})
    Action.ask .leave
    match result with
    | .ok () => Report.conclude name tally false
    | .error (.failed e) =>
      Action.count (.runs name .failure)
      Action.count (.runTimings name)
      Action.fail e
    | .error (.cut r) =>
      if r = run then
        Report.conclude name tally true
      else
        Action.count (.runTimings name)
        throw (.cut r)

/-- A way to bring a target to a source. -/
structure Synchronizer (V H : Type) where
  name : String
  /-- The time limit of a run. -/
  limit : Nat
  /-- Fails unless source and target have the capabilities the walk needs. -/
  validate : H → H → Action V Unit
  walk : H → H → Token → Walk V Unit

namespace Synchronizer

/-- One run, from source to target. -/
def run (s : Synchronizer V H) (source target : H) (t : Token) : Action V Report := do
  s.validate source target
  drive s.name s.limit t (s.walk source target t)

/-- The synchronizer for all stores that can be seen as stores of its own kind. -/
def contramap (s : Synchronizer V H) (view : K → H) : Synchronizer V K where
  name := s.name
  limit := s.limit
  validate source target := s.validate (view source) (view target)
  walk source target t := s.walk (view source) (view target) t

/-- The time limit of a run unless another is given: half a minute. -/
def defaultLimit : Nat := 30000

end Synchronizer

end TwinStore
