import TwinStore.Failover.Stores
import TwinStore.Proofs.Regime

/-!
# Programs with marked runs

The templates of a pair start convergence runs: a recovery, a repair of the secondary, a run that
somebody asked for. In a program these are requests like all others. A `Marked` program is one in
which each such run is marked with what it is for, so that statements can speak of the runs that
took place. `Marked.erase` forgets the marks, and the marked templates are the templates once their
marks are forgotten (`erase_markedBackup` and its likes): nothing else about them differs.

`Marked.perform` runs a marked program alone and keeps a journal: a `Span` for each convergence run,
with the worlds it began and ended in. The journal is beside the point for everything else
(`run_erase`).
-/

namespace TwinStore

variable {V α β : Type}

/-- What a convergence run of a pair is for. -/
inductive RunKind where
  /-- To bring the primary up to date at the end of an outage. -/
  | recovery
  /-- To bring the secondary up to date after it missed a write. -/
  | repair
  /-- Somebody asked for it. -/
  | manual (direction : Direction)
  deriving DecidableEq

/-- A convergence run that took place between two states of `S`. -/
structure Span (S : Type) where
  kind : RunKind
  start : S
  outcome : Except Halt Report
  finish : S

/-- A run, seen through a view of its states. -/
def Span.map {S T : Type} (f : S → T) (s : Span S) : Span T :=
  { s with start := f s.start, finish := f s.finish }

/-- A program in which convergence runs are marked. -/
inductive Marked (V α : Type) : Type where
  | ret (a : α)
  | ask (r : Request V) (next : r.Answer → Marked V α)
  | run (kind : RunKind) (body : Action V Report) (next : Except Halt Report → Marked V α)

namespace Marked

/-- One program after another. -/
def bind : Marked V α → (α → Marked V β) → Marked V β
  | ret a, f => f a
  | ask r next, f => ask r fun a => (next a).bind f
  | run kind body next, f => run kind body fun r => (next r).bind f

instance : Monad (Marked V) where
  pure := ret
  bind := bind

/-- A program without marks. -/
def ofProg : Prog V α → Marked V α
  | .ret a => ret a
  | .ask r next => ask r fun a => ofProg (next a)

theorem ofProg_bind (p : Prog V α) (f : α → Prog V β) :
    ofProg (p >>= f) = ofProg p >>= fun a => ofProg (f a) := by
  induction p with
  | ret a => rfl
  | ask r next ih => exact congrArg (ask r) (funext ih)

/-- Forget the marks. -/
def erase : Marked V α → Prog V α
  | ret a => .ret a
  | ask r next => .ask r fun a => (next a).erase
  | run _ body next => body.run >>= fun r => (next r).erase

@[simp] theorem erase_ofProg (p : Prog V α) : (ofProg p).erase = p := by
  induction p with
  | ret a => rfl
  | ask r next ih => simp only [ofProg, erase, ih]

@[simp] theorem erase_bind (m : Marked V α) (f : α → Marked V β) :
    (m >>= f).erase = m.erase >>= fun a => (f a).erase := by
  induction m with
  | ret a => rfl
  | ask r next ih => exact congrArg (Prog.ask r) (funext ih)
  | run kind body next ih =>
    change (body.run >>= fun r => (next r >>= f).erase) =
      (body.run >>= fun r => (next r).erase) >>= fun a => (f a).erase
    rw [bind_assoc]
    exact congrArg _ (funext ih)

/-- Run a program alone, keeping a journal of its convergence runs. -/
def perform (g : Regime V) : Marked V α → World V → α × List (Span (World V)) × World V
  | ret a, w => (a, [], w)
  | ask r next, w => (next (g.answer r w).1).perform g (g.answer r w).2
  | run kind body next, w =>
    let out := g.act w body
    let rest := (next out.1).perform g out.2
    (rest.1, { kind, start := w, outcome := out.1, finish := out.2 } :: rest.2.1, rest.2.2)

@[simp] theorem perform_pure (g : Regime V) (a : α) (w : World V) :
    (pure a : Marked V α).perform g w = (a, [], w) := rfl

theorem perform_bind (g : Regime V) (m : Marked V α) (f : α → Marked V β) (w : World V) :
    (m >>= f).perform g w =
      let out := m.perform g w
      let rest := (f out.1).perform g out.2.2
      (rest.1, out.2.1 ++ rest.2.1, rest.2.2) := by
  induction m generalizing w with
  | ret a => rfl
  | ask r next ih => exact ih _ _
  | run kind body next ih =>
    change (let out := g.act w body
      let rest := (next out.1 >>= f).perform g out.2
      (rest.1, _ :: rest.2.1, rest.2.2)) = _
    simp only [ih]
    rfl

theorem perform_ofProg (g : Regime V) (p : Prog V α) (w : World V) :
    (ofProg p).perform g w = ((g.run w p).1, [], (g.run w p).2) := by
  induction p generalizing w with
  | ret a => rfl
  | ask r next ih => exact ih _ _

/-- Marks change nothing about what a program does. -/
theorem run_erase (g : Regime V) (m : Marked V α) (w : World V) :
    g.run w m.erase = ((m.perform g w).1, (m.perform g w).2.2) := by
  induction m generalizing w with
  | ret a => rfl
  | ask r next ih => exact ih _ _
  | run kind body next ih =>
    simp only [erase, Regime.run_bind]
    exact ih _ _

end Marked

/-! ## Marked actions -/

/-- A marked program that may halt before its end. -/
abbrev MarkedAction (V : Type) := ExceptT Halt (Marked V)

namespace MarkedAction

/-- An action without marks. -/
def ofAction (a : Action V α) : MarkedAction V α :=
  ExceptT.mk (Marked.ofProg a.run)

instance : MonadLift (Action V) (MarkedAction V) := ⟨ofAction⟩

/-- A convergence run, marked. -/
def run (kind : RunKind) (body : Action V Report) : MarkedAction V Report :=
  ExceptT.mk (Marked.run kind body .ret)

/-- Turn a failure into a value, as `Action.attempt` does. -/
def attempt (a : MarkedAction V α) : MarkedAction V (Except StoreError α) :=
  ExceptT.mk do
    match ← ExceptT.run a with
    | .ok x => pure (.ok (.ok x))
    | .error (.failed e) => pure (.ok (.error e))
    | .error (.cut run) => pure (.error (.cut run))

/-- What an attempt makes of the end of an action. -/
def attempted : Except Halt α → Except Halt (Except StoreError α)
  | .ok x => .ok (.ok x)
  | .error (.failed e) => .ok (.error e)
  | .error (.cut run) => .error (.cut run)

/-- What failed is what an attempt turns into a value. -/
theorem attempted_mapError (r : Except StoreError α) :
    attempted (r.mapError Halt.failed) = .ok r := by
  cases r <;> rfl

theorem run_attempt (a : MarkedAction V α) :
    ExceptT.run a.attempt = ExceptT.run a >>= fun r => Marked.ret (attempted r) := by
  refine congrArg (ExceptT.run a >>= ·) (funext fun r => ?_)
  rcases r with (_ | _) | _ <;> rfl

/-- Hold a lock while `body` runs, as `Action.locked` does. -/
def locked (lock : Lock) (body : MarkedAction V α) : MarkedAction V α := do
  Action.acquire (V := V) lock
  ExceptT.mk do
    let result ← ExceptT.run body
    Marked.ofProg (Prog.request (.release lock))
    pure result

theorem lift_bind (a : Action V α) (f : α → Action V β) :
    (liftM (a >>= f) : MarkedAction V β) = liftM a >>= fun x => liftM (f x) := by
  refine (Marked.ofProg_bind a.run (ExceptT.bindCont f)).trans ?_
  refine congrArg (Marked.ofProg a.run >>= ·) (funext fun r => ?_)
  cases r <;> rfl

theorem lift_locked (lock : Lock) (body : Action V α) :
    (liftM (Action.locked lock body) : MarkedAction V α) = locked lock (liftM body) := by
  unfold Action.locked locked
  rw [lift_bind]
  refine congrArg (liftM (Action.acquire lock) >>= ·) (funext fun _ => ?_)
  exact Marked.ofProg_bind body.run _

/-- Forget the marks. -/
def erase (a : MarkedAction V α) : Action V α :=
  ExceptT.mk (Marked.erase (ExceptT.run a))

@[simp] theorem erase_pure (x : α) : erase (pure x : MarkedAction V α) = pure x := rfl

@[simp] theorem erase_lift (a : Action V α) : erase (liftM a : MarkedAction V α) = a :=
  Marked.erase_ofProg a.run

@[simp] theorem erase_run (kind : RunKind) (body : Action V Report) :
    (run kind body).erase = body :=
  Prog.bind_ret body.run

@[simp] theorem erase_bind (a : MarkedAction V α) (f : α → MarkedAction V β) :
    erase (a >>= f) = a.erase >>= fun x => (f x).erase := by
  refine (Marked.erase_bind (ExceptT.run a) (ExceptT.bindCont f)).trans ?_
  refine congrArg (Marked.erase (ExceptT.run a) >>= ·) (funext fun r => ?_)
  cases r <;> rfl

@[simp] theorem erase_attempt (a : MarkedAction V α) : a.attempt.erase = a.erase.attempt := by
  refine (Marked.erase_bind (ExceptT.run a) _).trans ?_
  refine congrArg (Marked.erase (ExceptT.run a) >>= ·) (funext fun r => ?_)
  rcases r with (_ | _) | _ <;> rfl

@[simp] theorem erase_locked (lock : Lock) (body : MarkedAction V α) :
    (locked lock body).erase = Action.locked lock body.erase := by
  unfold locked Action.locked
  rw [erase_bind, erase_lift]
  refine congrArg (Action.acquire lock >>= ·) (funext fun _ => ?_)
  exact (Marked.erase_bind (ExceptT.run body) _)

/-! ### What they end with -/

variable {g : Regime V} {w : World V}

/-- Run a marked action alone, keeping a journal of its convergence runs. -/
def perform (g : Regime V) (w : World V) (a : MarkedAction V α) :
    Except Halt α × List (Span (World V)) × World V :=
  Marked.perform g (ExceptT.run a) w

/-- Marks change nothing about what an action does. -/
theorem act_erase (g : Regime V) (w : World V) (a : MarkedAction V α) :
    g.act w a.erase = ((a.perform g w).1, (a.perform g w).2.2) :=
  Marked.run_erase g (ExceptT.run a) w

/-- What holds of all that a marked action ends with, and of its journal. -/
def wp (g : Regime V) (a : MarkedAction V α)
    (post : Except Halt α → List (Span (World V)) → World V → Prop) (w : World V) : Prop :=
  post (a.perform g w).1 (a.perform g w).2.1 (a.perform g w).2.2

theorem wp_mono {a : MarkedAction V α}
    {post post' : Except Halt α → List (Span (World V)) → World V → Prop}
    (h : a.wp g post w) (hp : ∀ r js w', post r js w' → post' r js w') : a.wp g post' w :=
  hp _ _ _ h

@[simp] theorem wp_pure (x : α)
    (post : Except Halt α → List (Span (World V)) → World V → Prop) :
    wp g (pure x) post w ↔ post (.ok x) [] w := Iff.rfl

/-- What holds of all that a marked action ends with, if another follows when it ends well. -/
def andThen (g : Regime V) (f : α → MarkedAction V β)
    (post : Except Halt β → List (Span (World V)) → World V → Prop) :
    Except Halt α → List (Span (World V)) → World V → Prop
  | .ok x, js, w => (f x).wp g (fun r js' w' => post r (js ++ js') w') w
  | .error h, js, w => post (.error h) js w

@[simp] theorem andThen_ok (f : α → MarkedAction V β) (x : α) (js : List (Span (World V)))
    (post : Except Halt β → List (Span (World V)) → World V → Prop) :
    andThen g f post (.ok x) js w ↔ (f x).wp g (fun r js' w' => post r (js ++ js') w') w := Iff.rfl

@[simp] theorem andThen_error (f : α → MarkedAction V β) (h : Halt) (js : List (Span (World V)))
    (post : Except Halt β → List (Span (World V)) → World V → Prop) :
    andThen g f post (.error h) js w ↔ post (.error h) js w := Iff.rfl

theorem wp_bind (a : MarkedAction V α) (f : α → MarkedAction V β)
    (post : Except Halt β → List (Span (World V)) → World V → Prop) :
    wp g (a >>= f) post w ↔ a.wp g (andThen g f post) w := by
  have h := Marked.perform_bind g (ExceptT.run a) (ExceptT.bindCont f) w
  unfold wp perform
  rw [show ExceptT.run (a >>= f) = ExceptT.run a >>= ExceptT.bindCont f from rfl, h]
  generalize Marked.perform g (ExceptT.run a) w = out
  obtain ⟨_ | _, js, w'⟩ := out
  · simp [andThen, ExceptT.bindCont]
  · rfl

@[simp] theorem wp_lift (a : Action V α)
    (post : Except Halt α → List (Span (World V)) → World V → Prop) :
    wp g (liftM a) post w ↔ a.wp g (fun r w' => post r [] w') w := by
  have h : perform g w (liftM a) = ((g.act w a).1, [], (g.act w a).2) :=
    Marked.perform_ofProg g a.run w
  rw [wp, h]
  rfl

/-- Without marks an action ends the same way. -/
theorem wp_erase (a : MarkedAction V α) (post : Except Halt α → World V → Prop) :
    a.erase.wp g post w ↔ a.wp g (fun r _ w' => post r w') w := by
  rw [Action.wp, act_erase]
  rfl

@[simp] theorem wp_run (kind : RunKind) (body : Action V Report)
    (post : Except Halt Report → List (Span (World V)) → World V → Prop) :
    wp g (run kind body) post w ↔
      body.wp g (fun r w' => post r [{ kind, start := w, outcome := r, finish := w' }] w') w :=
  Iff.rfl

theorem wp_attempt (a : MarkedAction V α)
    (post : Except Halt (Except StoreError α) → List (Span (World V)) → World V → Prop) :
    wp g a.attempt post w ↔ a.wp g (fun r js w' => post (attempted r) js w') w := by
  have h := Marked.perform_bind g (ExceptT.run a) (fun r => Marked.ret (attempted r)) w
  unfold wp perform
  rw [run_attempt, h]
  simp [Marked.perform]

theorem wp_locked (lock : Lock) (a : MarkedAction V α)
    (post : Except Halt α → List (Span (World V)) → World V → Prop) :
    wp g (locked lock a) post w ↔ a.wp g post w := by
  have h := Marked.perform_bind g (ExceptT.run a) (fun r =>
    Marked.ofProg (Prog.request (.release lock)) >>= fun _ => Marked.ret r) w
  have e : perform g w (locked lock a) = Marked.perform g (ExceptT.run a >>= fun r =>
    Marked.ofProg (Prog.request (.release lock)) >>= fun _ => Marked.ret r) w := rfl
  unfold wp
  rw [e, h]
  simp [Marked.perform_bind, Marked.perform_ofProg, Marked.perform, perform, Prog.request,
    Regime.answer, World.answer]

end MarkedAction

/-- Without marks an attempt ends the same way. -/
theorem Action.wp_attempt {g : Regime V} {w : World V} (a : Action V α)
    (post : Except Halt (Except StoreError α) → World V → Prop) :
    a.attempt.wp g post w ↔ a.wp g (fun r w' => post (MarkedAction.attempted r) w') w := by
  have h : g.act w a.attempt = (MarkedAction.attempted (g.act w a).1, (g.act w a).2) := by
    refine (Regime.run_bind g w a.run _).trans ?_
    rw [show g.run w a.run = g.act w a from rfl]
    obtain ⟨(_ | _) | _, w'⟩ := g.act w a <;> rfl
  rw [wp, wp, h]

/-! ## Marked templates -/

namespace Engine

variable {H : Type}

/-- `Engine.recoverIfDown`, its recovery marked. -/
def markedRecoverIfDown (e : Engine V H) : MarkedAction V Unit := do
  if (← e.health) = .down then
    MarkedAction.locked (.engine e.core) do
      if (← e.health) = .down then
        match ← (MarkedAction.run .recovery (e.recovery none)).attempt with
        | .ok _ => (Action.ask (.markUp e.core) : Action V Unit)
        | .error cause => Action.fail (V := V) (.resync cause)

/-- `Engine.repairSecondary`, its run marked. -/
def markedRepairSecondary (e : Engine V H) : MarkedAction V Unit :=
  MarkedAction.locked (.engine e.core) do
    let _ ← (MarkedAction.run .repair (e.synchronizer.run e.primary e.secondary none)).attempt

/-- `Engine.resync`, its run marked. -/
def markedResync (e : Engine V H) (direction : Direction) (t : Token) : MarkedAction V Report :=
  MarkedAction.locked (.engine e.core) do
    MarkedAction.run (.manual direction) <|
      match direction with
      | .primaryToSecondary => e.synchronizer.run e.primary e.secondary t
      | .secondaryToPrimary => e.synchronizer.run e.secondary e.primary t

/-- `Engine.fallback`, its runs marked, for an operation that may make runs of its own. -/
def markedFallback (e : Engine V H) (op : H → MarkedAction V α) : MarkedAction V α := do
  match ← (op e.primary).attempt with
  | .ok a =>
    e.markedRecoverIfDown
    return a
  | .error cause =>
    e.markDown cause
    op e.secondary

/-- `Engine.replicate`, its runs marked. -/
def markedReplicate (e : Engine V H) (op : H → MarkedAction V α) : MarkedAction V α := do
  let primary ← (op e.primary).attempt
  let secondary ← (op e.secondary).attempt
  match primary with
  | .ok a =>
    if let .error _ := secondary then e.noteSecondaryError
    e.markedRecoverIfDown
    return a
  | .error cause =>
    e.markDown cause
    Action.ofExcept (V := V) secondary

/-- `Engine.backup`, its runs marked. -/
def markedBackup [WriteOutcome α] (e : Engine V H) (op : H → MarkedAction V α) :
    MarkedAction V α := do
  match ← (op e.primary).attempt with
  | .error cause =>
    e.markDown cause
    op e.secondary
  | .ok a =>
    if WriteOutcome.isAccepted a then
      let passedOn ← (op e.secondary).attempt
      e.markedRecoverIfDown
      if let .error _ := passedOn then
        e.noteSecondaryError
        e.markedRepairSecondary
    return a

theorem erase_markedRecoverIfDown (e : Engine V H) :
    e.markedRecoverIfDown.erase = e.recoverIfDown := by
  unfold markedRecoverIfDown recoverIfDown
  simp only [MarkedAction.erase_bind, MarkedAction.erase_lift]
  refine congrArg (e.health >>= ·) (funext fun h => ?_)
  split
  · rw [MarkedAction.erase_locked, MarkedAction.erase_bind, MarkedAction.erase_lift]
    refine congrArg (Action.locked _ <| e.health >>= ·) (funext fun h => ?_)
    split
    · rw [MarkedAction.erase_bind, MarkedAction.erase_attempt, MarkedAction.erase_run]
      refine congrArg ((e.recovery none).attempt >>= ·) (funext fun r => ?_)
      cases r <;> exact MarkedAction.erase_lift _
    · rfl
  · rfl

theorem erase_markedRepairSecondary (e : Engine V H) :
    e.markedRepairSecondary.erase = e.repairSecondary := by
  unfold markedRepairSecondary repairSecondary
  simp only [MarkedAction.erase_locked, MarkedAction.erase_bind, MarkedAction.erase_attempt,
    MarkedAction.erase_run, MarkedAction.erase_pure]

theorem erase_markedResync (e : Engine V H) (direction : Direction) (t : Token) :
    (e.markedResync direction t).erase = e.resync direction t := by
  refine (MarkedAction.erase_locked _ _).trans ?_
  rw [MarkedAction.erase_run]
  cases direction <;> rfl

theorem erase_markedFallback (e : Engine V H) (op : H → MarkedAction V α) :
    (e.markedFallback op).erase = e.fallback fun h => (op h).erase := by
  unfold markedFallback fallback
  rw [MarkedAction.erase_bind, MarkedAction.erase_attempt]
  refine congrArg ((op e.primary).erase.attempt >>= ·) (funext fun r => ?_)
  cases r with
  | ok a => simp only [MarkedAction.erase_bind, erase_markedRecoverIfDown, MarkedAction.erase_pure]
  | error cause => simp only [MarkedAction.erase_bind, MarkedAction.erase_lift]

theorem erase_markedReplicate (e : Engine V H) (op : H → MarkedAction V α) :
    (e.markedReplicate op).erase = e.replicate fun h => (op h).erase := by
  unfold markedReplicate replicate
  rw [MarkedAction.erase_bind, MarkedAction.erase_attempt]
  refine congrArg ((op e.primary).erase.attempt >>= ·) (funext fun r => ?_)
  rw [MarkedAction.erase_bind, MarkedAction.erase_attempt]
  refine congrArg ((op e.secondary).erase.attempt >>= ·) (funext fun r' => ?_)
  cases r with
  | ok a =>
    cases r' <;> simp only [MarkedAction.erase_bind, erase_markedRecoverIfDown,
      MarkedAction.erase_pure, MarkedAction.erase_lift]
  | error cause => simp only [MarkedAction.erase_bind, MarkedAction.erase_lift]

theorem erase_markedBackup [WriteOutcome α] (e : Engine V H) (op : H → MarkedAction V α) :
    (e.markedBackup op).erase = e.backup fun h => (op h).erase := by
  unfold markedBackup backup
  rw [MarkedAction.erase_bind, MarkedAction.erase_attempt]
  refine congrArg ((op e.primary).erase.attempt >>= ·) (funext fun r => ?_)
  cases r with
  | error cause => simp only [MarkedAction.erase_bind, MarkedAction.erase_lift]
  | ok a =>
    dsimp only
    split
    · simp only [MarkedAction.erase_bind, MarkedAction.erase_attempt, erase_markedRecoverIfDown]
      refine congrArg ((op e.secondary).erase.attempt >>= ·) (funext fun r' => ?_)
      cases r' <;> simp only [MarkedAction.erase_bind, MarkedAction.erase_lift,
        erase_markedRepairSecondary, MarkedAction.erase_pure]
    · rfl

end Engine

end TwinStore
