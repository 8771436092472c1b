import TwinStore.Program.Request

/-!
# Programs

`Prog V α` is a program that ends with an `α`: a tree of requests with a continuation for every
answer. Programs say what is asked and in which order; who answers, and how programs take turns, is
not their matter. `Action` adds halting: an action may stop because a store failed, which `attempt`
turns into a value, or because its run was cut short, which nothing but the run itself stops.
-/

namespace TwinStore

/-- A program over stores of values `V`, ending with an `α`. -/
inductive Prog (V : Type) (α : Type) : Type where
  | ret (a : α)
  | ask (r : Request V) (next : r.Answer → Prog V α)

namespace Prog

variable {V α β γ : Type}

/-- One program after another. -/
def bind : Prog V α → (α → Prog V β) → Prog V β
  | ret a, f => f a
  | ask r next, f => ask r fun a => (next a).bind f

instance : Monad (Prog V) where
  pure := ret
  bind := bind

/-- Ask one thing. -/
def request (r : Request V) : Prog V r.Answer :=
  ask r ret

@[simp] theorem pure_eq_ret (a : α) : (pure a : Prog V α) = ret a := rfl

@[simp] theorem ret_bind (a : α) (f : α → Prog V β) : (ret a >>= f) = f a := rfl

@[simp] theorem ask_bind (r : Request V) (next : r.Answer → Prog V α) (f : α → Prog V β) :
    (ask r next >>= f) = ask r fun a => next a >>= f := rfl

theorem bind_ret (p : Prog V α) : (p >>= ret) = p := by
  induction p with
  | ret a => rfl
  | ask r next ih => rw [ask_bind]; congr; funext a; exact ih a

theorem bind_assoc (p : Prog V α) (f : α → Prog V β) (g : β → Prog V γ) :
    (p >>= f >>= g) = (p >>= fun a => f a >>= g) := by
  induction p with
  | ret a => rfl
  | ask r next ih => simp only [ask_bind]; congr; funext a; exact ih a

instance : LawfulMonad (Prog V) :=
  LawfulMonad.mk' _ bind_ret (fun _ _ => rfl) bind_assoc

/-- Run a program alone, each request answered at once by `answer`. -/
def run {S : Type} (answer : (r : Request V) → S → r.Answer × S) : Prog V α → S → α × S
  | ret a, s => (a, s)
  | ask r next, s => (next (answer r s).1).run answer (answer r s).2

@[simp] theorem run_ret {S : Type} (answer : (r : Request V) → S → r.Answer × S) (a : α) (s : S) :
    (ret a).run answer s = (a, s) := rfl

@[simp] theorem run_ask {S : Type} (answer : (r : Request V) → S → r.Answer × S) (r : Request V)
    (next : r.Answer → Prog V α) (s : S) :
    (ask r next).run answer s = (next (answer r s).1).run answer (answer r s).2 := rfl

theorem run_bind {S : Type} (answer : (r : Request V) → S → r.Answer × S) (p : Prog V α)
    (f : α → Prog V β) (s : S) :
    (p >>= f).run answer s = (f (p.run answer s).1).run answer (p.run answer s).2 := by
  induction p generalizing s with
  | ret a => rfl
  | ask r next ih => exact ih _ _

end Prog

/-- A program that may halt before its end. -/
abbrev Action (V : Type) := ExceptT Halt (Prog V)

namespace Action

variable {V α : Type}

/-- Ask for something that may halt the program. -/
def call (c : Call V) (t : Token) : Action V c.Answer :=
  ExceptT.mk (Prog.request (.call c t))

/-- Ask for something that cannot halt the program. -/
def ask (r : Request V) : Action V r.Answer :=
  ExceptT.lift (Prog.request r)

/-- Fail. -/
def fail (e : StoreError) : Action V α :=
  throw (.failed e)

/-- Halt as told. -/
def ofExcept : Except StoreError α → Action V α
  | .ok a => pure a
  | .error e => fail e

/-- Turn a failure into a value. Being cut short is no failure, and goes on halting. -/
def attempt (a : Action V α) : Action V (Except StoreError α) :=
  ExceptT.mk do
    match ← a.run with
    | .ok x => pure (.ok (.ok x))
    | .error (.failed e) => pure (.ok (.error e))
    | .error (.cut run) => pure (.error (.cut run))

/-- Wait for a lock. -/
def acquire (lock : Lock) : Action V Unit :=
  ExceptT.mk (Prog.request (.acquire lock))

/-- Hold a lock while `body` runs, and give it back however `body` ends. -/
def locked (lock : Lock) (body : Action V α) : Action V α := do
  acquire lock
  ExceptT.mk do
    let result ← body.run
    Prog.request (.release lock)
    pure result

/-- Add to a measure. -/
def count (m : Measure) (amount : Nat := 1) : Action V Unit :=
  ask (.count m amount)

end Action

end TwinStore
