import TwinStore.Converge.Run
import TwinStore.World.Answer

/-!
# Programs that run alone

A `Regime` says how calls fare while one program runs alone; every other request is answered as
`World.answer` does. `Faults.regime` is the regime in which any call to any base store may fail, by
its place in the order of all calls: a failed call leaves its store as it was.

What a run ends with is reasoned about backwards: `a.wp g post w` says that `post` holds of what the
action `a` ends with in regime `g`, started in the world `w`. Each way to put actions together has
one rule (`wp_bind`, `wp_lift`, `wp_locked`, …), for actions and for the walks of convergence
runs, which keep a tally beside the world.
-/

namespace TwinStore

variable {V α β : Type}

/-! ## Regimes -/

/-- How calls fare while a program runs alone. -/
structure Regime (V : Type) where
  call : World V → (c : Call V) → Token → Except Halt c.Answer × World V

namespace Regime

/-- Answer a request at once. -/
def answer (g : Regime V) : (r : Request V) → World V → r.Answer × World V
  | .call c t, w => g.call w c t
  | r, w => w.answer r

/-- Run a program alone. -/
def run (g : Regime V) (w : World V) (p : Prog V α) : α × World V :=
  p.run g.answer w

@[simp] theorem run_ret (g : Regime V) (w : World V) (a : α) :
    g.run w (.ret a) = (a, w) := rfl

@[simp] theorem run_ask (g : Regime V) (w : World V) (r : Request V)
    (next : r.Answer → Prog V α) :
    g.run w (.ask r next) = g.run (g.answer r w).2 (next (g.answer r w).1) := rfl

@[simp] theorem run_bind (g : Regime V) (w : World V) (p : Prog V α) (f : α → Prog V β) :
    g.run w (p >>= f) = g.run (g.run w p).2 (f (g.run w p).1) :=
  Prog.run_bind g.answer p f w

/-- What no request changes is the same after a program. -/
theorem run_frame {β : Type} {g : Regime V} (f : World V → β)
    (h : ∀ r w, f (g.answer r w).2 = f w) (w : World V) (p : Prog V α) :
    f (g.run w p).2 = f w := by
  induction p generalizing w with
  | ret a => rfl
  | ask r next ih => rw [run_ask, ih, h]

/-- The regime of the world itself, in which calls fare as the fault plans of their stores say. -/
def planned : Regime V where
  call w c t := w.call c t

theorem planned_run (w : World V) (p : Prog V α) : planned.run w p = w.run p := by
  have h : (planned : Regime V).answer = World.answer := by
    funext r w
    cases r <;> rfl
  rw [run, h]
  rfl

end Regime

/-! ## Faults -/

/-- How a call fails: an enumeration may yield some items first. -/
structure Failure where
  cause : StoreError
  after : Option Nat := none

/-- What happens to a call that fails. -/
def Failure.strike (f : Failure) : Strike := .fail f.cause f.after

/-- Which calls fail, and how: the fate of a call, given how many calls came before it. -/
abbrev Faults (V : Type) := Nat → Call V → Option Failure

namespace Faults

/-- The calls in the given places fail. -/
def hitting (places : List Nat) : Faults V :=
  fun n _ => if n ∈ places then some { cause := .backend "offline" } else none

/-- Of all the failures, those of one store. -/
def within (faults : Faults V) (site : Site) : Faults V :=
  fun n c => if c.site = site then faults n c else none

/-- Every call to one store fails, and no other call. -/
def felling (site : Site) : Faults V :=
  fun _ c => if c.site = site then some { cause := .backend "offline" } else none

/-- No call to a store fails. -/
def Spares (faults : Faults V) (site : Site) : Prop :=
  ∀ n c, c.site = site → faults n c = none

/-- Every call to a store fails. -/
def Fells (faults : Faults V) (site : Site) : Prop :=
  ∀ n c, c.site = site → faults n c ≠ none

theorem spares_within (faults : Faults V) {site site' : Site} (hne : site' ≠ site) :
    (faults.within site).Spares site' := by
  intro n c hc
  exact if_neg fun h => hne (hc.symm.trans h)

theorem spares_hitting_nil (site : Site) : (hitting [] : Faults V).Spares site :=
  fun _ _ _ => if_neg List.not_mem_nil

theorem fells_felling (site : Site) : (felling site : Faults V).Fells site := by
  intro n c hc
  unfold felling
  rw [if_pos hc]
  exact Option.some_ne_none _

theorem spares_felling {site site' : Site} (hne : site' ≠ site) :
    (felling site : Faults V).Spares site' := by
  intro n c hc
  exact if_neg fun h => hne (hc.symm.trans h)

end Faults

namespace World

/-- How many calls to a store have failed. -/
def failures (w : World V) (site : Site) : Nat :=
  w.visits.countP fun v => v.isFailed && v.call.site = site

/-- Answer a call at once, as it fares. -/
def callUnder (w : World V) (failure : Option Failure) (c : Call V) (t : Token) :
    Except Halt c.Answer × World V :=
  let visit : Visit V :=
    { call := c
      isFailed := failure.isSome
      isRejected := false
      isCancelled := w.isCancelled t }
  (w.visit visit).settle c (failure.map Failure.strike)

/-- What neither the record of a call nor carrying it out changes is the same after it. -/
theorem callUnder_frame {β : Type} (f : World V → β) (hvisit : ∀ w v, f (World.visit w v) = f w)
    (c : Call V) (hperform : ∀ w : World V, f (w.perform c).2 = f w) (w : World V)
    (failure : Option Failure) (t : Token) : f (w.callUnder failure c t).2 = f w := by
  unfold callUnder
  cases failure with
  | none => exact (hperform _).trans (hvisit _ _)
  | some failure =>
    obtain ⟨cause, after⟩ := failure
    cases after with
    | none => exact hvisit _ _
    | some n =>
      simp only [Option.map_some, Failure.strike, settle]
      split
      · exact (hperform _).trans (hvisit _ _)
      · exact hvisit _ _

/-- A call is carried out, or fails without effect, or yields some items and fails then. -/
theorem callUnder_cases {c : Call V} {P : Except Halt c.Answer → World V → Prop} (w : World V)
    (failure : Option Failure) (t : Token)
    (done : ∀ v : Visit V, v.call = c → failure = none →
      P (.ok ((w.visit v).perform c).1) ((w.visit v).perform c).2)
    (failed : ∀ (v : Visit V) f, v.call = c → failure = some f →
      P (.error (.failed f.cause)) (w.visit v))
    (broken : ∀ (v : Visit V) n f a, v.call = c → failure = some f →
      c.failAfter n f.cause ((w.visit v).perform c).1 = some a →
      P (.ok a) ((w.visit v).perform c).2) :
    P (w.callUnder failure c t).1 (w.callUnder failure c t).2 := by
  unfold callUnder
  cases failure with
  | none => exact done _ rfl rfl
  | some f =>
    obtain ⟨cause, after⟩ := f
    cases after with
    | none => exact failed _ _ rfl rfl
    | some n =>
      simp only [Option.map_some, Failure.strike, settle]
      split
      · rename_i a ha
        exact broken _ n _ a rfl rfl ha
      · exact failed _ _ rfl rfl

end World

/-- The regime in which calls fail as told. -/
def Faults.regime (faults : Faults V) : Regime V where
  call w c t := w.callUnder (faults w.visits.length c) c t

/-! ## What actions end with -/

/-- What an action ends with, if it ends well, can be compared. -/
theorem eq_ok_of_toOption {r : Except Halt α} {x : α} (h : r.toOption = some x) : r = .ok x := by
  cases r with
  | error => cases h
  | ok => exact congrArg Except.ok (Option.some.inj h)

theorem exists_error_of_toOption {r : Except Halt α} (h : r.toOption = none) :
    ∃ halt, r = .error halt := by
  cases r with
  | ok x => cases h
  | error halt => exact ⟨halt, rfl⟩

/-- Run an action alone. -/
def Regime.act (g : Regime V) (w : World V) (a : Action V α) : Except Halt α × World V :=
  g.run w a.run

namespace Regime

variable {g : Regime V} {w w' : World V} {a : Action V α} {f : α → Action V β}

theorem act_bind (g : Regime V) (w : World V) (a : Action V α) (f : α → Action V β) :
    g.act w (a >>= f) = match g.act w a with
      | (.ok x, w') => g.act w' (f x)
      | (.error halt, w') => (.error halt, w') := by
  have hrun : g.act w (a >>= f) =
      g.run (g.act w a).2 (ExceptT.bindCont f (g.act w a).1) :=
    Regime.run_bind g w a.run (ExceptT.bindCont f)
  rw [hrun]
  rcases g.act w a with ⟨halt | x, w'⟩ <;> rfl

/-- When the whole ends well, so has the first part. -/
theorem act_bind_ok {y : β} (h : g.act w (a >>= f) = (.ok y, w')) :
    ∃ x w₁, g.act w a = (.ok x, w₁) ∧ g.act w₁ (f x) = (.ok y, w') := by
  rw [act_bind] at h
  rcases hfirst : g.act w a with ⟨halt | x, w₁⟩
  · rw [hfirst] at h
    cases h
  · rw [hfirst] at h
    exact ⟨x, w₁, rfl, h⟩

/-- When the whole halts, the first part has halted, or the second part halts after it. -/
theorem act_bind_error {halt : Halt} (h : g.act w (a >>= f) = (.error halt, w')) :
    g.act w a = (.error halt, w') ∨
      ∃ x w₁, g.act w a = (.ok x, w₁) ∧ g.act w₁ (f x) = (.error halt, w') := by
  rw [act_bind] at h
  rcases hfirst : g.act w a with ⟨halt' | x, w₁⟩
  · rw [hfirst] at h
    cases h
    exact .inl rfl
  · rw [hfirst] at h
    exact .inr ⟨x, w₁, rfl, h⟩

end Regime

namespace Action

variable {g : Regime V} {w : World V}

/-- What holds of all that an action ends with. -/
def wp (g : Regime V) (a : Action V α) (post : Except Halt α → World V → Prop) (w : World V) :
    Prop :=
  post (g.act w a).1 (g.act w a).2

theorem wp_mono {a : Action V α} {post post' : Except Halt α → World V → Prop}
    (h : a.wp g post w) (hp : ∀ r w', post r w' → post' r w') : a.wp g post' w :=
  hp _ _ h

theorem wp_and {a : Action V α} {post post' : Except Halt α → World V → Prop}
    (h : a.wp g post w) (h' : a.wp g post' w) : a.wp g (fun r w' => post r w' ∧ post' r w') w :=
  ⟨h, h'⟩

/-- What an action ends with is what running it ends with. -/
theorem wp_act (a : Action V α) : a.wp g (fun r w' => g.act w a = (r, w')) w := rfl

@[simp] theorem wp_pure (x : α) (post : Except Halt α → World V → Prop) :
    wp g (pure x) post w ↔ post (.ok x) w := Iff.rfl

@[simp] theorem wp_throw (h : Halt) (post : Except Halt α → World V → Prop) :
    wp g (throw h) post w ↔ post (.error h) w := Iff.rfl

@[simp] theorem wp_fail (e : StoreError) (post : Except Halt α → World V → Prop) :
    wp g (Action.fail e) post w ↔ post (.error (.failed e)) w := Iff.rfl

/-- What holds of all that an action ends with, if another follows when it ends well. -/
def andThen (g : Regime V) (f : α → Action V β) (post : Except Halt β → World V → Prop) :
    Except Halt α → World V → Prop
  | .ok x, w => (f x).wp g post w
  | .error h, w => post (.error h) w

@[simp] theorem andThen_ok (f : α → Action V β) (x : α)
    (post : Except Halt β → World V → Prop) :
    andThen g f post (.ok x) w ↔ (f x).wp g post w := Iff.rfl

@[simp] theorem andThen_error (f : α → Action V β) (h : Halt)
    (post : Except Halt β → World V → Prop) :
    andThen g f post (.error h) w ↔ post (.error h) w := Iff.rfl

theorem wp_bind (a : Action V α) (f : α → Action V β) (post : Except Halt β → World V → Prop) :
    wp g (a >>= f) post w ↔ a.wp g (andThen g f post) w := by
  rw [wp, wp, Regime.act_bind]
  rcases g.act w a with ⟨halt | x, w'⟩ <;> rfl

@[simp] theorem wp_lift (p : Prog V α) (post : Except Halt α → World V → Prop) :
    wp g (ExceptT.lift p) post w ↔ post (.ok (g.run w p).1) (g.run w p).2 := by
  have h : g.act w (ExceptT.lift p) = (.ok (g.run w p).1, (g.run w p).2) :=
    Regime.run_bind g w p fun x => (Prog.ret (.ok x) : Prog V (Except Halt α))
  rw [wp, h]

@[simp] theorem wp_ask (r : Request V) (post : Except Halt r.Answer → World V → Prop) :
    wp g (Action.ask r) post w ↔ post (.ok (g.answer r w).1) (g.answer r w).2 :=
  wp_lift _ _

@[simp] theorem wp_call (c : Call V) (t : Token) (post : Except Halt c.Answer → World V → Prop) :
    wp g (Action.call c t) post w ↔ post (g.call w c t).1 (g.call w c t).2 := Iff.rfl

/-- A call under faults is carried out, or fails without effect, or yields some items and fails
then. -/
theorem wp_call_cases {faults : Faults V} {c : Call V} {t : Token}
    {post : Except Halt c.Answer → World V → Prop}
    (done : ∀ v : Visit V, v.call = c → faults w.visits.length c = none →
      post (.ok ((w.visit v).perform c).1) ((w.visit v).perform c).2)
    (failed : ∀ (v : Visit V) f, v.call = c → faults w.visits.length c = some f →
      post (.error (.failed f.cause)) (w.visit v))
    (broken : ∀ (v : Visit V) n f a, v.call = c → faults w.visits.length c = some f →
      c.failAfter n f.cause ((w.visit v).perform c).1 = some a →
      post (.ok a) ((w.visit v).perform c).2) :
    wp faults.regime (Action.call c t) post w :=
  w.callUnder_cases _ t done failed broken

@[simp] theorem wp_count (m : Measure) (n : Nat) (post : Except Halt Unit → World V → Prop) :
    wp g (Action.count m n) post w ↔ post (.ok ()) (w.count m n) := Iff.rfl

theorem wp_ofExcept (r : Except StoreError α) (post : Except Halt α → World V → Prop) :
    wp g (Action.ofExcept r) post w ↔ post (r.mapError Halt.failed) w := by
  cases r <;> rfl

/-- Alone, nobody waits for a lock. -/
theorem wp_locked (lock : Lock) (a : Action V α) (post : Except Halt α → World V → Prop) :
    wp g (Action.locked lock a) post w ↔ a.wp g post w := by
  have h : g.act w (Action.locked lock a) = g.act w a := by
    change g.run w
      (a.run >>= fun result => Prog.request (.release lock) >>= fun _ => .ret result) = _
    rw [Regime.run_bind]
    rfl
  rw [wp, wp, h]

end Action

/-! ## What walks end with -/

namespace Walk

variable {g : Regime V} {n : Tally} {w : World V}

/-- What holds of all that a walk ends with, and of its tally. -/
def wp (g : Regime V) (a : Walk V α) (post : Except Halt α → Tally → World V → Prop) (n : Tally)
    (w : World V) : Prop :=
  post (g.run w (a.run.run n)).1.1 (g.run w (a.run.run n)).1.2 (g.run w (a.run.run n)).2

theorem wp_mono {a : Walk V α} {post post' : Except Halt α → Tally → World V → Prop}
    (h : a.wp g post n w) (hp : ∀ r n' w', post r n' w' → post' r n' w') : a.wp g post' n w :=
  hp _ _ _ h

@[simp] theorem wp_pure (x : α) (post : Except Halt α → Tally → World V → Prop) :
    wp g (pure x) post n w ↔ post (.ok x) n w := Iff.rfl

@[simp] theorem wp_throw (h : Halt) (post : Except Halt α → Tally → World V → Prop) :
    wp g (throw h) post n w ↔ post (.error h) n w := Iff.rfl

/-- What holds of all that a walk ends with, if another follows when it ends well. -/
def andThen (g : Regime V) (f : α → Walk V β) (post : Except Halt β → Tally → World V → Prop) :
    Except Halt α → Tally → World V → Prop
  | .ok x, n, w => (f x).wp g post n w
  | .error h, n, w => post (.error h) n w

@[simp] theorem andThen_ok (f : α → Walk V β) (x : α)
    (post : Except Halt β → Tally → World V → Prop) :
    andThen g f post (.ok x) n w ↔ (f x).wp g post n w := Iff.rfl

@[simp] theorem andThen_error (f : α → Walk V β) (h : Halt)
    (post : Except Halt β → Tally → World V → Prop) :
    andThen g f post (.error h) n w ↔ post (.error h) n w := Iff.rfl

theorem wp_bind (a : Walk V α) (f : α → Walk V β)
    (post : Except Halt β → Tally → World V → Prop) :
    wp g (a >>= f) post n w ↔ a.wp g (andThen g f post) n w := by
  have h : g.run w ((a >>= f).run.run n) =
      g.run (g.run w (a.run.run n)).2 ((ExceptT.bindCont f (g.run w (a.run.run n)).1.1).run
        (g.run w (a.run.run n)).1.2) :=
    Regime.run_bind g w (a.run.run n) fun p => (ExceptT.bindCont f p.1).run p.2
  rw [wp, wp, h]
  cases (g.run w (a.run.run n)).1.1 <;> rfl

/-- An action within a walk leaves the tally alone. -/
theorem wp_lift (a : Action V α) (post : Except Halt α → Tally → World V → Prop) :
    wp g (liftM a : Walk V α) post n w ↔ a.wp g (fun r w' => post r n w') w := by
  have h : g.run w ((liftM a : Walk V α).run.run n) = (((g.act w a).1, n), (g.act w a).2) :=
    Regime.run_bind g w a.run fun r => .ret (r, n)
  rw [wp, h]
  rfl

@[simp] theorem wp_wrote (post : Except Halt Unit → Tally → World V → Prop) :
    wp g Walk.wrote post n w ↔ post (.ok ()) { n with written := n.written + 1 } w := Iff.rfl

@[simp] theorem wp_removed (post : Except Halt Unit → Tally → World V → Prop) :
    wp g Walk.removed post n w ↔ post (.ok ()) { n with removed := n.removed + 1 } w := Iff.rfl

/-- What holds after a removal: the tally counts it if something was there. -/
def afterRemoving (post : Except Halt Unit → Tally → World V → Prop) (n : Tally) :
    Except Halt Bool → World V → Prop
  | .ok found, w => post (.ok ()) (if found then { n with removed := n.removed + 1 } else n) w
  | .error h, w => post (.error h) n w

theorem wp_removing (a : Action V Bool) (post : Except Halt Unit → Tally → World V → Prop) :
    wp g (Walk.removing a) post n w ↔ a.wp g (afterRemoving post n) w := by
  unfold Walk.removing
  rw [wp_bind, wp_lift]
  unfold Action.wp
  generalize g.act w a = out
  obtain ⟨_ | found, w'⟩ := out
  · rfl
  · cases found <;> rfl

theorem wp_close (l : Listing α) (post : Except Halt Unit → Tally → World V → Prop) :
    wp g (Walk.close l) post n w ↔
      match l.failure with
      | none => post (.ok ()) n w
      | some e => post (.error (.failed e)) n w := by
  unfold Walk.close
  cases l.failure <;> rfl

end Walk

end TwinStore
