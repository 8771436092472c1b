import TwinStore.Proofs.View
import TwinStore.World.Schedule

/-!
# Runs that stop early

A convergence run stops before its end because a call fails, or because its time limit or its caller
cuts it short while a call is pending. `Stops.regime` is the regime in which any call may stop the
program, by its place in the order of all calls; a call that does leaves every store as it was.

What such a run leaves is reasoned about without its world. A `Ground` says when stores are in a
state; on a ground, an action `Does` and a walk `Takes` what their rules say of states and tallies
alone. Each judgement names a `good` end and what is `left` wherever the program may halt, so that
one proof about a loop covers both its end and every stop on the way.
-/

namespace TwinStore

variable {V α β σ ι : Type}

/-! ## Stops -/

/-- How a call stops a program. -/
inductive Stop where
  /-- The call fails. -/
  | failure (f : Failure)
  /-- The run of this number is cut short while the call is pending. -/
  | cut (run : Nat)

/-- Why a program halts that is stopped so. -/
def Stop.halt : Stop → Halt
  | failure f => .failed f.cause
  | cut run => .cut run

/-- Which calls stop the program, and how: the fate of a call, given how many calls came before
it. -/
abbrev Stops (V : Type) := Nat → Call V → Option Stop

namespace Stops

/-- No call stops the program. -/
def never : Stops V := fun _ _ => none

/-- The calls in the given places stop the program. -/
def hitting (places : List (Nat × Stop)) : Stops V :=
  fun n _ => places.lookup n

/-- The regime in which calls stop the program as told. A call that is pending when a run is cut
short has reached its store, and has no effect (`Machine.run_pending`). -/
def regime (stops : Stops V) : Regime V where
  call w c t :=
    match stops w.visits.length c with
    | none => w.callUnder none c t
    | some (.failure f) => w.callUnder (some f) c t
    | some (.cut run) =>
      (.error (.cut run), w.visit
        { call := c, isFailed := false, isRejected := false, isCancelled := w.isCancelled t })

/-- Why a program may halt: one of the calls stops it so. -/
def Halts (stops : Stops V) (h : Halt) : Prop :=
  ∃ n c stop, stops n c = some stop ∧ stop.halt = h

theorem not_halts_never (h : Halt) : ¬ (never : Stops V).Halts h := by
  rintro ⟨n, c, stop, hstop, -⟩
  cases hstop

/-- A call is carried out, or stops the program without effect, or yields some items and fails
then. -/
theorem wp_call {stops : Stops V} {c : Call V} {t : Token} {w : World V}
    {post : Except Halt c.Answer → World V → Prop}
    (done : ∀ v : Visit V, v.call = c →
      post (.ok ((w.visit v).perform c).1) ((w.visit v).perform c).2)
    (stopped : ∀ (v : Visit V) h, v.call = c → stops.Halts h → post (.error h) (w.visit v))
    (broken : ∀ (v : Visit V) n cause a, v.call = c → stops.Halts (.failed cause) →
      c.failAfter n cause ((w.visit v).perform c).1 = some a →
      post (.ok a) ((w.visit v).perform c).2) :
    (Action.call c t).wp stops.regime post w := by
  rw [Action.wp_call]
  unfold regime
  dsimp only
  cases hstop : stops w.visits.length c with
  | none =>
    refine w.callUnder_cases none t (fun v hv _ => done v hv) ?_ ?_ <;>
    · intros
      contradiction
  | some stop =>
    have hhalts : stops.Halts stop.halt := ⟨_, c, stop, hstop, rfl⟩
    cases stop with
    | cut run => exact stopped _ _ rfl hhalts
    | failure f =>
      refine w.callUnder_cases (some f) t (fun v hv _ => done v hv) ?_ ?_
      · intro v f' hv hf
        cases hf
        exact stopped v _ hv hhalts
      · intro v n f' a hv hf ha
        cases hf
        exact broken v n f.cause a hv hhalts ha

/-- Unless it enumerates, a call that does not stop the program answers as it does when it is
carried out. -/
theorem answer_of_whole {stops : Stops V} {c : Call V} {t : Token} {w : World V}
    (hwhole : ∀ n cause a, c.failAfter n cause a = none) {a : c.Answer}
    (ha : (stops.regime.call w c t).1 = .ok a) : ∃ w' : World V, a = (w'.perform c).1 := by
  have h : (Action.call c t).wp stops.regime
      (fun r _ => ∀ a, r = .ok a → ∃ w' : World V, a = (w'.perform c).1) w := by
    refine wp_call (fun v _ a ha => ⟨w.visit v, (Except.ok.inj ha).symm⟩) (fun _ _ _ _ => nofun) ?_
    intro v n cause a _ _ ha
    rw [hwhole] at ha
    cases ha
  exact h a ha

end Stops

/-! ## Pending calls -/

namespace Machine

variable {S R : Type} {m : Machine S V R} {b : Nat}

/-- What ends a wait early is that a run is cut short, and no store changes by it. -/
theorem halt?_cuts (m : Machine S V R) (b : Nat) :
    (∀ h ∈ (m.halt? b).1, ∃ run, h = .cut run) ∧ (m.halt? b).2.world.stores = m.world.stores := by
  unfold halt?
  split
  · exact ⟨nofun, rfl⟩
  · split
    · rename_i run _
      exact ⟨fun h hh => ⟨run, (Option.some.inj hh).symm⟩, rfl⟩
    · split
      · refine ⟨fun h hh => ?_, rfl⟩
        obtain ⟨run, -, rfl⟩ := Option.map_eq_some_iff.1 hh
        exact ⟨run, rfl⟩
      · exact ⟨nofun, rfl⟩

/-- A branch with a pending call goes on waiting, or has its run cut short: the call is answered as
one that stops the program so, and no store changes. -/
theorem run_pending {c : Call V} {t : Token} {fate : Option Strike}
    {next : Except Halt c.Answer → Prog V R} {due : Nat}
    (hwait : m.wait? b = some (.delay c t fate next due)) (hdue : m.now < due) :
    ∃ m', m'.world.stores = m.world.stores ∧
      (m.run b = m'.setWait b (.delay c t fate next due) ∨
        ∃ run, m.run b = advance b (next (.error (.cut run))) m') := by
  obtain ⟨hcut, hstores⟩ := m.halt?_cuts b
  unfold run
  rw [hwait]
  dsimp only
  rw [if_neg (Nat.not_le.2 hdue)]
  unfold await
  generalize m.halt? b = out at hcut hstores ⊢
  obtain ⟨_ | halt, m'⟩ := out
  · exact ⟨m', hstores, .inl rfl⟩
  · obtain ⟨run, rfl⟩ := hcut halt rfl
    exact ⟨m'.withdraw b, hstores, .inr ⟨run, rfl⟩⟩

end Machine

/-! ## Worlds without fault plans -/

namespace World

/-- No base store has a fault plan. -/
def Unplanned (w : World V) : Prop :=
  ∀ site, w.plan site = none

/-- What stands around a store stays as it is when a call is carried out. -/
theorem around_perform (w : World V) (c : Call V) (site : Site) :
    (w.perform c).2.around site = w.around site := by
  cases c with
  | map i op | set i op | setMap i op | queue i op =>
    cases site with
    | map j | set j | setMap j | queue j =>
      by_cases hij : i = j
      · subst hij
        simp [perform, around]
      · simp [perform, around, Shelf.nth_put_of_ne _ _ hij]

theorem around_storeSet (w : World V) (i : Nat) (k : Key) (members : List String) (site : Site) :
    (w.storeSet i k members).around site = w.around site := by
  cases site with
  | setMap j =>
    by_cases hij : i = j
    · subst hij
      simp [storeSet, around]
    · simp [storeSet, around, Shelf.nth_put_of_ne _ _ hij]
  | _ => rfl

/-- Without fault plans, a call that the world answers is carried out. -/
theorem call_of_unplanned {w : World V} (h : w.Unplanned) (c : Call V) (t : Token) :
    w.call c t = w.callUnder none c t := by
  have hplan : w.plan c.site = none := h c.site
  unfold call consult
  rw [hplan]
  rfl

/-- Without fault plans, a program runs alone as if nothing could stop it. -/
theorem run_of_unplanned {w : World V} (h : w.Unplanned) (p : Prog V α) :
    w.run p = Stops.never.regime.run w p := by
  induction p generalizing w with
  | ret a => rfl
  | ask r next ih =>
    have hsame : w.answer r = Stops.never.regime.answer r w := by
      cases r with
      | call c t => exact call_of_unplanned h c t
      | _ => rfl
    have hkept : (w.answer r).2.Unplanned := by
      intro site
      rw [← h site]
      cases r with
      | call c t =>
        change (w.call c t).2.plan site = _
        rw [call_of_unplanned h]
        exact congrArg (·.2.1) (around_perform _ c site)
      | storeSet i k members => exact congrArg (·.2.1) (w.around_storeSet i k members site)
      | _ => rfl
    change (World.answer r w).2.run (next (World.answer r w).1) = _
    rw [ih _ hkept, hsame]
    rfl

end World

/-! ## Tallies add up -/

attribute [ext] Tally

namespace Tally

instance : Add Tally where
  add m n := { written := m.written + n.written, removed := m.removed + n.removed }

@[simp] theorem written_add (m n : Tally) : (m + n).written = m.written + n.written := rfl

@[simp] theorem removed_add (m n : Tally) : (m + n).removed = m.removed + n.removed := rfl

@[simp] theorem add_empty (n : Tally) : n + {} = n := rfl

@[simp] theorem empty_add (n : Tally) : ({} : Tally) + n = n := by
  ext <;> simp

theorem add_assoc (l m n : Tally) : l + m + n = l + (m + n) := by
  ext <;> simp [Nat.add_assoc]

end Tally

/-- A run did not come to its end: it reports that it was cut short, or reports nothing. -/
def Report.Stopped (r : Except Halt Report) : Prop :=
  ∀ report, r = .ok report → report.timedOut = true

theorem Report.Stopped.of_timedOut {r : Except Halt Report} {report : Report} (hr : r = .ok report)
    (h : report.timedOut = true) : Report.Stopped r := by
  subst hr
  rintro _ ⟨⟩
  exact h

/-! ## Grounds -/

/-- What programs run on: which calls stop them, and what it means for the world to be in a state.
A state tells of the stores, and it may tell of the calls that have been made. -/
structure Ground (V σ : Type) where
  stops : Stops V
  At : σ → World V → Prop
  /-- What becomes of a state when a call is recorded. -/
  noting : σ → Call V → σ := fun s _ => s
  at_visit : ∀ {s : σ} {w : World V} (v : Visit V), At s w → At (noting s v.call) (w.visit v)
  at_congr : ∀ {s : σ} {w w' : World V}, w'.stores = w.stores → w'.visits = w.visits → At s w →
    At s w'

namespace Ground

variable (G : Ground V σ)

/-- How calls fare. -/
abbrev regime : Regime V := G.stops.regime

/-- Why programs may halt. -/
abbrev Halts : Halt → Prop := G.stops.Halts

/-- What a program may end with: it ended well in a good state, or it halted, for a reason for which
programs may halt, in a state with `left`. -/
def Ended (good : α → σ → Prop) (left : σ → Prop) : Except Halt α → World V → Prop
  | .ok x, w => ∃ s, good x s ∧ G.At s w
  | .error h, w => G.Halts h ∧ ∃ s, left s ∧ G.At s w

/-- Started in the state `s`, the action ends well with `good`, or halts in a state with `left`. -/
def Does (a : Action V α) (s : σ) (good : α → σ → Prop) (left : σ → Prop) : Prop :=
  ∀ w, G.At s w → a.wp G.regime (G.Ended good left) w

/-- Started in the state `s` with the tally `n`, the walk ends well with `good`, or halts in a state
with `left`. -/
def Takes (a : Walk V α) (s : σ) (n : Tally) (good : α → Tally → σ → Prop) (left : σ → Prop) :
    Prop :=
  ∀ w, G.At s w → a.wp G.regime (fun r n' w' => G.Ended (good · n') left r w') n w

variable {G} {s : σ} {n : Tally} {left left' : σ → Prop}

theorem Ended.mono {good good' : α → σ → Prop} {r : Except Halt α} {w : World V}
    (h : G.Ended good left r w) (hgood : ∀ x s', good x s' → good' x s')
    (hleft : ∀ s', left s' → left' s') : G.Ended good' left' r w := by
  cases r with
  | ok x =>
    obtain ⟨s', hs', hat⟩ := h
    exact ⟨s', hgood x s' hs', hat⟩
  | error halt =>
    obtain ⟨hhalt, s', hs', hat⟩ := h
    exact ⟨hhalt, s', hleft s' hs', hat⟩

/-! ### Actions -/

section Actions

variable {good good' : α → σ → Prop}

theorem Does.mono {a : Action V α} (h : G.Does a s good left)
    (hgood : ∀ x s', good x s' → good' x s') (hleft : ∀ s', left s' → left' s') :
    G.Does a s good' left' :=
  fun w hw => Action.wp_mono (h w hw) fun _ _ hended => hended.mono hgood hleft

theorem Does.leaving {a : Action V α} (h : G.Does a s good left)
    (hleft : ∀ s', left s' → left' s') : G.Does a s good left' :=
  h.mono (fun _ _ hgood => hgood) hleft

theorem does_pure {x : α} (h : good x s) : G.Does (pure x) s good left :=
  fun _ hw => ⟨s, h, hw⟩

theorem does_fail {e : StoreError} (hhalt : G.Halts (.failed e)) (h : left s) :
    G.Does (Action.fail e) s good left :=
  fun _ hw => ⟨hhalt, s, h, hw⟩

theorem Does.bind {a : Action V α} {f : α → Action V β} {good' : β → σ → Prop}
    (h : G.Does a s good left) (hf : ∀ x s', good x s' → G.Does (f x) s' good' left) :
    G.Does (a >>= f) s good' left := by
  intro w hw
  rw [Action.wp_bind]
  refine Action.wp_mono (h w hw) ?_
  rintro (halt | x) w' hended
  · exact hended
  · obtain ⟨s', hs', hat⟩ := hended
    exact hf x s' hs' w' hat

/-- What an action leaves that has ended well. -/
theorem Does.act_ok {a : Action V α} {x : α} {w w' : World V} (h : G.Does a s good left)
    (hw : G.At s w) (hact : G.regime.act w a = (.ok x, w')) : ∃ s', good x s' ∧ G.At s' w' := by
  have hended : G.Ended good left (G.regime.act w a).1 (G.regime.act w a).2 := h w hw
  rwa [hact] at hended

/-- Why an action has halted, and what it leaves. -/
theorem Does.act_error {a : Action V α} {halt : Halt} {w w' : World V} (h : G.Does a s good left)
    (hw : G.At s w) (hact : G.regime.act w a = (.error halt, w')) :
    G.Halts halt ∧ ∃ s', left s' ∧ G.At s' w' := by
  have hended : G.Ended good left (G.regime.act w a).1 (G.regime.act w a).2 := h w hw
  rwa [hact] at hended

theorem does_collect {l : Listing ι} {good : List ι → σ → Prop}
    (hbroken : ∀ e, l.failure = some e → G.Halts (.failed e) ∧ left s)
    (hwhole : l.failure = none → good l.items s) : G.Does l.collect s good left := by
  unfold Listing.collect
  cases hl : l.failure with
  | none => exact does_pure (hwhole hl)
  | some e => exact does_fail (hbroken e hl).1 (hbroken e hl).2

/-- A store that may be asked for its keys enumerates them. -/
theorem does_listAs {m : KeyedStore V ι} {role : String} {t : Token} {good : Listing Key → σ → Prop}
    (hrequire : G.Does (m.requireKeys role) s (fun _ s' => s' = s) left)
    (hkeys : G.Does (m.keys t) s good left) : G.Does (m.listAs role t) s good left := by
  refine hrequire.bind fun _ s' hs' => ?_
  subst hs'
  exact hkeys

/-- A request that cannot halt the program, given what it answers and leaves. -/
theorem does_ask {r : Request V} {good : r.Answer → σ → Prop}
    (h : ∀ w, G.At s w → ∃ s', good (G.regime.answer r w).1 s' ∧ G.At s' (G.regime.answer r w).2) :
    G.Does (Action.ask r) s good left := by
  intro w hw
  rw [Action.wp_ask]
  exact h w hw

end Actions

/-- A call that may stop the run is recorded, and does what carrying it out does. -/
theorem does_call {c : Call V} {good : c.Answer → σ → Prop} (t : Token)
    (hperform : ∀ w, G.At (G.noting s c) w →
      ∃ s', good (w.perform c).1 s' ∧ G.At s' (w.perform c).2)
    (hbroken : ∀ n cause a b s', G.Halts (.failed cause) → good a s' →
      c.failAfter n cause a = some b → good b s') :
    G.Does (Action.call c t) s good (· = G.noting s c) := by
  intro w hw
  have hvisit : ∀ v : Visit V, v.call = c → G.At (G.noting s c) (w.visit v) := by
    rintro v rfl
    exact G.at_visit v hw
  refine Stops.wp_call ?_ ?_ ?_
  · exact fun v hv => hperform _ (hvisit v hv)
  · exact fun v h hv hhalt => ⟨hhalt, _, rfl, hvisit v hv⟩
  · intro v n cause b hv hhalt hb
    obtain ⟨s', hgood, hat⟩ := hperform _ (hvisit v hv)
    exact ⟨s', hbroken n cause _ b s' hhalt hgood hb, hat⟩

/-- A call that does not enumerate does what carrying it out does, or stops the run and is only
recorded. -/
theorem does_wholeCall {c : Call V} {good : c.Answer → σ → Prop} (t : Token)
    (hwhole : ∀ n cause a, c.failAfter n cause a = none)
    (hperform : ∀ w, G.At (G.noting s c) w →
      ∃ s', good (w.perform c).1 s' ∧ G.At s' (w.perform c).2) :
    G.Does (Action.call c t) s good (· = G.noting s c) := by
  refine does_call t hperform fun n cause a b s' _ _ hb => ?_
  rw [hwhole] at hb
  cases hb

/-! ### Walks -/

section Walks

variable {good good' : α → Tally → σ → Prop}

theorem Takes.mono {a : Walk V α} (h : G.Takes a s n good left)
    (hgood : ∀ x n' s', good x n' s' → good' x n' s') (hleft : ∀ s', left s' → left' s') :
    G.Takes a s n good' left' :=
  fun w hw => Walk.wp_mono (h w hw) fun _ n' _ hended =>
    hended.mono (fun x s' => hgood x n' s') hleft

theorem Takes.leaving {a : Walk V α} (h : G.Takes a s n good left)
    (hleft : ∀ s', left s' → left' s') : G.Takes a s n good left' :=
  h.mono (fun _ _ _ hgood => hgood) hleft

theorem takes_pure {x : α} (h : good x n s) : G.Takes (pure x) s n good left :=
  fun _ hw => ⟨s, h, hw⟩

theorem Takes.bind {a : Walk V α} {f : α → Walk V β} {good' : β → Tally → σ → Prop}
    (h : G.Takes a s n good left) (hf : ∀ x n' s', good x n' s' → G.Takes (f x) s' n' good' left) :
    G.Takes (a >>= f) s n good' left := by
  intro w hw
  rw [Walk.wp_bind]
  refine Walk.wp_mono (h w hw) ?_
  rintro (halt | x) n' w' hended
  · exact hended
  · obtain ⟨s', hs', hat⟩ := hended
    exact hf x n' s' hs' w' hat

/-- A walk goes on from wherever its first action may end. -/
theorem Does.then {a : Action V α} {f : α → Walk V β} {good : α → σ → Prop}
    {good' : β → Tally → σ → Prop} (h : G.Does a s good left)
    (hf : ∀ x s', good x s' → G.Takes (f x) s' n good' left) :
    G.Takes (liftM a >>= f) s n good' left := by
  intro w hw
  rw [Walk.wp_bind, Walk.wp_lift]
  refine Action.wp_mono (h w hw) ?_
  rintro (halt | x) w' hended
  · exact hended
  · obtain ⟨s', hs', hat⟩ := hended
    exact hf x s' hs' w' hat

/-- A removal within a walk is counted if something was there. -/
theorem Does.removing {a : Action V Bool} {good : Bool → σ → Prop} {good' : Unit → Tally → σ → Prop}
    (h : G.Does a s good left) (hgood : ∀ found s', good found s' →
      good' () (n + { removed := found.toNat }) s') : G.Takes (Walk.removing a) s n good' left := by
  intro w hw
  rw [Walk.wp_removing]
  refine Action.wp_mono (h w hw) ?_
  rintro (halt | found) w' hended
  · exact hended
  · obtain ⟨s', hs', hat⟩ := hended
    refine ⟨s', ?_, hat⟩
    have hcounted := hgood found s' hs'
    cases found <;> exact hcounted

theorem takes_wrote {good : Unit → Tally → σ → Prop} (h : good () (n + { written := 1 }) s) :
    G.Takes Walk.wrote s n good left :=
  fun _ hw => ⟨s, h, hw⟩

theorem takes_wrote_then {f : Unit → Walk V α} {good : α → Tally → σ → Prop}
    (h : G.Takes (f ()) s (n + { written := 1 }) good left) :
    G.Takes (Walk.wrote >>= f) s n good left := by
  intro w hw
  rw [Walk.wp_bind, Walk.wp_wrote]
  exact h w hw

theorem takes_removed_then {f : Unit → Walk V α} {good : α → Tally → σ → Prop}
    (h : G.Takes (f ()) s (n + { removed := 1 }) good left) :
    G.Takes (Walk.removed >>= f) s n good left := by
  intro w hw
  rw [Walk.wp_bind, Walk.wp_removed]
  exact h w hw

theorem takes_close {l : Listing ι} {good : Unit → Tally → σ → Prop}
    (hbroken : ∀ e, l.failure = some e → G.Halts (.failed e) ∧ left s)
    (hwhole : l.failure = none → good () n s) : G.Takes (Walk.close l) s n good left := by
  intro w hw
  rw [Walk.wp_close]
  cases hl : l.failure with
  | none => exact ⟨s, hwhole hl, hw⟩
  | some e => exact ⟨(hbroken e hl).1, s, (hbroken e hl).2, hw⟩

theorem takes_close_then {l : Listing ι} {f : Unit → Walk V α} {good : α → Tally → σ → Prop}
    (hbroken : ∀ e, l.failure = some e → G.Halts (.failed e) ∧ left s)
    (hwhole : l.failure = none → G.Takes (f ()) s n good left) :
    G.Takes (Walk.close l >>= f) s n good left := by
  have hclosed : G.Takes (Walk.close l) s n (fun _ n' s' => l.failure = none ∧ n' = n ∧ s' = s)
      left :=
    takes_close hbroken fun hl => ⟨hl, rfl, rfl⟩
  refine hclosed.bind fun _ n' s' h => ?_
  obtain ⟨hl, rfl, rfl⟩ := h
  exact hwhole hl

end Walks

/-! ### Runs -/

/-- A run ended well, was cut short and reported that, or halted. -/
inductive Concluded (G : Ground V σ) (good : Tally → σ → Prop) (left : σ → Prop)
    (cancelled : Bool) : Except Halt Report → World V → Prop
  | done {n : Tally} {s : σ} {w : World V} (holds : good n s) (here : G.At s w) :
      Concluded G good left cancelled (.ok { n with timedOut := false }) w
  | early {n : Tally} {s : σ} {w : World V} (reason : cancelled = true ∨ ∃ run, G.Halts (.cut run))
      (holds : left s) (here : G.At s w) :
      Concluded G good left cancelled (.ok { n with timedOut := true }) w
  | halted {h : Halt} {s : σ} {w : World V} (reason : G.Halts h) (holds : left s)
      (here : G.At s w) : Concluded G good left cancelled (.error h) w

section Concluded

variable {good : Tally → σ → Prop} {cancelled : Bool} {r : Except Halt Report} {w : World V}

/-- However a run ended, it left one of the states that a stop may leave. -/
theorem Concluded.leaves (h : G.Concluded good left cancelled r w)
    (hgood : ∀ n s, good n s → left s) : ∃ s, left s ∧ G.At s w := by
  cases h with
  | done holds here => exact ⟨_, hgood _ _ holds, here⟩
  | early _ holds here => exact ⟨_, holds, here⟩
  | halted _ holds here => exact ⟨_, holds, here⟩

/-- A run that was not cut short ended well. -/
theorem Concluded.of_whole {report : Report} (h : G.Concluded good left cancelled (.ok report) w)
    (hwhole : report.timedOut = false) : ∃ s, good report.toTally s ∧ G.At s w := by
  cases h with
  | done holds here => exact ⟨_, holds, here⟩
  | early => cases hwhole

/-- A run that did not come to its end left one of the states that a stop may leave. -/
theorem Concluded.of_stopped (h : G.Concluded good left cancelled r w)
    (hstopped : Report.Stopped r) : ∃ s, left s ∧ G.At s w := by
  cases h with
  | done => cases hstopped _ rfl
  | early _ holds here => exact ⟨_, holds, here⟩
  | halted _ holds here => exact ⟨_, holds, here⟩

/-- A run that nothing could stop ended well. -/
theorem Concluded.of_unstopped (h : G.Concluded good left false r w) (hG : ∀ h, ¬ G.Halts h) :
    ∃ n s, r = .ok { n with timedOut := false } ∧ good n s ∧ G.At s w := by
  cases h with
  | done holds here => exact ⟨_, _, rfl, holds, here⟩
  | early reason =>
    obtain hcancelled | ⟨run, hrun⟩ := reason
    · cases hcancelled
    · exact absurd hrun (hG _)
  | halted reason => exact absurd reason (hG _)

end Concluded

theorem at_count {w : World V} (h : G.At s w) (m : Measure) (k : Nat) : G.At s (w.count m k) :=
  G.at_congr (by rfl) (by rfl) h

/-- Closing a report changes no store. -/
theorem wp_conclude {post : Except Halt Report → World V → Prop} {w : World V} (hw : G.At s w)
    (name : String) (n : Tally) (timedOut : Bool)
    (h : ∀ w', G.At s w' → post (.ok { n with timedOut }) w') :
    (Report.conclude name n timedOut).wp G.regime post w :=
  h _ (at_count (at_count (at_count (at_count hw _ _) _ _) _ _) _ _)

/-- A bounded run of a walk ends as the walk does. -/
theorem Takes.wp_drive {walk : Walk V Unit} {good : Tally → σ → Prop}
    (h : G.Takes walk s {} (fun _ => good) left) (hleft : left s) (name : String) (limit : Nat)
    (t : Token) {w : World V} (hw : G.At s w) :
    (drive name limit t walk).wp G.regime (G.Concluded good left (w.isCancelled t)) w := by
  have hentered : G.At s (G.regime.answer (.enter limit t) w).2 :=
    G.at_congr (by rfl) (by rfl) hw
  unfold drive
  rw [Action.wp_bind, Action.wp_ask, Action.andThen_ok]
  change Action.wp _ (if w.isCancelled t then _ else _) _ w
  cases hcancelled : w.isCancelled t with
  | true => exact wp_conclude hw name {} true fun _ => .early (.inl rfl) hleft
  | false =>
    rw [if_neg Bool.false_ne_true, Action.wp_bind, Action.wp_ask, Action.andThen_ok,
      Action.wp_bind, Action.wp_lift, Action.andThen_ok]
    have hwalk := h _ hentered
    unfold Walk.wp at hwalk
    generalize G.regime.run (G.regime.answer (.enter limit t) w).2 (walk.run.run {}) = out
      at hwalk ⊢
    obtain ⟨⟨r, n⟩, w'⟩ := out
    rw [Action.wp_bind, Action.wp_ask, Action.andThen_ok]
    have hback : ∀ {s'}, G.At s' w' → G.At s' (G.regime.answer .leave w').2 :=
      fun hat => G.at_congr (by rfl) (by rfl) hat
    match r, hwalk with
    | .ok (), ⟨s', hs', hat⟩ => exact wp_conclude (hback hat) name n false fun _ => .done hs'
    | .error (.failed e), ⟨hhalt, s', hs', hat⟩ =>
      exact .halted hhalt hs' (at_count (at_count (hback hat) _ _) _ _)
    | .error (.cut r), ⟨hhalt, s', hs', hat⟩ =>
      change Action.wp _ (if r = w.runs then _ else _) _ _
      split
      · exact wp_conclude (hback hat) name n true fun _ => .early (.inr ⟨r, hhalt⟩) hs'
      · exact .halted hhalt hs' (at_count (hback hat) _ _)

end Ground

end TwinStore
