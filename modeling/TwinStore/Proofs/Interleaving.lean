import Mathlib.Logic.Function.Basic
import TwinStore.Proofs.Permits

/-!
# Callers taking turns

A `Pool` is a world with callers that run at the same time, each a client of one pair or of pairs
derived from it. A caller goes on whenever its request is answered, so that everything may happen
between any two requests (`Pool.Step`). Of the answers little is said (`Pool.Answers`): the health
is what the record says, the lock is had by one at a time, and all the rest, what the stores answer
and how long that takes, what runs end with and who cancels, is as it may be. The schedules of a
`Machine` are among these orders, see `Machine.orderly_turns`.

What then holds of every reachable pool is `Pool.Orderly`: outages are announced one after the
other, the health is what the last announcement says, runs exclude one another, and every outage was
ended by a recovery that began after it did.

The invariant, `Pool.Sound`, has two parts. Every caller is wary with a permit that tells the truth
about the pool (`Pool.Vouches`), and the log is a `History`. A caller that changes something holds
the lock or takes it, so the permits of the others do not suffer (`Pool.Vouches.of_undisturbed`).
-/

namespace TwinStore

variable {V R α : Type}

/-! ## Pools -/

/-- What is put on record in a pool. -/
inductive Mark (V : Type) where
  /-- A caller began a run. -/
  | began (caller : Nat) (kind : RunKind) (body : Action V Report)
  /-- A run of a caller ended. -/
  | ended (caller : Nat) (kind : RunKind) (outcome : Except Halt Report)
  | wentDown (cause : StoreError)
  | wentUp

namespace Mark

/-- What a mark means to those who read the announcements. -/
def events : Mark V → List Event
  | wentDown cause => [.primaryFailed cause, .masterDown]
  | wentUp => [.masterRecovered]
  | _ => []

/-- The health has changed. -/
def IsTransition : Mark V → Prop
  | wentDown _ | wentUp => True
  | _ => False

end Mark

/-- A caller, with what is left of its program. -/
inductive Caller (V : Type) where
  | outside (rest : Marked V Unit)
  /-- A caller in the middle of a run. -/
  | inside (kind : RunKind) (rest : Prog V (Except Halt Report))
      (next : Except Halt Report → Marked V Unit)

/-- A caller asks for something, and goes on with the answer. -/
inductive Caller.Asks : Caller V → (r : Request V) → (r.Answer → Caller V) → Prop where
  | outside {r : Request V} {next : r.Answer → Marked V Unit} :
      Asks (.outside (.ask r next)) r fun a => .outside (next a)
  | inside {kind : RunKind} {r : Request V} {next : r.Answer → Prog V (Except Halt Report)}
      {after : Except Halt Report → Marked V Unit} :
      Asks (.inside kind (.ask r next) after) r fun a => .inside kind (next a) after

/-- A caller that has nothing to do. -/
def Caller.idle : Caller V := .outside (.ret ())

/-- Callers on one world, and which of them holds the lock of the record. -/
structure Pool (V : Type) where
  world : World V
  callers : Nat → Caller V := fun _ => .idle
  holder : Option Nat := none
  log : List (Mark V) := []

/-- A program whose result nobody reads. -/
def MarkedAction.forget (a : MarkedAction V α) : Marked V Unit :=
  ExceptT.run a >>= fun _ => pure ()

namespace Pool

/-- The record of the pair. -/
def outlook (p : Pool V) (core : Nat) : Outlook :=
  p.world.engines.nth core

/-- A caller goes on. -/
def put (p : Pool V) (i : Nat) (c : Caller V) : Pool V :=
  { p with callers := Function.update p.callers i c }

/-- What a caller's request does to the pool, and how it may be answered. -/
inductive Answers (core i : Nat) (p : Pool V) : (r : Request V) → r.Answer → Pool V → Prop where
  | apart {r : Request V} {a : r.Answer} (h : ¬ r.Concerns core) : Answers core i p r a p
  | looked : Answers core i p (.health core) (p.outlook core).health p
  | wentDown {cause : StoreError} :
      Answers core i p (.markDown core cause) ()
        { p with world := p.world.markDown core cause, log := p.log ++ [.wentDown cause] }
  | wentUp :
      Answers core i p (.markUp core) ()
        { p with world := p.world.markUp core, log := p.log ++ [.wentUp] }
  | locked (h : p.holder = none) :
      Answers core i p (.acquire (.engine core)) (.ok ()) { p with holder := some i }
  | halted {halt : Halt} : Answers core i p (.acquire (.engine core)) (.error halt) p
  | unlocked : Answers core i p (.release (.engine core)) () { p with holder := none }

/-- Something happens. -/
inductive Step (root : Engine V R) (p : Pool V) : Pool V → Prop where
  /-- A caller comes. -/
  | came {i : Nat} {α : Type} {a : MarkedAction V α} (hi : p.callers i = .idle)
      (ha : root.Client a) : Step root p (p.put i (.outside a.forget))
  /-- The world changes, but for the record. -/
  | elsewhere {w : World V} (hw : w.engines.nth root.core = p.outlook root.core) :
      Step root p { p with world := w }
  /-- A caller is answered. -/
  | answered {i : Nat} {c : Caller V} {r : Request V} {next : r.Answer → Caller V} {a : r.Answer}
      {p' : Pool V} (hc : p.callers i = c) (hask : c.Asks r next)
      (ha : Answers root.core i p r a p') : Step root p (p'.put i (next a))
  /-- A caller begins a run. -/
  | began {i : Nat} {kind : RunKind} {body : Action V Report}
      {next : Except Halt Report → Marked V Unit}
      (hc : p.callers i = .outside (.run kind body next)) :
      Step root p { p.put i (.inside kind body.run next) with
        log := p.log ++ [.began i kind body] }
  /-- A run ends. -/
  | ended {i : Nat} {kind : RunKind} {r : Except Halt Report}
      {next : Except Halt Report → Marked V Unit}
      (hc : p.callers i = .inside kind (.ret r) next) :
      Step root p { p.put i (.outside (next r)) with log := p.log ++ [.ended i kind r] }

/-- Pools that come about, from a pair that is new. -/
inductive Reachable (root : Engine V R) : Pool V → Prop where
  | new {w : World V} {name : String} {capacity : Nat}
      (hw : w.engines.nth root.core = .make name capacity) : Reachable root { world := w }
  | step {p p' : Pool V} (hp : Reachable root p) (h : Step root p p') : Reachable root p'

/-- A caller is answered something that has nothing to do with the record. -/
theorem Reachable.told {root : Engine V R} {p : Pool V} {i : Nat} {c : Caller V} {r : Request V}
    {next : r.Answer → Caller V} (hp : Reachable root p) (a : r.Answer) (hc : p.callers i = c)
    (hask : c.Asks r next) (hr : ¬ r.Concerns root.core) : Reachable root (p.put i (next a)) :=
  hp.step (.answered hc hask (.apart hr))

end Pool

/-! ## Announcements -/

/-- The place of an announcement in an endless series of outages. -/
def EventKind.ofPlace (n : Nat) : EventKind :=
  match n % 3 with
  | 0 => .primaryFailed
  | 1 => .masterDown
  | _ => .masterRecovered

/-- Outages are announced one after the other, and the first two announcements of each together. -/
def Outlook.InOrder (o : Outlook) : Prop :=
  o.events.map Event.kind = (List.range o.events.length).map .ofPlace ∧ o.events.length % 3 ≠ 1

/-- Announcements of outages one after the other, which leave the pair with a health. -/
structure Announces (es : List Event) (s : Health) : Prop where
  kinds : es.map Event.kind = (List.range es.length).map .ofPlace
  place : es.length % 3 = if s = .up then 0 else 2
  last : s = .down ↔ es.getLast? = some .masterDown

namespace Announces

variable {es : List Event}

theorem new : Announces [] .up :=
  ⟨rfl, rfl, by simp⟩

/-- One more announcement, at its place. -/
theorem kinds_concat (h : es.map Event.kind = (List.range es.length).map .ofPlace) {e : Event}
    (he : e.kind = .ofPlace es.length) :
    (es ++ [e]).map Event.kind = (List.range (es ++ [e]).length).map .ofPlace := by
  rw [List.map_append, h, List.length_append, List.length_singleton, List.range_succ,
    List.map_append, List.map_singleton, List.map_singleton, he]

theorem down (h : Announces es .up) (cause : StoreError) :
    Announces (es ++ [.primaryFailed cause, .masterDown]) .down := by
  have hplace : es.length % 3 = 0 := h.place
  have hnext : (es.length + 1) % 3 = 1 := by omega
  rw [show es ++ [.primaryFailed cause, .masterDown] =
    es ++ [.primaryFailed cause] ++ [.masterDown] by simp]
  refine ⟨kinds_concat (kinds_concat h.kinds ?_) ?_, ?_, by simp⟩
  · simp [EventKind.ofPlace, hplace, Event.kind]
  · simp [EventKind.ofPlace, hnext, Event.kind]
  · simp
    omega

theorem up (h : Announces es .down) : Announces (es ++ [.masterRecovered]) .up := by
  have hplace : es.length % 3 = 2 := h.place
  refine ⟨kinds_concat h.kinds ?_, ?_, by simp⟩
  · simp [EventKind.ofPlace, hplace, Event.kind]
  · simp
    omega

end Announces

/-! ## Histories -/

/-- A log that ends with a recovery that ended well and that began in an outage which nothing had
ended since. -/
def EndsOutage (recovery : Action V Report) (log : List (Mark V)) : Prop :=
  ∃ before cause since i report,
    log = before ++ .wentDown cause :: since ++
      [.began i .recovery recovery, .ended i .recovery (.ok report)] ∧
    ∀ m ∈ since, ¬ m.IsTransition

/-- A log of outages, each but the last of which was ended by a recovery, with the health that they
leave. -/
inductive History (recovery : Action V Report) : List (Mark V) → Health → Prop where
  | new : History recovery [] .up
  | run {log : List (Mark V)} {s : Health} {m : Mark V} (h : History recovery log s)
      (hm : ¬ m.IsTransition) : History recovery (log ++ [m]) s
  | down {log : List (Mark V)} (h : History recovery log .up) (cause : StoreError) :
      History recovery (log ++ [.wentDown cause]) .down
  | up {log : List (Mark V)} (h : History recovery log .down) (i : Nat) (report : Report) :
      History recovery
        (log ++ [.began i .recovery recovery, .ended i .recovery (.ok report)] ++ [.wentUp]) .up

namespace History

variable {recovery : Action V Report} {log : List (Mark V)} {s : Health}

theorem announces (h : History recovery log s) : Announces (log.flatMap Mark.events) s := by
  induction h with
  | new => exact .new
  | @run _ _ m _ hm ih =>
    cases m with
    | began | ended => simpa [Mark.events] using ih
    | wentDown | wentUp => exact absurd trivial hm
  | down _ cause ih => simpa [Mark.events] using ih.down cause
  | up _ _ _ ih => simpa [Mark.events] using ih.up

/-- A pair that is down has gone down, and nothing has happened to it since. -/
theorem wentDown (h : History recovery log .down) :
    ∃ before cause since, log = before ++ .wentDown cause :: since ∧
      ∀ m ∈ since, ¬ m.IsTransition := by
  generalize hs : Health.down = s at h
  induction h with
  | new => cases hs
  | @run log s m _ hm ih =>
    obtain ⟨before, cause, since, rfl, hsince⟩ := ih hs
    refine ⟨before, cause, since ++ [m], by simp, fun m' hmem => ?_⟩
    rcases List.mem_append.mp hmem with hmem | hmem
    · exact hsince m' hmem
    · exact List.mem_singleton.mp hmem ▸ hm
  | @down log _ cause => exact ⟨log, cause, [], rfl, by simp⟩
  | up => cases hs

/-- Where a log with one more mark is split, the mark is the last of it or the split is in the log.
-/
theorem concat_eq_append_cons {log before after : List (Mark V)} {m m' : Mark V}
    (h : log ++ [m] = before ++ m' :: after) :
    log = before ∧ m = m' ∨ ∃ after', log = before ++ m' :: after' := by
  rcases List.eq_nil_or_concat after with rfl | ⟨after', last, rfl⟩
  · exact .inl (List.append_inj' h rfl |>.imp_right fun h => by simpa using h)
  · rw [List.concat_eq_append, ← List.cons_append, ← List.append_assoc] at h
    exact .inr ⟨after', (List.append_inj' h rfl).1⟩

/-- Whatever brought the pair up came after a recovery. -/
theorem endsOutage (h : History recovery log s) {before after : List (Mark V)}
    (hlog : log = before ++ .wentUp :: after) : EndsOutage recovery before := by
  induction h generalizing after with
  | new => simp at hlog
  | run _ hm ih =>
    rcases concat_eq_append_cons hlog with ⟨-, rfl⟩ | ⟨after', hlog⟩
    · exact absurd trivial hm
    · exact ih hlog
  | down _ _ ih =>
    rcases concat_eq_append_cons hlog with ⟨-, hm⟩ | ⟨after', hlog⟩
    · cases hm
    · exact ih hlog
  | @up log h i report ih =>
    rcases concat_eq_append_cons hlog with ⟨rfl, -⟩ | ⟨after', hlog⟩
    · obtain ⟨before, cause, since, rfl, hsince⟩ := h.wentDown
      exact ⟨before, cause, since, i, report, rfl, hsince⟩
    -- Neither of the two marks of the recovery is the one in question.
    · rw [show log ++ [.began i .recovery recovery, .ended i .recovery (.ok report)] =
        log ++ [.began i .recovery recovery] ++ [.ended i .recovery (.ok report)] by simp] at hlog
      rcases concat_eq_append_cons hlog with ⟨-, hm⟩ | ⟨after', hlog⟩
      · cases hm
      · rcases concat_eq_append_cons hlog with ⟨-, hm⟩ | ⟨after', hlog⟩
        · cases hm
        · exact ih hlog

end History

/-! ## The invariant -/

namespace Pool

variable {root : Engine V R} {p p' : Pool V} {i j : Nat} {s s' : Permit}

/-- What a caller's permit says of the pool is true. -/
def Holds (root : Engine V R) (p : Pool V) (i : Nat) : Permit → Prop
  | .free => p.holder ≠ some i
  | .held => p.holder = some i
  | .up => p.holder = some i ∧ (p.outlook root.core).health = .up
  | .down => p.holder = some i ∧ (p.outlook root.core).health = .down
  | .recovered => p.holder = some i ∧ ∃ log report, History (root.recovery none) log .down ∧
      p.log = log ++ [.began i .recovery (root.recovery none), .ended i .recovery (.ok report)]

/-- A caller is wary with a true permit. Inside a run it holds the lock and leaves the record alone;
a recovery began while the pair was down. -/
def Vouches (root : Engine V R) (p : Pool V) (i : Nat) : Caller V → Prop
  | .outside rest => ∃ s, p.Holds root i s ∧ rest.Wary root s fun _ s' => s' = .free
  | .inside kind rest next =>
    p.holder = some i ∧ rest.Avoids root.core ∧
      (kind = .recovery → ∃ log, History (root.recovery none) log .down ∧
        p.log = log ++ [.began i .recovery (root.recovery none)]) ∧
      ∀ r, (next r).Wary root (.afterRun kind r) fun _ s' => s' = .free

/-- The log accounts for the record. -/
structure Chronicled (root : Engine V R) (p : Pool V) : Prop where
  history : History (root.recovery none) p.log (p.outlook root.core).health
  announced : (p.outlook root.core).events = p.log.flatMap Mark.events

/-- What a step preserves. -/
structure Sound (root : Engine V R) (p : Pool V) : Prop extends p.Chronicled root where
  vouched : ∀ i, p.Vouches root i (p.callers i)

/-- The lock has not been given or taken from a caller, and the record has not changed while it had
the lock. -/
def Undisturbed (root : Engine V R) (p p' : Pool V) (i : Nat) : Prop :=
  (p'.holder = some i ↔ p.holder = some i) ∧
    (p.holder = some i → p'.outlook root.core = p.outlook root.core ∧ p'.log = p.log)

theorem Holds.of_undisturbed (hs : p.Holds root i s) (h : p.Undisturbed root p' i) :
    p'.Holds root i s := by
  obtain ⟨hiff, hsame⟩ := h
  cases s with
  | free => exact fun hi => hs (hiff.mp hi)
  | held => exact hiff.mpr hs
  | up | down => exact ⟨hiff.mpr hs.1, (hsame hs.1).1 ▸ hs.2⟩
  | recovered =>
    obtain ⟨hi, log, report, hlog, he⟩ := hs
    exact ⟨hiff.mpr hi, log, report, hlog, (hsame hi).2.trans he⟩

theorem Vouches.of_undisturbed {c : Caller V} (hc : p.Vouches root i c)
    (h : p.Undisturbed root p' i) : p'.Vouches root i c := by
  cases c with
  | outside rest =>
    obtain ⟨s, hs, hrest⟩ := hc
    exact ⟨s, hs.of_undisturbed h, hrest⟩
  | inside kind rest next =>
    obtain ⟨hi, hrest, hrec, hnext⟩ := hc
    refine ⟨h.1.mpr hi, hrest, fun hk => ?_, hnext⟩
    obtain ⟨log, hlog, he⟩ := hrec hk
    exact ⟨log, hlog, (h.2 hi).2.trans he⟩

/-- What one who holds the lock does, and keeps or gives back, does not disturb the others. -/
theorem undisturbed_of_holder (h : p.holder = some i) (h' : p'.holder = some i ∨ p'.holder = none)
    (hij : j ≠ i) : p.Undisturbed root p' j := by
  have hj : p.holder ≠ some j := by
    rw [h]
    exact fun e => hij (Option.some.inj e).symm
  refine ⟨⟨fun hj' => ?_, fun hj' => absurd hj' hj⟩, fun hj' => absurd hj' hj⟩
  rcases h' with h' | h' <;> rw [h'] at hj'
  · exact absurd (Option.some.inj hj').symm hij
  · cases hj'

theorem Holds.holder (hs : p.Holds root i s) (hfree : s ≠ .free) : p.holder = some i := by
  cases s with
  | free => exact absurd rfl hfree
  | held => exact hs
  | up | down | recovered => exact hs.1

/-! ### What a step preserves -/

theorem nth_markDown (w : World V) (core : Nat) (cause : StoreError) :
    (w.markDown core cause).engines.nth core = (w.engines.nth core).fail cause :=
  Shelf.nth_put_self _ _ _

theorem nth_markUp (w : World V) (core : Nat) :
    (w.markUp core).engines.nth core = (w.engines.nth core).recover :=
  Shelf.nth_put_self _ _ _

theorem Chronicled.down (hp : p.Chronicled root) (hup : (p.outlook root.core).health = .up)
    (cause : StoreError) :
    Chronicled root { p with
      world := p.world.markDown root.core cause, log := p.log ++ [.wentDown cause] } := by
  have hout : (p.world.markDown root.core cause).engines.nth root.core =
      (p.outlook root.core).fail cause := nth_markDown _ _ _
  refine ⟨?_, ?_⟩
  · unfold outlook
    rw [hout]
    exact .down (hup ▸ hp.history) cause
  · unfold outlook
    rw [hout, List.flatMap_append, ← hp.announced]
    rfl

theorem Chronicled.up (hp : p.Chronicled root) {log : List (Mark V)} {report : Report}
    (hlog : History (root.recovery none) log .down)
    (he : p.log =
      log ++ [.began i .recovery (root.recovery none), .ended i .recovery (.ok report)]) :
    Chronicled root { p with
      world := p.world.markUp root.core, log := p.log ++ [.wentUp] } := by
  have hout : (p.world.markUp root.core).engines.nth root.core = (p.outlook root.core).recover :=
    nth_markUp _ _
  refine ⟨?_, ?_⟩
  · unfold outlook
    rw [hout, he]
    exact hlog.up i report
  · unfold outlook
    rw [hout, List.flatMap_append, ← hp.announced]
    rfl

/-- Whatever a wary caller is answered, its permit stays true and the log goes on accounting for the
record, and nobody else is disturbed. -/
theorem Answers.sound {r : Request V} {a : r.Answer} (ha : Answers root.core i p r a p')
    (ht : s.Turns root.core r a s') (hs : p.Holds root i s) (hp : p.Chronicled root) :
    p'.Holds root i s' ∧ p'.Chronicled root ∧ ∀ j, j ≠ i → p.Undisturbed root p' j := by
  have hsame : ∀ j, p.Undisturbed root p j := fun j => ⟨Iff.rfl, fun _ => ⟨rfl, rfl⟩⟩
  cases ha with
  | apart h =>
    cases ht with
    | apart => exact ⟨hs, hp, fun j _ => hsame j⟩
    | _ => exact absurd rfl h
  | looked =>
    cases ht with
    | apart h => exact absurd rfl h
    | looked =>
      refine ⟨?_, hp, fun j _ => hsame j⟩
      by_cases hfree : s = .free
      · subst hfree
        exact hs
      · have hi := hs.holder hfree
        cases hh : (p.outlook root.core).health <;> cases s
        all_goals first | exact absurd rfl hfree | exact ⟨hi, hh⟩
  | wentDown =>
    cases ht with
    | apart h => exact absurd rfl h
    | wentDown =>
      refine ⟨⟨hs.1, ?_⟩, hp.down hs.2 _, fun j => undisturbed_of_holder hs.1 (.inl hs.1)⟩
      exact congrArg Outlook.health (nth_markDown _ _ _)
  | wentUp =>
    cases ht with
    | apart h => exact absurd rfl h
    | wentUp =>
      obtain ⟨hi, log, report, hlog, he⟩ := hs
      refine ⟨⟨hi, ?_⟩, hp.up hlog he, fun j => undisturbed_of_holder hi (.inl hi)⟩
      exact congrArg Outlook.health (nth_markUp _ _)
  | locked h =>
    cases ht with
    | apart h => exact absurd rfl h
    | locked =>
      refine ⟨rfl, ⟨hp.1, hp.2⟩, fun j hij => ⟨⟨fun hj => ?_, fun hj => ?_⟩, fun _ => ⟨rfl, rfl⟩⟩⟩
      · exact absurd (Option.some.inj hj).symm hij
      · rw [h] at hj
        cases hj
  | halted =>
    cases ht with
    | apart h => exact absurd rfl h
    | halted => exact ⟨hs, hp, fun j _ => hsame j⟩
  | unlocked =>
    cases ht with
    | apart h => exact absurd rfl h
    | unlocked hfree =>
      exact ⟨nofun, ⟨hp.1, hp.2⟩, fun j => undisturbed_of_holder (hs.holder hfree) (.inr rfl)⟩

theorem Answers.callers {core : Nat} {r : Request V} {a : r.Answer}
    (ha : Answers core i p r a p') : p'.callers = p.callers := by
  cases ha <;> rfl

/-- A caller has gone on, and nobody else was disturbed. -/
theorem Sound.of_put (hp : p.Sound root) {c : Caller V}
    (hcallers : p'.callers = Function.update p.callers i c) (hc : p'.Vouches root i c)
    (hlog : p'.Chronicled root) (hothers : ∀ j, j ≠ i → p.Undisturbed root p' j) :
    p'.Sound root := by
  refine { toChronicled := hlog, vouched := fun j => ?_ }
  rw [hcallers]
  by_cases hij : j = i
  · subst hij
    rw [Function.update_self]
    exact hc
  · rw [Function.update_of_ne hij]
    exact (hp.vouched j).of_undisturbed (hothers j hij)

theorem Sound.answered (hp : p.Sound root) {c : Caller V} {r : Request V}
    {next : r.Answer → Caller V} {a : r.Answer} (hc : p.callers i = c)
    (hask : c.Asks r next) (ha : Answers root.core i p r a p') :
    (p'.put i (next a)).Sound root := by
  suffices h : p'.Vouches root i (next a) ∧ p'.Chronicled root ∧
      ∀ j, j ≠ i → p.Undisturbed root p' j by
    obtain ⟨hnext, hlog, hothers⟩ := h
    have hcallers : (p'.put i (next a)).callers = Function.update p.callers i (next a) := by
      rw [put, ha.callers]
    have hnext' : (p'.put i (next a)).Vouches root i (next a) :=
      hnext.of_undisturbed ⟨Iff.rfl, fun _ => ⟨rfl, rfl⟩⟩
    exact hp.of_put hcallers hnext' ⟨hlog.1, hlog.2⟩ hothers
  have hv := hp.vouched i
  rw [hc] at hv
  cases hask with
  | outside =>
    obtain ⟨s, hs, hrest⟩ := hv
    obtain ⟨s', ht, hrest⟩ := hrest a
    obtain ⟨hs', hlog, hothers⟩ := ha.sound ht hs hp.toChronicled
    exact ⟨⟨s', hs', hrest⟩, hlog, hothers⟩
  | inside =>
    obtain ⟨hi, hrest, hrec, hnext⟩ := hv
    have ht : Permit.Turns root.core .held r a .held := .apart hrest.1
    obtain ⟨-, hlog, hothers⟩ := ha.sound ht hi hp.toChronicled
    have hsame : p' = p := by
      cases ha with
      | apart => rfl
      | _ => exact absurd rfl hrest.1
    subst hsame
    exact ⟨⟨hi, hrest.2 a, hrec, hnext⟩, hlog, hothers⟩

theorem Sound.step (hp : p.Sound root) (hroot : root.IsRoot) (h : Step root p p') :
    p'.Sound root := by
  cases h with
  | @came i α a hi ha =>
    have hv := hp.vouched i
    rw [hi] at hv
    obtain ⟨s, hs, rfl⟩ := hv
    refine hp.of_put rfl ⟨.free, hs, ?_⟩ ⟨hp.history, hp.announced⟩ fun j _ =>
      ⟨Iff.rfl, fun _ => ⟨rfl, rfl⟩⟩
    exact Marked.wary_bind (Marked.wary_mono (ha.abides hroot) fun _ _ hs => hs)
  | elsewhere hw =>
    refine { history := ?_, announced := ?_, vouched := fun j => ?_ }
    · exact (congrArg Outlook.health hw).symm ▸ hp.history
    · exact (congrArg Outlook.events hw).trans hp.announced
    · exact (hp.vouched j).of_undisturbed ⟨Iff.rfl, fun _ => ⟨hw, rfl⟩⟩
  | answered hc hask ha => exact hp.answered hc hask ha
  | @began i kind body next hc =>
    have hv := hp.vouched i
    rw [hc] at hv
    obtain ⟨s, hs, ⟨hfree, hkind⟩, hbody, hnext⟩ := hv
    have hi := hs.holder hfree
    refine hp.of_put rfl ⟨hi, hbody, fun hk => ?_, hnext⟩ ⟨hp.history.run nofun, ?_⟩
      fun j => undisturbed_of_holder hi (.inl hi)
    · obtain ⟨rfl, rfl⟩ := hkind hk
      subst hk
      exact ⟨p.log, hs.2 ▸ hp.history, rfl⟩
    · exact hp.announced.trans (by simp [Mark.events])
  | @ended i kind r next hc =>
    have hv := hp.vouched i
    rw [hc] at hv
    obtain ⟨hi, -, hrec, hnext⟩ := hv
    refine hp.of_put rfl ⟨.afterRun kind r, ?_, hnext r⟩ ⟨hp.history.run nofun, ?_⟩
      fun j => undisturbed_of_holder hi (.inl hi)
    · cases kind with
      | repair | manual _ => exact hi
      | recovery =>
        cases r with
        | error _ => exact hi
        | ok report =>
          obtain ⟨log, hlog, he⟩ := hrec rfl
          exact ⟨hi, log, report, hlog, by simp [he]⟩
    · exact hp.announced.trans (by simp [Mark.events])

theorem Reachable.sound (hroot : root.IsRoot) (hp : Reachable root p) : p.Sound root := by
  induction hp with
  | @new w name capacity hw =>
    have hout : outlook { world := w } root.core = .make name capacity := hw
    refine { history := ?_, announced := ?_, vouched := fun j => ⟨.free, nofun, rfl⟩ }
    · rw [hout]
      exact .new
    · rw [hout]
      rfl
  | step _ h ih => exact ih.step hroot h

/-! ### What holds of every pool -/

/-- Outages of the pair follow one another in order, and runs exclude one another. -/
structure Orderly (root : Engine V R) (p : Pool V) : Prop where
  /-- The announcements are those of outages one after the other, the first two of each together. -/
  inOrder : (p.outlook root.core).InOrder
  /-- The last announcement tells the health. -/
  health_iff : (p.outlook root.core).health = .down ↔
    (p.outlook root.core).events.getLast? = some .masterDown
  /-- At most one run is in flight. -/
  exclusive : ∀ i j kind kind' rest rest' next next', p.callers i = .inside kind rest next →
    p.callers j = .inside kind' rest' next' → i = j
  /-- The log is what is announced, -/
  announced : (p.outlook root.core).events = p.log.flatMap Mark.events
  /-- and whenever the pair went up in it, a recovery of the root pair had ended well just before,
  and had begun since the pair had gone down. -/
  recovered : ∀ before after, p.log = before ++ .wentUp :: after →
    EndsOutage (root.synchronizer.run root.secondary root.primary none) before

theorem Sound.orderly (hp : p.Sound root) (hroot : root.IsRoot) : p.Orderly root := by
  have hann := hp.history.announces
  rw [← hp.announced] at hann
  refine ⟨⟨hann.kinds, ?_⟩, hann.last, ?_, hp.announced, fun before after => ?_⟩
  · rw [hann.place]
    split <;> decide
  · intro i j kind kind' rest rest' next next' hi hj
    have hvi := hp.vouched i
    have hvj := hp.vouched j
    rw [hi] at hvi
    rw [hj] at hvj
    exact Option.some.inj (hvi.1.symm.trans hvj.1)
  · rw [← hroot]
    exact hp.history.endsOutage

/-- Outages come one after the other, in whatever order the callers of a pair and of the pairs
derived from it take their turns and whatever they are answered. -/
theorem outages_in_order {core : Nat} {name : String} {primary secondary : R}
    {synchronizer : Synchronizer V R} {p : Pool V}
    (hp : Reachable (.root core name primary secondary synchronizer) p) :
    p.Orderly (.root core name primary secondary synchronizer) :=
  (hp.sound Engine.isRoot_root).orderly Engine.isRoot_root

/-- Two base maps; a recovery copies the second to the first. -/
def basePair : Engine Nat (MapStore Nat) :=
  .root 0 "twins" (Backend.map 0) (Backend.map 1) (Converge.Strategy.copy.synchronizer 30000)

theorem basePair_in_order : ∃ p, Reachable basePair p ∧ p.Orderly basePair ∧
    (p.outlook 0).events.map Event.kind = [.primaryFailed, .masterDown, .masterRecovered] := by
  have hkin : basePair.Kin basePair := .root (Engine.runsApart_maps 0 _ 0 1 _ _)
  have h : Reachable basePair { world := { engines := Shelf.put ∅ 0 (.make "twins" 1) } } :=
    .new rfl
  -- One caller has seen the primary fail; before it gives the lock back, another comes that has
  -- seen it at work.
  replace h := h.step (.came (i := 0) rfl (.markDown hkin (.backend "refused")))
  replace h := h.step (.answered (i := 0) rfl .outside .looked)
  replace h := h.step (.answered (i := 0) rfl .outside (.locked rfl))
  replace h := h.step (.answered (i := 0) rfl .outside .looked)
  replace h := h.step (.answered (i := 0) rfl .outside .wentDown)
  replace h := h.step (.came (i := 1) rfl (.recoverIfDown hkin))
  replace h := h.step (.answered (i := 1) rfl .outside .looked)
  replace h := h.step (.answered (i := 0) rfl .outside .unlocked)
  replace h := h.step (.answered (i := 1) rfl .outside (.locked rfl))
  replace h := h.step (.answered (i := 1) rfl .outside .looked)
  -- Both maps are empty.
  replace h := h.step (.began (i := 1) rfl)
  replace h := h.told (i := 1) ({} : Grants) rfl .inside nofun
  replace h := h.told (i := 1) ({} : Grants) rfl .inside nofun
  replace h := h.told (i := 1) false rfl .inside nofun
  replace h := h.told (i := 1) (0 : Nat) rfl .inside nofun
  replace h := h.told (i := 1) ({} : Grants) rfl .inside nofun
  replace h := h.told (i := 1) (Except.ok (.full [])) rfl .inside nofun
  replace h := h.told (i := 1) ({} : Grants) rfl .inside nofun
  replace h := h.told (i := 1) (Except.ok (.full [])) rfl .inside nofun
  replace h := h.told (i := 1) () rfl .inside nofun
  replace h := h.told (i := 1) () rfl .inside nofun
  replace h := h.told (i := 1) () rfl .inside nofun
  replace h := h.told (i := 1) () rfl .inside nofun
  replace h := h.told (i := 1) () rfl .inside nofun
  replace h := h.step (.ended (i := 1) rfl)
  replace h := h.step (.answered (i := 1) rfl .outside .wentUp)
  exact ⟨_, h, outages_in_order h, rfl⟩

end Pool

end TwinStore
