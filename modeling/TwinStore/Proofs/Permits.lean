import TwinStore.Proofs.Apart
import TwinStore.Proofs.Marked

/-!
# Who may change a health record

Engines that share a health record change it only under its lock, and only after they have looked at
the health again: up before they take the pair down, down before they start a recovery, and up again
only after the recovery. A `Permit` is what a program that follows this discipline has learnt of the
record, and `Marked.Wary` says that a program follows it whatever it is answered.

Clients of an engine and of the engines derived from it (`Engine.Client`) are wary: `Client.wary`.
Nothing is assumed of a client but that what else it does has nothing to do with the record; engines
keep theirs to themselves.
-/

namespace TwinStore

variable {V R α β : Type}

/-! ## Permits -/

/-- What a program has learnt of a health record. -/
inductive Permit where
  /-- The program does not hold the lock. -/
  | free
  /-- The program holds the lock, and has not looked since. -/
  | held
  /-- The program holds the lock, and the pair is up. -/
  | up
  /-- The program holds the lock, and the pair is down. -/
  | down
  /-- The program holds the lock, the pair is down, and a recovery has just ended well. -/
  | recovered

namespace Permit

/-- A look at the health means something to whoever holds the lock. -/
def seeing : Permit → Health → Permit
  | free, _ => free
  | _, .up => up
  | _, .down => down

/-- What a program may ask with a permit, and the permit it has once it is answered. -/
inductive Turns (core : Nat) : Permit → (r : Request V) → r.Answer → Permit → Prop where
  | apart {s : Permit} {r : Request V} {a : r.Answer} (h : ¬ r.Concerns core) : Turns core s r a s
  | looked {s : Permit} {h : Health} : Turns core s (.health core) h (s.seeing h)
  | wentDown {cause : StoreError} : Turns core up (.markDown core cause) () down
  | wentUp : Turns core recovered (.markUp core) () up
  | locked : Turns core free (.acquire (.engine core)) (.ok ()) held
  | halted {halt : Halt} : Turns core free (.acquire (.engine core)) (.error halt) free
  | unlocked {s : Permit} (h : s ≠ free) : Turns core s (.release (.engine core)) () free

/-- Whether a run may begin: under the lock, and a recovery only while the pair is down. -/
def Allows (recovery : Action V Report) (s : Permit) (kind : RunKind) (body : Action V Report) :
    Prop :=
  s ≠ free ∧ (kind = .recovery → s = down ∧ body = recovery)

/-- The permit of a program after a run. -/
def afterRun : RunKind → Except Halt Report → Permit
  | .recovery, .ok _ => recovered
  | _, _ => held

theorem afterRun_ne_free (kind : RunKind) (r : Except Halt Report) : afterRun kind r ≠ free := by
  cases kind <;> cases r <;> simp [afterRun]

end Permit

/-! ## Wary programs -/

namespace Marked

/-- With a permit, the program does nothing that the permit does not allow, whatever it is answered,
and ends with a result and a permit as `post` wants. -/
def Wary (root : Engine V R) : Marked V α → Permit → (α → Permit → Prop) → Prop
  | ret a, s, post => post a s
  | ask r next, s, post => ∀ a, ∃ s', s.Turns root.core r a s' ∧ (next a).Wary root s' post
  | run kind body next, s, post =>
    s.Allows (root.recovery none) kind body ∧ body.Avoids root.core ∧
      ∀ r, (next r).Wary root (.afterRun kind r) post

variable {root : Engine V R} {s : Permit}

theorem wary_mono {m : Marked V α} {post post' : α → Permit → Prop} (h : m.Wary root s post)
    (hp : ∀ a s', post a s' → post' a s') : m.Wary root s post' := by
  induction m generalizing s with
  | ret a => exact hp a s h
  | ask r next ih =>
    intro a
    obtain ⟨s', hs, ha⟩ := h a
    exact ⟨s', hs, ih a ha⟩
  | run kind body next ih => exact ⟨h.1, h.2.1, fun r => ih r (h.2.2 r)⟩

theorem wary_bind {m : Marked V α} {f : α → Marked V β} {post : β → Permit → Prop}
    (h : m.Wary root s fun a s' => (f a).Wary root s' post) : (m >>= f).Wary root s post := by
  induction m generalizing s with
  | ret a => exact h
  | ask r next ih =>
    intro a
    obtain ⟨s', hs, ha⟩ := h a
    exact ⟨s', hs, ih a ha⟩
  | run kind body next ih => exact ⟨h.1, h.2.1, fun r => ih r (h.2.2 r)⟩

/-- Whatever leaves the record alone is allowed with any permit. -/
theorem wary_ofProg {p : Prog V α} (h : p.Avoids root.core) :
    (ofProg p).Wary root s fun _ s' => s' = s := by
  induction p with
  | ret a => rfl
  | ask r next ih => exact fun a => ⟨s, .apart h.1, ih a (h.2 a)⟩

end Marked

namespace MarkedAction

variable {root : Engine V R} {s : Permit}

/-- `Marked.Wary`, of an action. -/
def Wary (root : Engine V R) (a : MarkedAction V α) (s : Permit)
    (post : Except Halt α → Permit → Prop) : Prop :=
  Marked.Wary root (ExceptT.run a) s post

theorem wary_mono {a : MarkedAction V α} {post post' : Except Halt α → Permit → Prop}
    (h : a.Wary root s post) (hp : ∀ r s', post r s' → post' r s') : a.Wary root s post' :=
  Marked.wary_mono h hp

theorem wary_bind {a : MarkedAction V α} {f : α → MarkedAction V β}
    {post : Except Halt β → Permit → Prop}
    (h : a.Wary root s fun r s' => match r with
      | .ok x => (f x).Wary root s' post
      | .error halt => post (.error halt) s') : (a >>= f).Wary root s post := by
  refine Marked.wary_bind (Marked.wary_mono h fun r s' hr => ?_)
  cases r <;> exact hr

theorem wary_attempt {a : MarkedAction V α}
    {post : Except Halt (Except StoreError α) → Permit → Prop}
    (h : a.Wary root s fun r s' => post (attempted r) s') :
    a.attempt.Wary root s post := by
  unfold Wary
  rw [run_attempt]
  exact Marked.wary_bind (Marked.wary_mono h fun _ _ hr => hr)

theorem wary_lift {a : Action V α} (h : a.Avoids root.core) :
    Wary root (liftM a) s fun _ s' => s' = s :=
  Marked.wary_ofProg h

/-- Whatever holds the lock gives it back. -/
theorem wary_locked {body : MarkedAction V α} {post : Except Halt α → Permit → Prop}
    (hbody : body.Wary root .held fun r s' => s' ≠ .free ∧ post r .free)
    (hhalt : ∀ halt, post (.error halt) .free) :
    (locked (.engine root.core) body).Wary root .free post := by
  refine wary_bind fun a => ?_
  cases a with
  | error halt => exact ⟨.free, .halted, hhalt halt⟩
  | ok _ =>
    refine ⟨.held, .locked, Marked.wary_bind (Marked.wary_mono hbody ?_)⟩
    exact fun r s' ⟨hs, hr⟩ _ => ⟨.free, .unlocked hs, hr⟩

theorem wary_run {kind : RunKind} {body : Action V Report}
    {post : Except Halt Report → Permit → Prop}
    (hs : s.Allows (root.recovery none) kind body) (hbody : body.Avoids root.core)
    (h : ∀ r, post r (.afterRun kind r)) : (run kind body).Wary root s post :=
  ⟨hs, hbody, h⟩

theorem wary_health {post : Except Halt Health → Permit → Prop}
    (h : ∀ health, post (.ok health) (s.seeing health)) : Wary root (liftM root.health) s post :=
  fun health => ⟨_, .looked, h health⟩

/-- An action that is wary all along, and holds the lock neither before nor after. -/
def Abides (root : Engine V R) (a : MarkedAction V α) : Prop :=
  a.Wary root .free fun _ s' => s' = .free

theorem Abides.pure (x : α) : Abides root (pure x : MarkedAction V α) := rfl

theorem Abides.lift {a : Action V α} (h : a.Avoids root.core) :
    Abides root (liftM a : MarkedAction V α) :=
  wary_lift h

theorem Abides.bind {a : MarkedAction V α} {f : α → MarkedAction V β} (ha : a.Abides root)
    (hf : ∀ x, (f x).Abides root) : (a >>= f).Abides root := by
  refine wary_bind (wary_mono ha ?_)
  rintro (halt | x) _ rfl
  · rfl
  · exact hf x

theorem Abides.attempt {a : MarkedAction V α} (ha : a.Abides root) : a.attempt.Abides root :=
  wary_attempt ha

end MarkedAction

/-! ## Engines that share a record -/

namespace Engine

open MarkedAction (Abides)

variable {root : Engine V R} {H : Type} {e : Engine V H}

/-- The recovery of the pair is a run over its own stores, from its secondary to its primary. -/
def IsRoot (root : Engine V R) : Prop :=
  root.recovery = root.synchronizer.run root.secondary root.primary

theorem isRoot_root {core : Nat} {name : String} {primary secondary : R}
    {synchronizer : Synchronizer V R} :
    (Engine.root core name primary secondary synchronizer).IsRoot := rfl

/-- An engine shares the record of `root` if it is `root` or derived from one that shares it. Its
runs have nothing to do with the record. -/
inductive Kin (root : Engine V R) : {H : Type} → Engine V H → Prop where
  | root (hs : root.RunsApart root.core) : Kin root root
  | derive {H C : Type} {e : Engine V H} (he : Kin root e) (primary secondary : C)
      (synchronizer : Synchronizer V C)
      (hs : (e.derive primary secondary synchronizer).RunsApart root.core) :
      Kin root (e.derive primary secondary synchronizer)

namespace Kin

theorem core (he : root.Kin e) : e.core = root.core := by
  induction he with
  | root => rfl
  | derive _ _ _ _ _ ih => exact ih

theorem recovery (he : root.Kin e) : e.recovery = root.recovery := by
  induction he with
  | root => rfl
  | derive _ _ _ _ _ ih => exact ih

theorem runsApart (he : root.Kin e) : e.RunsApart root.core := by
  cases he with
  | root hs => exact hs
  | derive _ _ _ _ hs => exact hs

theorem root_runsApart (he : root.Kin e) : root.RunsApart root.core := by
  induction he with
  | root hs => exact hs
  | derive _ _ _ _ _ ih => exact ih

end Kin

/-! ### Transitions and runs -/

theorem abides_health (he : root.Kin e) : Abides root (liftM e.health) := by
  unfold health
  rw [he.core]
  exact fun health => ⟨.free, .looked, rfl⟩

theorem abides_markDown (he : root.Kin e) (cause : StoreError) :
    Abides root (liftM (e.markDown cause)) := by
  have hcore := he.core
  unfold markDown health
  rw [hcore, MarkedAction.lift_bind]
  refine MarkedAction.wary_bind (MarkedAction.wary_health fun h => ?_)
  cases h with
  | down => rfl
  | up =>
    dsimp only
    rw [if_pos rfl, MarkedAction.lift_locked, MarkedAction.lift_bind]
    refine MarkedAction.wary_locked (MarkedAction.wary_bind ?_) fun _ => rfl
    refine MarkedAction.wary_health fun h => ?_
    cases h with
    | down => exact ⟨nofun, rfl⟩
    | up => exact fun _ => ⟨.down, .wentDown, nofun, rfl⟩

theorem abides_markedRecoverIfDown (hroot : root.IsRoot) (he : root.Kin e) :
    Abides root e.markedRecoverIfDown := by
  have hcore := he.core
  unfold markedRecoverIfDown health
  rw [hcore, he.recovery]
  refine MarkedAction.wary_bind (MarkedAction.wary_health fun h => ?_)
  cases h with
  | up => rfl
  | down =>
    refine MarkedAction.wary_locked (MarkedAction.wary_bind ?_) fun _ => rfl
    refine MarkedAction.wary_health fun h => ?_
    cases h with
    | up => exact ⟨nofun, rfl⟩
    | down =>
      refine MarkedAction.wary_bind (MarkedAction.wary_attempt ?_)
      refine MarkedAction.wary_run ⟨nofun, fun _ => ⟨rfl, rfl⟩⟩ ?_ ?_
      · rw [hroot]
        exact (he.root_runsApart none).2
      · rintro ((cause | n) | report)
        · exact ⟨nofun, rfl⟩
        · exact ⟨nofun, rfl⟩
        · exact fun _ => ⟨.up, .wentUp, nofun, rfl⟩

theorem abides_markedRepairSecondary (he : root.Kin e) : Abides root e.markedRepairSecondary := by
  unfold markedRepairSecondary
  rw [he.core]
  refine MarkedAction.wary_locked (MarkedAction.wary_bind ?_) fun _ => rfl
  refine MarkedAction.wary_attempt (MarkedAction.wary_run ⟨nofun, nofun⟩ (he.runsApart none).1 ?_)
  rintro ((cause | n) | report) <;> exact ⟨nofun, rfl⟩

theorem abides_markedResync (he : root.Kin e) (direction : Direction) (t : Token) :
    Abides root (e.markedResync direction t) := by
  unfold markedResync
  rw [he.core]
  refine MarkedAction.wary_locked (MarkedAction.wary_run ⟨nofun, nofun⟩ ?_ ?_) fun _ => rfl
  · cases direction with
    | primaryToSecondary => exact (he.runsApart t).1
    | secondaryToPrimary => exact (he.runsApart t).2
  · exact fun r => ⟨Permit.afterRun_ne_free _ r, rfl⟩

/-! ### Templates -/

theorem abides_noteSecondaryError : Abides root (liftM e.noteSecondaryError) :=
  .lift ⟨nofun, fun _ => trivial⟩

theorem abides_ofExcept (a : Except StoreError α) :
    Abides root (liftM (Action.ofExcept (V := V) a)) := by
  cases a <;> rfl

variable {op : H → MarkedAction V α}

theorem abides_markedFallback (hroot : root.IsRoot) (he : root.Kin e)
    (hop : ∀ h, Abides root (op h)) : Abides root (e.markedFallback op) := by
  refine (hop e.primary).attempt.bind fun r => ?_
  cases r with
  | ok a => exact (abides_markedRecoverIfDown hroot he).bind fun _ => .pure a
  | error cause => exact (abides_markDown he cause).bind fun _ => hop e.secondary

theorem abides_markedReplicate (hroot : root.IsRoot) (he : root.Kin e)
    (hop : ∀ h, Abides root (op h)) : Abides root (e.markedReplicate op) := by
  refine (hop e.primary).attempt.bind fun r => (hop e.secondary).attempt.bind fun r' => ?_
  cases r with
  | ok a =>
    have hrec : Abides root (e.markedRecoverIfDown >>= fun _ => pure a) :=
      (abides_markedRecoverIfDown hroot he).bind fun _ => .pure a
    cases r' with
    | ok _ => exact hrec
    | error _ => exact abides_noteSecondaryError.bind fun _ => hrec
  | error cause => exact (abides_markDown he cause).bind fun _ => abides_ofExcept r'

theorem abides_markedBackup [WriteOutcome α] (hroot : root.IsRoot) (he : root.Kin e)
    (hop : ∀ h, Abides root (op h)) : Abides root (e.markedBackup op) := by
  refine (hop e.primary).attempt.bind fun r => ?_
  cases r with
  | error cause => exact (abides_markDown he cause).bind fun _ => hop e.secondary
  | ok a =>
    dsimp only
    split
    · refine (hop e.secondary).attempt.bind fun r' => ?_
      refine (abides_markedRecoverIfDown hroot he).bind fun _ => ?_
      cases r' with
      | ok _ => exact .pure a
      | error _ =>
        refine abides_noteSecondaryError.bind fun _ => ?_
        exact (abides_markedRepairSecondary he).bind fun _ => .pure a
    · exact .pure a

/-! ### Clients -/

/-- A program of the clients of `root` and of the engines that share its record: calls of these, one
after another or one inside another, and anything else that has nothing to do with the record. -/
inductive Client (root : Engine V R) : {α : Type} → MarkedAction V α → Prop where
  | apart {α : Type} {a : Action V α} (ha : a.Avoids root.core) : Client root (liftM a)
  | bind {α β : Type} {a : MarkedAction V α} {f : α → MarkedAction V β} (ha : Client root a)
      (hf : ∀ x, Client root (f x)) : Client root (a >>= f)
  | attempt {α : Type} {a : MarkedAction V α} (ha : Client root a) : Client root a.attempt
  | health {H : Type} {e : Engine V H} (he : root.Kin e) : Client root (liftM e.health)
  | markDown {H : Type} {e : Engine V H} (he : root.Kin e) (cause : StoreError) :
      Client root (liftM (e.markDown cause))
  | recoverIfDown {H : Type} {e : Engine V H} (he : root.Kin e) : Client root e.markedRecoverIfDown
  | fallback {H α : Type} {e : Engine V H} (he : root.Kin e) {op : H → MarkedAction V α}
      (hop : ∀ h, Client root (op h)) : Client root (e.markedFallback op)
  | replicate {H α : Type} {e : Engine V H} (he : root.Kin e) {op : H → MarkedAction V α}
      (hop : ∀ h, Client root (op h)) : Client root (e.markedReplicate op)
  | backup {H α : Type} [WriteOutcome α] {e : Engine V H} (he : root.Kin e)
      {op : H → MarkedAction V α} (hop : ∀ h, Client root (op h)) : Client root (e.markedBackup op)
  | resync {H : Type} {e : Engine V H} (he : root.Kin e) (direction : Direction) (t : Token) :
      Client root (e.markedResync direction t)

theorem Client.abides (hroot : root.IsRoot) {a : MarkedAction V α} (h : root.Client a) :
    a.Abides root := by
  induction h with
  | apart ha => exact .lift ha
  | bind _ _ iha ihf => exact iha.bind ihf
  | attempt _ ih => exact ih.attempt
  | health he => exact abides_health he
  | markDown he cause => exact abides_markDown he cause
  | recoverIfDown he => exact abides_markedRecoverIfDown hroot he
  | fallback he _ ih => exact abides_markedFallback hroot he ih
  | replicate he _ ih => exact abides_markedReplicate hroot he ih
  | backup he _ ih => exact abides_markedBackup hroot he ih
  | resync he direction t => exact abides_markedResync he direction t

end Engine

end TwinStore
