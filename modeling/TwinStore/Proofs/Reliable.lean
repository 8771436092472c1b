import TwinStore.Proofs.View

/-!
# Pairs whose secondary never fails

Where the secondary does whatever it is asked, all three templates do one of four things
(`Scene.Served`): the primary fails and the secondary is asked instead, or the primary answers, and
then nothing follows, or a recovery follows if one is due, or the secondary is asked too before
that. Which of them follows is a matter of the template and of the answer (`Sequel`).

How asking the primary may go, and what a recovery may do, is left open: a recovery may write to
both stores, and an engine that is derived from another has its root's recovery
(`View.Serves`, `View.Mends`).
-/

namespace TwinStore

variable {V H σ α β : Type}

/-- What follows once the primary has answered. -/
inductive Sequel where
  /-- Nothing. -/
  | stop
  /-- A recovery, if one is due. -/
  | recover
  /-- The secondary is asked too, and then a recovery follows, if one is due. -/
  | passOn
  deriving DecidableEq

/-- A write that is backed up is passed on once the primary has accepted it. -/
def Sequel.ofWrite [WriteOutcome α] (a : α) : Sequel :=
  if WriteOutcome.isAccepted a then passOn else stop

namespace Scene

/-- What an undertaking may do to a scene, and what may come of it. -/
abbrev Outcomes (σ α : Type) := Scene σ → Except StoreError α → Scene σ → Prop

/-- The outcomes of an operation on one store. -/
def asking (z : Hazard σ) (e : Effect σ α) (side : Side) : Outcomes σ α :=
  fun s r s' => Tried z e side s s' (r.mapError Halt.failed)

/-- The outcomes of an operation on a store that is out. -/
def refusing (side : Side) : Outcomes σ α :=
  fun s r s' => ∃ cause, r = .error cause ∧ s' = s.blame side

/-- The outcomes of a recovery that makes the primary hold what the secondary holds. -/
def converging (z : Hazard σ) : Outcomes σ Report :=
  fun s r s' => Converged z .secondary .primary s s' (r.mapError Halt.failed)

/-- The secondary has done what it was asked. -/
def passOn (s : Scene σ) (e : Effect σ α) : Scene σ :=
  s.put .secondary (e.after (s.contents .secondary))

@[simp] theorem health_passOn (s : Scene σ) (e : Effect σ α) : (s.passOn e).health = s.health := rfl

@[simp] theorem failures_passOn (s : Scene σ) (e : Effect σ α) :
    (s.passOn e).failures = s.failures := rfl

@[simp] theorem primary_passOn (s : Scene σ) (e : Effect σ α) :
    (s.passOn e).contents .primary = s.contents .primary := rfl

@[simp] theorem secondary_passOn (s : Scene σ) (e : Effect σ α) :
    (s.passOn e).contents .secondary = e.after (s.contents .secondary) :=
  contents_put_self s .secondary _

/-- Going down and being asked do not disturb each other. -/
theorem passOn_turn (s : Scene σ) (e : Effect σ α) (h : Health) :
    (s.passOn e).turn h = (s.turn h).passOn e := rfl

/-- A pair that is up is left alone. One that is down is up again once a recovery has ended well. -/
inductive Mended (recovery : Outcomes σ Report) (s : Scene σ) : Except Halt Unit → Scene σ → Prop
  | idle (up : s.health = .up) : Mended recovery s (.ok ()) s
  | done (report : Report) (s' : Scene σ) (down : s.health = .down)
      (run : recovery s (.ok report) s') : Mended recovery s (.ok ()) (s'.turn .up)
  | failed (cause : StoreError) (s' : Scene σ) (down : s.health = .down)
      (run : recovery s (.error cause) s') :
      Mended recovery s (.error (.failed (.resync cause))) s'

/-- What a template does where the secondary never fails. -/
inductive Served (recovery : Outcomes σ Report) (first : Outcomes σ α) (e : Effect σ α)
    (sequel : α → Sequel) (s : Scene σ) : Except Halt α → Scene σ → Prop
  | diverted (cause : StoreError) (s₁ : Scene σ) (b : α) (failed : first s (.error cause) s₁)
      (answers : e.answers (s₁.contents .secondary) b) :
      Served recovery first e sequel s (.ok b) ((s₁.turn .down).passOn e)
  | stopped (a : α) (s₁ : Scene σ) (done : first s (.ok a) s₁) (next : sequel a = .stop) :
      Served recovery first e sequel s (.ok a) s₁
  | recovered (a : α) (s₁ : Scene σ) (r : Except Halt Unit) (s₂ : Scene σ)
      (done : first s (.ok a) s₁) (next : sequel a = .recover) (mended : Mended recovery s₁ r s₂) :
      Served recovery first e sequel s (r.map fun _ => a) s₂
  | passedOn (a : α) (s₁ : Scene σ) (r : Except Halt Unit) (s₂ : Scene σ)
      (done : first s (.ok a) s₁) (next : sequel a = .passOn)
      (mended : Mended recovery (s₁.passOn e) r s₂) :
      Served recovery first e sequel s (r.map fun _ => a) s₂

/-! ## What follows from that -/

section Consequences

variable {z : Hazard σ} {s s' : Scene σ}

/-- What is served may be passed on in another form. -/
theorem Served.map {recovery : Outcomes σ Report} {first : Outcomes σ α}
    {first' : Outcomes σ β} {e : Effect σ α} {e' : Effect σ β} {sequel : α → Sequel}
    {sequel' : β → Sequel} {r : Except Halt α} (f : α → β)
    (h : Served recovery first e sequel s r s')
    (hfirst : ∀ s r s', first s r s' → first' s (r.map f) s') (hafter : e'.after = e.after)
    (hanswers : ∀ c a, e.answers c a → e'.answers c (f a))
    (hsequel : ∀ a, sequel' (f a) = sequel a) :
    Served recovery first' e' sequel' s (r.map f) s' := by
  have hpass : ∀ s : Scene σ, s.passOn e = s.passOn e' := by
    intro s
    unfold passOn
    rw [hafter]
  cases h with
  | diverted cause s₁ b failed answers =>
    rw [hpass]
    exact .diverted cause s₁ (f b) (hfirst _ _ _ failed) (hanswers _ _ answers)
  | stopped a _ done next =>
    exact .stopped (f a) _ (hfirst _ _ _ done) ((hsequel a).trans next)
  | recovered a s₁ r _ done next mended =>
    have h : Served recovery first' e' sequel' s (r.map fun _ => f a) s' :=
      .recovered (f a) s₁ r _ (hfirst _ _ _ done) ((hsequel a).trans next) mended
    cases r <;> exact h
  | passedOn a s₁ r _ done next mended =>
    rw [hpass] at mended
    have h : Served recovery first' e' sequel' s (r.map fun _ => f a) s' :=
      .passedOn (f a) s₁ r _ (hfirst _ _ _ done) ((hsequel a).trans next) mended
    cases r <;> exact h

/-- Where no recovery is due, nothing happens. -/
theorem Mended.of_up {recovery : Outcomes σ Report} {r : Except Halt Unit}
    (h : Mended recovery s r s') (hup : s.health = .up) : r = .ok () ∧ s' = s := by
  cases h with
  | idle _ => exact ⟨rfl, rfl⟩
  | done report s₁ down _ =>
    rw [hup] at down
    cases down
  | failed cause _ down _ =>
    rw [hup] at down
    cases down

/-- A recovery that ends well leaves the pair up. -/
theorem Mended.up {recovery : Outcomes σ Report} (h : Mended recovery s (.ok ()) s') :
    s'.health = .up := by
  cases h with
  | idle up => exact up
  | done report s' _ _ => exact health_turn s' .up

/-- A recovery that ends well met no failure. -/
theorem Mended.failures (h : Mended (converging z) s (.ok ()) s') : s'.failures = s.failures := by
  cases h with
  | idle _ => rfl
  | done report s₁ _ run =>
    cases run with
    | done _ c hc eq => rw [eq, failures_turn, failures_put]

/-- The answer is the secondary's if the primary has failed, and the primary's otherwise. -/
theorem Served.answered {e : Effect σ α} {sequel : α → Sequel} {a : α}
    (h : Served (converging z) (asking z e .primary) e sequel s (.ok a) s') :
    e.answers (s.contents .secondary) a ∨
      s'.failures .primary = s.failures .primary ∧ e.answers (s.contents .primary) a := by
  have hkept : ∀ {s₁}, Tried z e .primary s s₁ (.ok a) →
      s₁.failures = s.failures ∧ e.answers (s.contents .primary) a := by
    rintro s₁ (⟨_, answers, eq⟩ | _)
    rw [eq, failures_put]
    exact ⟨rfl, answers⟩
  generalize hr : Except.ok a = r at h
  cases h with
  | diverted cause s₁ b failed answers =>
    cases hr
    cases failed with
    | failed _ frail eq =>
      rw [eq, contents_blame] at answers
      exact .inl answers
  | stopped b _ done next =>
    cases hr
    obtain ⟨hsame, hanswers⟩ := hkept done
    exact .inr ⟨congrFun hsame _, hanswers⟩
  | recovered b s₁ r _ done next mended =>
    cases r with
    | error halt => cases hr
    | ok _ =>
      cases hr
      obtain ⟨hsame, hanswers⟩ := hkept done
      rw [mended.failures]
      exact .inr ⟨congrFun hsame _, hanswers⟩
  | passedOn b s₁ r _ done next mended =>
    cases r with
    | error halt => cases hr
    | ok _ =>
      cases hr
      obtain ⟨hsame, hanswers⟩ := hkept done
      rw [mended.failures, failures_passOn]
      exact .inr ⟨congrFun hsame _, hanswers⟩

/-- If the primary is out, the secondary answers. -/
theorem Served.of_refusing {recovery : Outcomes σ Report} {e : Effect σ α} {sequel : α → Sequel}
    {r : Except Halt α} (h : Served recovery (refusing .primary) e sequel s r s') :
    ∃ b, r = .ok b ∧ e.answers (s.contents .secondary) b ∧
      s' = ((s.blame .primary).turn .down).passOn e := by
  cases h with
  | diverted cause s₁ b failed answers =>
    obtain ⟨_, -, rfl⟩ := failed
    exact ⟨b, rfl, answers, rfl⟩
  | stopped a _ done _ => obtain ⟨_, hr, -⟩ := done; cases hr
  | recovered a s₁ r _ done _ _ => obtain ⟨_, hr, -⟩ := done; cases hr
  | passedOn a s₁ r _ done _ _ => obtain ⟨_, hr, -⟩ := done; cases hr

end Consequences

end Scene

namespace View

variable {v : View V σ} {g : Regime V} {w : World V} {e : Engine V H}

/-- In a regime, asking the primary has one of the given outcomes, and the secondary does what it is
asked. -/
structure Serves (v : View V σ) (g : Regime V) (e : Engine V H) (op : H → Action V α)
    (first : Scene.Outcomes σ α) (eff : Effect σ α) : Prop where
  primary : ∀ w, v.Fit w → (op e.primary).wp g (fun r w' => v.Fit w' ∧
    ∃ r', r = r'.mapError Halt.failed ∧ first (v.scene w) r' (v.scene w')) w
  secondary : ∀ w, v.Fit w → (op e.secondary).wp g (fun r w' => v.Fit w' ∧
    ∃ a, r = .ok a ∧ eff.answers ((v.scene w).contents .secondary) a ∧
      v.scene w' = (v.scene w).passOn eff) w

/-- In a regime, the recovery of an engine over the pair has one of the given outcomes. -/
structure Mends (v : View V σ) (g : Regime V) (e : Engine V H)
    (recovery : Scene.Outcomes σ Report) : Prop where
  core : e.core = v.core
  recovers : ∀ w, v.Fit w → (e.recovery none).wp g (fun r w' => v.Fit w' ∧
    ∃ r', r = r'.mapError Halt.failed ∧ recovery (v.scene w) r' (v.scene w')) w

/-- What both stores carry out, a pair whose secondary cannot fail serves. -/
theorem Carries.serves {z : Hazard σ} {op : H → Action V α} {eff : Effect σ α}
    (h : v.Carries g z (fun side => op (e.storeOn side)) eff) (hfrail : ¬ z.frail .secondary) :
    v.Serves g e op (Scene.asking z eff .primary) eff where
  primary w hw := by
    refine Action.wp_mono (h .primary w hw) ?_
    rintro r w' ⟨hw', htried⟩
    rcases r with (cause | n) | a
    · exact ⟨hw', .error cause, rfl, htried⟩
    · cases htried
    · exact ⟨hw', .ok a, rfl, htried⟩
  secondary w hw := by
    refine Action.wp_mono (h .secondary w hw) ?_
    rintro r w' ⟨hw', htried⟩
    cases htried with
    | done a answers eq => exact ⟨hw', a, rfl, answers, eq⟩
    | failed cause frail eq => exact absurd frail hfrail

theorem Runs.mends {z : Hazard σ} (h : v.Runs g z e) : v.Mends g e (Scene.converging z) where
  core := h.core
  recovers w hw := by
    refine Action.wp_mono (h.wp_recovery hw) ?_
    rintro r w' ⟨hw', hconv⟩
    rcases r with (cause | n) | report
    · exact ⟨hw', .error cause, rfl, hconv⟩
    · cases hconv
    · exact ⟨hw', .ok report, rfl, hconv⟩

/-! ## What the templates do -/

section Templates

variable {recovery : Scene.Outcomes σ Report} {first : Scene.Outcomes σ α} {eff : Effect σ α}
  {op : H → Action V α}

theorem wp_recoverIfDown (h : v.Mends g e recovery) (hw : v.Fit w) :
    e.recoverIfDown.wp g (fun r w' => v.Fit w' ∧
      Scene.Mended recovery (v.scene w) r (v.scene w')) w := by
  unfold Engine.recoverIfDown
  rw [Action.wp_bind, wp_health h.core, Action.andThen_ok]
  by_cases hdown : (v.scene w).health = .down
  · rw [if_pos hdown, Action.wp_locked, Action.wp_bind, wp_health h.core, Action.andThen_ok,
      if_pos hdown, Action.wp_bind, Action.wp_attempt]
    refine Action.wp_mono (h.recovers w hw) ?_
    rintro _ w₁ ⟨hw₁, r, rfl, hrun⟩
    rw [MarkedAction.attempted_mapError, Action.andThen_ok]
    cases r with
    | ok report =>
      refine Action.wp_mono (wp_askUp h.core hw₁) ?_
      rintro _ w₂ ⟨hw₂, rfl, hup⟩
      rw [hup]
      exact ⟨hw₂, .done report _ hdown hrun⟩
    | error cause => exact ⟨hw₁, .failed cause _ hdown hrun⟩
  · have hup : (v.scene w).health = .up := by
      cases hh : (v.scene w).health with
      | up => rfl
      | down => exact absurd hh hdown
    rw [if_neg hdown, Action.wp_pure]
    exact ⟨hw, .idle hup⟩

/-- The primary's answer counts once a recovery, if one is due, has ended well. -/
theorem wp_returning (h : v.Mends g e recovery) (hw : v.Fit w) (a : α) :
    Action.wp g (do e.recoverIfDown; return a) (fun r w' => v.Fit w' ∧
      ∃ r', r = r'.map (fun _ => a) ∧ Scene.Mended recovery (v.scene w) r' (v.scene w')) w := by
  rw [Action.wp_bind]
  refine Action.wp_mono (wp_recoverIfDown h hw) ?_
  rintro r w' ⟨hw', hmended⟩
  cases r with
  | ok _ => exact ⟨hw', .ok (), rfl, hmended⟩
  | error halt => exact ⟨hw', .error halt, rfl, hmended⟩

/-- Once the primary has failed the pair is down, and the secondary answers. -/
theorem wp_secondaryInstead (h : v.Mends g e recovery) (hop : v.Serves g e op first eff)
    (hw : v.Fit w) (cause : StoreError) :
    Action.wp g (do e.markDown cause; op e.secondary) (fun r w' => v.Fit w' ∧
      ∃ b, r = .ok b ∧ eff.answers ((v.scene w).contents .secondary) b ∧
        v.scene w' = ((v.scene w).turn .down).passOn eff) w := by
  rw [Action.wp_bind]
  refine Action.wp_mono (wp_markDown h.core hw cause) ?_
  rintro _ w₁ ⟨hw₁, rfl, hdown⟩
  rw [Action.andThen_ok]
  refine Action.wp_mono (hop.secondary w₁ hw₁) ?_
  rintro _ w₂ ⟨hw₂, b, rfl, hanswers, hpassed⟩
  rw [hdown] at hanswers hpassed
  exact ⟨hw₂, b, rfl, hanswers, hpassed⟩

theorem wp_fallback (h : v.Mends g e recovery) (hop : v.Serves g e op first eff) (hw : v.Fit w) :
    (e.fallback op).wp g (fun r w' => v.Fit w' ∧
      Scene.Served recovery first eff (fun _ => .recover) (v.scene w) r (v.scene w')) w := by
  unfold Engine.fallback
  rw [Action.wp_bind, Action.wp_attempt]
  refine Action.wp_mono (hop.primary w hw) ?_
  rintro _ w₁ ⟨hw₁, r, rfl, hfirst⟩
  rw [MarkedAction.attempted_mapError, Action.andThen_ok]
  cases r with
  | ok a =>
    refine Action.wp_mono (wp_returning h hw₁ a) ?_
    rintro _ w₂ ⟨hw₂, r, rfl, hmended⟩
    exact ⟨hw₂, .recovered a _ r _ hfirst rfl hmended⟩
  | error cause =>
    refine Action.wp_mono (wp_secondaryInstead h hop hw₁ cause) ?_
    rintro _ w₂ ⟨hw₂, b, rfl, hanswers, hpassed⟩
    rw [hpassed]
    exact ⟨hw₂, .diverted cause _ b hfirst hanswers⟩

theorem wp_replicate (h : v.Mends g e recovery) (hop : v.Serves g e op first eff) (hw : v.Fit w) :
    (e.replicate op).wp g (fun r w' => v.Fit w' ∧
      Scene.Served recovery first eff (fun _ => .passOn) (v.scene w) r (v.scene w')) w := by
  unfold Engine.replicate
  rw [Action.wp_bind, Action.wp_attempt]
  refine Action.wp_mono (hop.primary w hw) ?_
  rintro _ w₁ ⟨hw₁, r, rfl, hfirst⟩
  rw [MarkedAction.attempted_mapError, Action.andThen_ok, Action.wp_bind, Action.wp_attempt]
  refine Action.wp_mono (hop.secondary w₁ hw₁) ?_
  rintro _ w₂ ⟨hw₂, b, rfl, hanswers, hpassed⟩
  rw [MarkedAction.attempted, Action.andThen_ok]
  cases r with
  | ok a =>
    refine Action.wp_mono (wp_returning h hw₂ a) ?_
    rintro _ w₃ ⟨hw₃, r, rfl, hmended⟩
    rw [hpassed] at hmended
    exact ⟨hw₃, .passedOn a _ r _ hfirst rfl hmended⟩
  | error cause =>
    dsimp only
    rw [Action.wp_bind]
    refine Action.wp_mono (wp_markDown h.core hw₂ cause) ?_
    rintro _ w₃ ⟨hw₃, rfl, hdown⟩
    rw [Action.andThen_ok, Action.wp_ofExcept, hdown, hpassed, Scene.passOn_turn]
    exact ⟨hw₃, .diverted cause _ b hfirst hanswers⟩

theorem wp_backup [WriteOutcome α] (h : v.Mends g e recovery) (hop : v.Serves g e op first eff)
    (hw : v.Fit w) :
    (e.backup op).wp g (fun r w' => v.Fit w' ∧
      Scene.Served recovery first eff Sequel.ofWrite (v.scene w) r (v.scene w')) w := by
  unfold Engine.backup
  rw [Action.wp_bind, Action.wp_attempt]
  refine Action.wp_mono (hop.primary w hw) ?_
  rintro _ w₁ ⟨hw₁, r, rfl, hfirst⟩
  rw [MarkedAction.attempted_mapError, Action.andThen_ok]
  cases r with
  | ok a =>
    dsimp only
    by_cases hacc : WriteOutcome.isAccepted a = true
    · rw [if_pos hacc, Action.wp_bind, Action.wp_attempt]
      refine Action.wp_mono (hop.secondary w₁ hw₁) ?_
      rintro _ w₂ ⟨hw₂, b, rfl, -, hpassed⟩
      rw [MarkedAction.attempted, Action.andThen_ok]
      refine Action.wp_mono (wp_returning h hw₂ a) ?_
      rintro _ w₃ ⟨hw₃, r, rfl, hmended⟩
      rw [hpassed] at hmended
      exact ⟨hw₃, .passedOn a _ r _ hfirst (if_pos hacc) hmended⟩
    · rw [if_neg hacc, Action.wp_pure]
      exact ⟨hw₁, .stopped a _ hfirst (if_neg hacc)⟩
  | error cause =>
    refine Action.wp_mono (wp_secondaryInstead h hop hw₁ cause) ?_
    rintro _ w₂ ⟨hw₂, b, rfl, hanswers, hpassed⟩
    rw [hpassed]
    exact ⟨hw₂, .diverted cause _ b hfirst hanswers⟩

end Templates

end View

end TwinStore
