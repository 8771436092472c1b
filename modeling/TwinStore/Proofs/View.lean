import TwinStore.Proofs.Scene

/-!
# Pairs in the world

A `View` says where a world keeps a pair of base stores, so that the world shows a `Scene`. In a
regime in which the operations on the stores do what they are to do (`View.Carries`) and runs
between them converge (`View.Converges`), the templates do what the relations on scenes allow:
`View.wp_markedFallback`, `View.wp_markedReplicate` and `View.wp_markedBackup`.

Under `Faults`, a call to a store of the pair is carried out, or is struck and shows in the number
of failures (`View.wp_call`).
-/

namespace TwinStore

variable {V H σ α : Type}

namespace World

/-- The base stores and the time: all that decides what a base store holds. -/
def stores (w : World V) :
    Nat × Shelf (Base (EntryMap V)) × Shelf (Base MemberSet) × Shelf (Base MemberMap) ×
      Shelf (Base (List V)) :=
  (w.clock, w.maps, w.sets, w.setMaps, w.queues)

end World

/-- Two base stores of one kind, by their numbers, and the number of a health record. -/
structure BasePair where
  core : Nat
  primary : Nat
  secondary : Nat
  ne : primary ≠ secondary

namespace BasePair

/-- The number of the store on a side. -/
def index (p : BasePair) : Side → Nat
  | .primary => p.primary
  | .secondary => p.secondary

theorem index_injective (p : BasePair) {side side' : Side} (h : p.index side = p.index side') :
    side = side' := by
  cases side <;> cases side'
  · rfl
  · exact absurd h p.ne
  · exact absurd h.symm p.ne
  · rfl

end BasePair

/-- Where worlds keep a pair of base stores, and which worlds keep it as it should be. -/
structure View (V σ : Type) where
  core : Nat
  site : Side → Site
  contents : World V → Side → σ
  Fit : World V → Prop
  contents_congr : ∀ {w w' : World V}, w'.stores = w.stores → contents w' = contents w
  fit_congr : ∀ {w w' : World V}, w'.stores = w.stores → Fit w → Fit w'
  site_injective : ∀ {side side' : Side}, site side = site side' → side = side'

namespace View

variable (v : View V σ)

/-- The scene that a world shows. -/
def scene (w : World V) : Scene σ where
  contents := v.contents w
  health := (w.engines.nth v.core).health
  failures side := w.failures (v.site side)

variable {v} {w w' : World V}

theorem scene_congr (hs : w'.stores = w.stores) (hv : w'.visits = w.visits)
    (he : w'.engines = w.engines) : v.scene w' = v.scene w := by
  unfold scene World.failures
  rw [v.contents_congr hs, hv, he]

theorem scene_markDown (cause : StoreError) :
    v.scene (w.markDown v.core cause) = (v.scene w).turn .down := by
  have h : v.contents (w.markDown v.core cause) = v.contents w := v.contents_congr rfl
  ext side
  · exact congrFun h side
  · change ((w.engines.put v.core _).nth v.core).health = _
    rw [Shelf.nth_put_self]
    rfl
  · rfl

theorem scene_markUp : v.scene (w.markUp v.core) = (v.scene w).turn .up := by
  have h : v.contents (w.markUp v.core) = v.contents w := v.contents_congr rfl
  ext side
  · exact congrFun h side
  · change ((w.engines.put v.core _).nth v.core).health = _
    rw [Shelf.nth_put_self]
    rfl
  · rfl

/-- Counting changes nothing that a scene shows. -/
theorem scene_count (m : Measure) (n : Nat) : v.scene (w.count m n) = v.scene w :=
  scene_congr rfl rfl rfl

theorem fit_count (hw : v.Fit w) (m : Measure) (n : Nat) : v.Fit (w.count m n) :=
  v.fit_congr (by rfl) hw

variable (v)

/-- In a regime, an operation on either store does what it is to do, or fails without effect. -/
def Carries (g : Regime V) (z : Hazard σ) (op : Side → Action V α) (e : Effect σ α) : Prop :=
  ∀ side w, v.Fit w →
    (op side).wp g (fun r w' => v.Fit w' ∧ Scene.Tried z e side (v.scene w) (v.scene w') r) w

variable {v} in
/-- Answers may be told less of. -/
theorem Carries.mono {g : Regime V} {z : Hazard σ} {op : Side → Action V α} {e e' : Effect σ α}
    (h : v.Carries g z op e) (hafter : e'.after = e.after)
    (hanswers : ∀ c a, e.answers c a → e'.answers c a) : v.Carries g z op e' := by
  intro side w hw
  refine Action.wp_mono (h side w hw) ?_
  rintro r w' ⟨hw', htried⟩
  refine ⟨hw', ?_⟩
  cases htried with
  | done a answers eq => exact .done a (hanswers _ a answers) (by rw [hafter, eq])
  | failed cause frail eq => exact .failed cause frail eq

/-- In a regime, runs between the stores converge, or fail on the way. -/
def Converges (g : Regime V) (z : Hazard σ) (run : Side → Side → Action V Report) : Prop :=
  ∀ source target, source ≠ target → ∀ w, v.Fit w →
    (run source target).wp g
      (fun r w' => v.Fit w' ∧ Scene.Converged z source target (v.scene w) (v.scene w') r) w

/-- An engine over the pair, whose recovery brings its own primary up to date and whose synchronizer
does its work. -/
structure Runs (g : Regime V) (z : Hazard σ) (e : Engine V H) : Prop where
  core : e.core = v.core
  recovery : e.recovery none = e.synchronizer.run e.secondary e.primary none
  converges : v.Converges g z fun source target =>
    e.synchronizer.run (e.storeOn source) (e.storeOn target) none

/-! ## Calls under faults -/

/-- What may go wrong with a pair: the stores that the faults do not spare may fail. -/
def hazard (faults : Faults V) (leaves : σ → σ → σ → Prop) : Hazard σ where
  frail side := ¬ faults.Spares (v.site side)
  leaves := leaves

variable {v} in
theorem scene_visit_ok (visit : Visit V) (hv : visit.isFailed = false) :
    v.scene (w.visit visit) = v.scene w := by
  have h : v.contents (w.visit visit) = v.contents w := v.contents_congr rfl
  ext side
  · exact congrFun h side
  · rfl
  · simp [scene, World.failures, World.visit, hv]

variable {v} in
theorem scene_visit_failed (visit : Visit V) {side : Side} (hv : visit.isFailed = true)
    (hs : visit.call.site = v.site side) : v.scene (w.visit visit) = (v.scene w).blame side := by
  have h : v.contents (w.visit visit) = v.contents w := v.contents_congr rfl
  ext side'
  · exact congrFun h side'
  · rfl
  · by_cases he : side' = side
    · subst he
      simp [scene, Scene.blame, World.failures, World.visit, hv, hs]
    · have hne : v.site side ≠ v.site side' := fun hc => he (v.site_injective hc).symm
      simp [scene, Scene.blame, World.failures, World.visit, hv, hs, he, hne]

variable {v} in
/-- A call to a store of the pair is carried out, or fails without effect, or yields some items and
fails then. -/
theorem wp_call {faults : Faults V} {w : World V} {c : Call V} {t : Token} {side : Side}
    {post : Except Halt c.Answer → World V → Prop} (hc : c.site = v.site side) (hw : v.Fit w)
    (done : ∀ w', v.Fit w' → v.scene w' = v.scene w → post (.ok (w'.perform c).1) (w'.perform c).2)
    (failed : ∀ cause w', ¬ faults.Spares (v.site side) → v.Fit w' →
      v.scene w' = (v.scene w).blame side → post (.error (.failed cause)) w')
    (broken : ∀ cause n a w', ¬ faults.Spares (v.site side) → v.Fit w' →
      v.scene w' = (v.scene w).blame side → c.failAfter n cause (w'.perform c).1 = some a →
      post (.ok a) (w'.perform c).2) :
    (Action.call c t).wp faults.regime post w := by
  rw [Action.wp_call]
  change post (w.callUnder (faults w.visits.length c) c t).1
    (w.callUnder (faults w.visits.length c) c t).2
  unfold World.callUnder
  cases hf : faults w.visits.length c with
  | none =>
    refine done (w.visit _) (v.fit_congr (by rfl) hw) (scene_visit_ok _ rfl)
  | some f =>
    have hfrail : ¬ faults.Spares (v.site side) := fun hs => by
      rw [hs _ c hc] at hf
      cases hf
    obtain ⟨cause, after⟩ := f
    cases after with
    | none =>
      exact failed cause (w.visit _) hfrail (v.fit_congr (by rfl) hw) (scene_visit_failed _ rfl hc)
    | some n =>
      simp only [Option.map_some, Failure.strike, World.settle]
      split
      · rename_i a ha
        exact broken cause n a (w.visit _) hfrail (v.fit_congr (by rfl) hw)
          (scene_visit_failed _ rfl hc) ha
      · exact failed cause (w.visit _) hfrail (v.fit_congr (by rfl) hw)
          (scene_visit_failed _ rfl hc)

variable {v} in
/-- A call to a store that is out fails without effect. -/
theorem wp_felled {faults : Faults V} {w : World V} {c : Call V} {t : Token} {side : Side}
    {post : Except Halt c.Answer → World V → Prop} (hc : c.site = v.site side)
    (hfells : faults.Fells (v.site side)) (hwhole : ∀ n cause a, c.failAfter n cause a = none)
    (hw : v.Fit w)
    (failed : ∀ cause w', v.Fit w' → v.scene w' = (v.scene w).blame side →
      post (.error (.failed cause)) w') :
    (Action.call c t).wp faults.regime post w := by
  rw [Action.wp_call]
  change post (w.callUnder (faults w.visits.length c) c t).1
    (w.callUnder (faults w.visits.length c) c t).2
  unfold World.callUnder
  cases hf : faults w.visits.length c with
  | none => exact absurd hf (hfells _ c hc)
  | some f =>
    obtain ⟨cause, after⟩ := f
    cases after with
    | none => exact failed cause (w.visit _) (v.fit_congr (by rfl) hw) (scene_visit_failed _ rfl hc)
    | some n =>
      simp only [Option.map_some, Failure.strike, World.settle, hwhole]
      exact failed cause (w.visit _) (v.fit_congr (by rfl) hw) (scene_visit_failed _ rfl hc)

/-- A run that nobody cancels does what its walk does, unless the walk is cut short. -/
theorem wp_drive {v : View V σ} {g : Regime V} {w : World V}
    {Q : Except StoreError Unit → Scene σ → Prop} {walk : Walk V Unit} (name : String)
    (limit : Nat) (hw : v.Fit w)
    (h : ∀ w₁, v.Fit w₁ → v.scene w₁ = v.scene w → walk.wp g (fun r _ w' => v.Fit w' ∧
      ∃ r' : Except StoreError Unit, r = r'.mapError Halt.failed ∧ Q r' (v.scene w')) {} w₁) :
    (drive name limit none walk).wp g (fun r w' => v.Fit w' ∧
      ∃ r' : Except StoreError Report, r = r'.mapError Halt.failed ∧
        Q (r'.map fun _ => ()) (v.scene w')) w := by
  have hcancelled : g.answer (.isCancelled none) w = (false, w) := rfl
  have hentered := h (g.answer (.enter limit none) w).2 (v.fit_congr (by rfl) hw)
    (scene_congr rfl rfl rfl)
  unfold Walk.wp at hentered
  unfold drive
  rw [Action.wp_bind, Action.wp_ask, hcancelled, Action.andThen_ok]
  simp only [Bool.false_eq_true, if_false]
  rw [Action.wp_bind, Action.wp_ask, Action.andThen_ok, Action.wp_bind, Action.wp_lift,
    Action.andThen_ok]
  generalize g.run (g.answer (.enter limit none) w).2 (walk.run.run {}) = out at hentered ⊢
  obtain ⟨⟨b, n⟩, w'⟩ := out
  obtain ⟨hfit, r, hr, hend⟩ := hentered
  rw [Action.wp_bind, Action.wp_ask, Action.andThen_ok]
  have hleft : v.scene (g.answer .leave w').2 = v.scene w' := scene_congr rfl rfl rfl
  have hfit' : v.Fit (g.answer .leave w').2 := v.fit_congr (by rfl) hfit
  rw [← hleft] at hend
  generalize (g.answer .leave w').2 = w'' at hend hfit'
  cases r with
  | error cause =>
    obtain rfl : b = .error (.failed cause) := hr
    simp only [Action.wp_bind, Action.wp_count, Action.andThen_ok, Action.wp_fail, scene_count]
    exact ⟨fit_count (fit_count hfit' _ _) _ _, .error cause, rfl, hend⟩
  | ok _ =>
    obtain rfl : b = .ok _ := hr
    unfold Report.conclude
    simp only [Action.wp_bind, Action.wp_count, Action.andThen_ok, Action.wp_pure, scene_count]
    exact ⟨fit_count (fit_count (fit_count (fit_count hfit' _ _) _ _) _ _) _ _, .ok _, rfl, hend⟩

/-- A bounded run that nobody cancels writes to one store what its walk writes. -/
theorem wp_driveWriting {v : View V σ} {g : Regime V} {z : Hazard σ} {w : World V}
    {good left : σ → Prop} {dest : Side} {walk : Walk V Unit} (name : String) (limit : Nat)
    (hw : v.Fit w)
    (h : ∀ w₁, v.Fit w₁ → v.scene w₁ = v.scene w → walk.wp g (fun r _ w' => v.Fit w' ∧
      Scene.Wrote z (fun _ c => good c) left dest (v.scene w) (v.scene w') r) {} w₁) :
    (drive name limit none walk).wp g (fun r w' => v.Fit w' ∧
      Scene.Wrote z (fun _ c => good c) left dest (v.scene w) (v.scene w') r) w := by
  refine Action.wp_mono (wp_drive name limit hw (Q := fun r s' =>
    Scene.Wrote z (fun _ c => good c) left dest (v.scene w) s' (r.mapError Halt.failed)) ?_) ?_
  · intro w₁ hw₁ hsame
    refine Walk.wp_mono (h w₁ hw₁ hsame) ?_
    rintro r _ w' ⟨hw', hend⟩
    rcases r with (cause | n) | ⟨⟩
    · exact ⟨hw', .error cause, rfl, hend⟩
    · cases hend
    · exact ⟨hw', .ok (), rfl, hend⟩
  · rintro _ w' ⟨hw', r, rfl, hend⟩
    refine ⟨hw', ?_⟩
    cases r with
    | error cause =>
      cases hend with
      | failed _ side c hc frail worse => exact .failed cause side c hc frail worse
    | ok report =>
      cases hend with
      | done _ c hc eq => exact .done report c hc eq

/-! ## The health of an engine over the pair -/

section Health

variable {v} {g : Regime V} {e : Engine V H}

/-- The health that the engine reads is the one that the scene shows. -/
theorem wp_health (hcore : e.core = v.core) (post : Except Halt Health → World V → Prop) :
    e.health.wp g post w ↔ post (.ok (v.scene w).health) w := by
  unfold Engine.health
  rw [Action.wp_ask, hcore]
  rfl

theorem wp_askUp (hcore : e.core = v.core) (hw : v.Fit w) :
    (Action.ask (.markUp e.core)).wp g (fun r w' => v.Fit w' ∧ r = .ok () ∧
      v.scene w' = (v.scene w).turn .up) w := by
  rw [Action.wp_ask, hcore]
  exact ⟨v.fit_congr (by rfl) hw, rfl, scene_markUp⟩

theorem wp_askDown (hcore : e.core = v.core) (hw : v.Fit w) (cause : StoreError) :
    (Action.ask (.markDown e.core cause)).wp g (fun r w' => v.Fit w' ∧ r = .ok () ∧
      v.scene w' = (v.scene w).turn .down) w := by
  rw [Action.wp_ask, hcore]
  exact ⟨v.fit_congr (by rfl) hw, rfl, scene_markDown cause⟩

/-- Taking down a pair that is down already changes nothing. -/
theorem wp_markDown (hcore : e.core = v.core) (hw : v.Fit w) (cause : StoreError) :
    (e.markDown cause).wp g (fun r w' => v.Fit w' ∧ r = .ok () ∧
      v.scene w' = (v.scene w).turn .down) w := by
  unfold Engine.markDown
  rw [Action.wp_bind, wp_health hcore, Action.andThen_ok]
  by_cases hup : (v.scene w).health = .up
  · rw [if_pos hup, Action.wp_locked, Action.wp_bind, wp_health hcore, Action.andThen_ok,
      if_pos hup]
    exact wp_askDown hcore hw cause
  · rw [if_neg hup, Action.wp_pure]
    have hdown : (v.scene w).health = .down := by
      cases hh : (v.scene w).health with
      | up => exact absurd hh hup
      | down => rfl
    refine ⟨hw, rfl, ?_⟩
    rw [← hdown, Scene.turn_health]

theorem wp_noteSecondaryError (hw : v.Fit w) :
    e.noteSecondaryError.wp g (fun r w' => v.Fit w' ∧ r = .ok () ∧ v.scene w' = v.scene w) w :=
  ⟨fit_count hw _ _, rfl, scene_count _ _⟩

end Health

/-! ## What the templates do -/

section Templates

variable {v} {g : Regime V} {z : Hazard σ} {e : Engine V H}

theorem wp_run (kind : RunKind) {source target : Side} {body : Action V Report}
    (hb : body.wp g (fun r w' => v.Fit w' ∧
      Scene.Converged z source target (v.scene w) (v.scene w') r) w) :
    (MarkedAction.run kind body).attempt.wp g (fun r js w' => v.Fit w' ∧
      ∃ r', r = .ok r' ∧ Scene.Converged z source target (v.scene w) (v.scene w')
        (r'.mapError Halt.failed) ∧
        js.map (Span.map v.scene) =
          [⟨kind, v.scene w, r'.mapError Halt.failed, v.scene w'⟩]) w := by
  rw [MarkedAction.wp_attempt, MarkedAction.wp_run]
  refine Action.wp_mono hb ?_
  rintro r w' ⟨hfit, hc⟩
  refine ⟨hfit, ?_⟩
  rcases r with (cause | n) | report
  · exact ⟨.error cause, rfl, hc, rfl⟩
  · cases hc
  · exact ⟨.ok report, rfl, hc, rfl⟩

theorem Runs.wp_recovery (h : v.Runs g z e) (hw : v.Fit w) :
    (e.recovery none).wp g (fun r w' => v.Fit w' ∧
      Scene.Converged z .secondary .primary (v.scene w) (v.scene w') r) w := by
  rw [h.recovery]
  exact h.converges .secondary .primary (by decide) w hw

theorem Runs.wp_repair (h : v.Runs g z e) (hw : v.Fit w) :
    (e.synchronizer.run e.primary e.secondary none).wp g (fun r w' => v.Fit w' ∧
      Scene.Converged z .primary .secondary (v.scene w) (v.scene w') r) w :=
  h.converges .primary .secondary (by decide) w hw


theorem wp_markedRecoverIfDown (h : v.Runs g z e) (hw : v.Fit w) :
    e.markedRecoverIfDown.wp g (fun r js w' => v.Fit w' ∧
      Scene.Recovered z (v.scene w) r (js.map (Span.map v.scene)) (v.scene w')) w := by
  unfold Engine.markedRecoverIfDown
  rw [MarkedAction.wp_bind, MarkedAction.wp_lift, wp_health h.core, MarkedAction.andThen_ok]
  simp only [List.nil_append]
  by_cases hdown : (v.scene w).health = .down
  · rw [if_pos hdown, MarkedAction.wp_locked, MarkedAction.wp_bind, MarkedAction.wp_lift,
      wp_health h.core, MarkedAction.andThen_ok, if_pos hdown, MarkedAction.wp_bind]
    refine MarkedAction.wp_mono (wp_run .recovery (h.wp_recovery hw)) ?_
    rintro r js w' ⟨hfit, r', rfl, hc, hjs⟩
    rw [MarkedAction.andThen_ok]
    cases r' with
    | ok report =>
      simp only [MarkedAction.wp_lift, List.nil_append, List.append_nil]
      refine Action.wp_mono (wp_askUp h.core hfit) ?_
      rintro _ w'' ⟨hfit', rfl, hup⟩
      rw [hjs, hup]
      exact ⟨hfit', .done report _ hdown hc⟩
    | error cause =>
      simp only [MarkedAction.wp_lift, Action.wp_fail, List.nil_append, List.append_nil]
      rw [hjs]
      exact ⟨hfit, .failed cause _ hdown hc⟩
  · rw [if_neg hdown, MarkedAction.wp_pure]
    have hup : (v.scene w).health = .up := by
      cases hh : (v.scene w).health with
      | up => rfl
      | down => exact absurd hh hdown
    exact ⟨hw, .idle hup⟩

theorem wp_markedRepairSecondary (h : v.Runs g z e) (hw : v.Fit w) :
    e.markedRepairSecondary.wp g (fun r js w' => v.Fit w' ∧ r = .ok () ∧
      ∃ report, Scene.Converged z .primary .secondary (v.scene w) (v.scene w') report ∧
        js.map (Span.map v.scene) = [⟨.repair, v.scene w, report, v.scene w'⟩]) w := by
  unfold Engine.markedRepairSecondary
  rw [MarkedAction.wp_locked, MarkedAction.wp_bind]
  refine MarkedAction.wp_mono (wp_run .repair (h.wp_repair hw)) ?_
  rintro r js w' ⟨hfit, r', rfl, hc, hjs⟩
  rw [MarkedAction.andThen_ok, MarkedAction.wp_pure, List.append_nil]
  exact ⟨hfit, rfl, _, hc, hjs⟩

variable {op : H → Action V α} {eff : Effect σ α}

/-- Once the primary has failed, the pair is down and the secondary is asked. -/
theorem wp_diverted (h : v.Runs g z e)
    (hop : v.Carries g z (fun side => op (e.storeOn side)) eff) (hw : v.Fit w)
    (cause : StoreError) :
    MarkedAction.wp g (do e.markDown cause; op e.secondary) (fun r js w' => v.Fit w' ∧
      js = [] ∧ Scene.Tried z eff .secondary ((v.scene w).turn .down) (v.scene w') r) w := by
  rw [MarkedAction.wp_bind, MarkedAction.wp_lift]
  refine Action.wp_mono (wp_markDown h.core hw cause) ?_
  rintro _ w₁ ⟨hw₁, rfl, hdown⟩
  rw [MarkedAction.andThen_ok, MarkedAction.wp_lift]
  refine Action.wp_mono (hop .secondary w₁ hw₁) ?_
  rintro r w₂ ⟨hw₂, second⟩
  rw [hdown] at second
  exact ⟨hw₂, rfl, second⟩

/-- A success of the primary counts once a recovery, if one is due, has ended well. -/
theorem wp_recovering (h : v.Runs g z e) (hw : v.Fit w) (a : α) :
    MarkedAction.wp g (do e.markedRecoverIfDown; return a) (fun r js w' => v.Fit w' ∧
      ∃ r', r = r'.map (fun _ => a) ∧
        Scene.Recovered z (v.scene w) r' (js.map (Span.map v.scene)) (v.scene w')) w := by
  rw [MarkedAction.wp_bind]
  refine MarkedAction.wp_mono (wp_markedRecoverIfDown h hw) ?_
  rintro r js w' ⟨hw', recovered⟩
  cases r with
  | ok _ =>
    rw [MarkedAction.andThen_ok, MarkedAction.wp_pure, List.append_nil]
    exact ⟨hw', _, rfl, recovered⟩
  | error halt => exact ⟨hw', .error halt, rfl, recovered⟩

theorem wp_markedFallback (h : v.Runs g z e)
    (hop : v.Carries g z (fun side => op (e.storeOn side)) eff) (hw : v.Fit w) :
    (e.markedFallback fun h => liftM (op h)).wp g (fun r js w' => v.Fit w' ∧
      Scene.Fallback z eff (v.scene w) r (js.map (Span.map v.scene)) (v.scene w')) w := by
  unfold Engine.markedFallback
  rw [MarkedAction.wp_bind, MarkedAction.wp_attempt, MarkedAction.wp_lift]
  refine Action.wp_mono (hop .primary w hw) ?_
  rintro r w₁ ⟨hw₁, first⟩
  rcases r with (cause | n) | a
  · rw [MarkedAction.attempted, MarkedAction.andThen_ok]
    refine MarkedAction.wp_mono (wp_diverted h hop hw₁ cause) ?_
    rintro r _ w₂ ⟨hw₂, rfl, second⟩
    exact ⟨hw₂, .diverted cause _ r _ first second⟩
  · cases first
  · rw [MarkedAction.attempted, MarkedAction.andThen_ok]
    refine MarkedAction.wp_mono (wp_recovering h hw₁ a) ?_
    rintro _ js w₂ ⟨hw₂, r, rfl, recovered⟩
    exact ⟨hw₂, .kept a _ r _ _ first recovered⟩

theorem wp_markedReplicate (h : v.Runs g z e)
    (hop : v.Carries g z (fun side => op (e.storeOn side)) eff) (hw : v.Fit w) :
    (e.markedReplicate fun h => liftM (op h)).wp g (fun r js w' => v.Fit w' ∧
      Scene.Replicate z eff (v.scene w) r (js.map (Span.map v.scene)) (v.scene w')) w := by
  unfold Engine.markedReplicate
  rw [MarkedAction.wp_bind, MarkedAction.wp_attempt, MarkedAction.wp_lift]
  refine Action.wp_mono (hop .primary w hw) ?_
  rintro r w₁ ⟨hw₁, first⟩
  rcases r with (cause | n) | a
  · rw [MarkedAction.attempted, MarkedAction.andThen_ok, MarkedAction.wp_bind,
      MarkedAction.wp_attempt, MarkedAction.wp_lift]
    refine Action.wp_mono (hop .secondary w₁ hw₁) ?_
    rintro r w₂ ⟨hw₂, second⟩
    -- The pair goes down before the secondary's answer is returned.
    have hdown : ∀ b : Except StoreError α, r = b.mapError Halt.failed →
        MarkedAction.wp g (do e.markDown cause; Action.ofExcept (V := V) b)
          (fun r' js w' => v.Fit w' ∧
            Scene.Replicate z eff (v.scene w) r' (js.map (Span.map v.scene)) (v.scene w')) w₂ := by
      rintro b rfl
      rw [MarkedAction.wp_bind, MarkedAction.wp_lift]
      refine Action.wp_mono (wp_markDown h.core hw₂ cause) ?_
      rintro _ w₃ ⟨hw₃, rfl, hturn⟩
      rw [MarkedAction.andThen_ok, MarkedAction.wp_lift, Action.wp_ofExcept]
      refine ⟨hw₃, ?_⟩
      rw [hturn]
      exact .diverted cause _ _ _ first second
    rcases r with (cause' | n) | b
    · exact hdown (.error cause') rfl
    · cases second
    · exact hdown (.ok b) rfl
  · cases first
  · rw [MarkedAction.attempted, MarkedAction.andThen_ok, MarkedAction.wp_bind,
      MarkedAction.wp_attempt, MarkedAction.wp_lift]
    refine Action.wp_mono (hop .secondary w₁ hw₁) ?_
    rintro r w₂ ⟨hw₂, second⟩
    have hkept : ∀ w₃, v.Fit w₃ → v.scene w₃ = v.scene w₂ →
        MarkedAction.wp g (do e.markedRecoverIfDown; return a) (fun r' js w' => v.Fit w' ∧
          Scene.Replicate z eff (v.scene w) r' (js.map (Span.map v.scene)) (v.scene w')) w₃ := by
      intro w₃ hw₃ hsame
      refine MarkedAction.wp_mono (wp_recovering h hw₃ a) ?_
      rintro _ js w₄ ⟨hw₄, r', rfl, recovered⟩
      rw [hsame] at recovered
      exact ⟨hw₄, .kept a _ r _ r' _ _ first second recovered⟩
    rcases r with (cause' | n) | b
    · rw [MarkedAction.attempted, MarkedAction.andThen_ok]
      dsimp only
      rw [MarkedAction.wp_bind, MarkedAction.wp_lift]
      refine Action.wp_mono (wp_noteSecondaryError hw₂) ?_
      rintro _ w₃ ⟨hw₃, rfl, hsame⟩
      exact hkept w₃ hw₃ hsame
    · cases second
    · exact hkept w₂ hw₂ rfl

theorem wp_markedBackup [WriteOutcome α] (h : v.Runs g z e)
    (hop : v.Carries g z (fun side => op (e.storeOn side)) eff) (hw : v.Fit w) :
    (e.markedBackup fun h => liftM (op h)).wp g (fun r js w' => v.Fit w' ∧
      Scene.Backup z eff (v.scene w) r (js.map (Span.map v.scene)) (v.scene w')) w := by
  unfold Engine.markedBackup
  rw [MarkedAction.wp_bind, MarkedAction.wp_attempt, MarkedAction.wp_lift]
  refine Action.wp_mono (hop .primary w hw) ?_
  rintro r w₁ ⟨hw₁, first⟩
  rcases r with (cause | n) | a
  · rw [MarkedAction.attempted, MarkedAction.andThen_ok]
    refine MarkedAction.wp_mono (wp_diverted h hop hw₁ cause) ?_
    rintro r _ w₂ ⟨hw₂, rfl, second⟩
    exact ⟨hw₂, .diverted cause _ r _ first second⟩
  · cases first
  rw [MarkedAction.attempted, MarkedAction.andThen_ok]
  dsimp only
  by_cases hacc : WriteOutcome.isAccepted a = true
  · rw [if_pos hacc, MarkedAction.wp_bind, MarkedAction.wp_attempt, MarkedAction.wp_lift]
    refine Action.wp_mono (hop .secondary w₁ hw₁) ?_
    rintro r w₂ ⟨hw₂, second⟩
    rcases r with (cause | n) | b
    · rw [MarkedAction.attempted, MarkedAction.andThen_ok, MarkedAction.wp_bind]
      refine MarkedAction.wp_mono (wp_markedRecoverIfDown h hw₂) ?_
      rintro r js w₃ ⟨hw₃, recovered⟩
      cases r with
      | error halt => exact ⟨hw₃, .unrecovered a _ cause _ halt _ _ first second recovered⟩
      | ok _ =>
        rw [MarkedAction.andThen_ok]
        dsimp only
        rw [MarkedAction.wp_bind, MarkedAction.wp_lift]
        refine Action.wp_mono (wp_noteSecondaryError hw₃) ?_
        rintro _ w₄ ⟨hw₄, rfl, hsame⟩
        rw [MarkedAction.andThen_ok, MarkedAction.wp_bind]
        refine MarkedAction.wp_mono (wp_markedRepairSecondary h hw₄) ?_
        rintro _ js' w₅ ⟨hw₅, rfl, report, repair, hjs⟩
        rw [MarkedAction.andThen_ok, MarkedAction.wp_pure]
        refine ⟨hw₅, ?_⟩
        rw [hsame] at repair hjs
        simp only [List.nil_append, List.append_nil, List.map_append, hjs]
        exact .repaired a _ cause _ _ _ report _ first second recovered repair
    · cases second
    · rw [MarkedAction.attempted, MarkedAction.andThen_ok]
      dsimp only
      refine MarkedAction.wp_mono (wp_recovering h hw₂ a) ?_
      rintro _ js w₃ ⟨hw₃, r, rfl, recovered⟩
      exact ⟨hw₃, .passedOn a _ b _ r _ _ first second recovered⟩
  · rw [if_neg hacc, MarkedAction.wp_pure]
    exact ⟨hw₁, .rejected a _ first (by simpa using hacc)⟩

end Templates

end View

end TwinStore
