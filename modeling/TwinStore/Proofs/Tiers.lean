import TwinStore.Cache.Tier
import TwinStore.Proofs.Stands
import TwinStore.Proofs.View

/-!
# What a cache before a source can do

A cache tier is a pair of stores, its source on the primary side and its cache on the secondary
side, so a `View` of the two shows a `Scene`. What a read and a write of the tier can do is said
once, as `Scene.CacheRead` and `Scene.CacheWrite`; that the tier does what they allow is
`CacheTier.wp_read`, `CacheTier.wp_readThrough` and `CacheTier.wp_markedWrite`, over any two stores
that carry the operation out and any way to fill, update and refresh the cache.

Whatever fails in the cache, the error that a caller gets is the source's own
(`CacheTier.SourceFails`). Where nothing fails, a tier does no more than ask its two stores
(`CacheTier.ends_read`, `CacheTier.ends_write`).
-/

namespace TwinStore

variable {V H σ α : Type}

/-! ## On scenes -/

namespace Scene

section Relations

variable (z : Hazard σ) (e : Effect σ α)

/-- The cache has an answer of use, or one of no use, or fails. -/
inductive Probed [CacheProbe α] (s : Scene σ) : Option α → Prop
  | hit (a : α) (answers : e.answers (s.contents .secondary) a) (hit : CacheProbe.isHit a = true) :
      Probed s (some a)
  | missed (a : α) (answers : e.answers (s.contents .secondary) a)
      (miss : CacheProbe.isHit a = false) : Probed s none
  | failed (frail : z.frail .secondary) : Probed s none

/-- The cache is asked, and then the source if the cache has no answer of use. What the source
answers may be put into the cache. -/
inductive CacheRead [CacheProbe α] (fill : α → Scene σ → Scene σ → Prop) (s : Scene σ) :
    Except Halt α → Scene σ → Prop
  | hit (a : α) (s' : Scene σ) (probed : Probed z e s (some a))
      (same : s'.contents = s.contents) : CacheRead fill s (.ok a) s'
  | failed (cause : StoreError) (s' : Scene σ) (probed : Probed z e s none)
      (frail : z.frail .primary) (same : s'.contents = s.contents) :
      CacheRead fill s (.error (.failed cause)) s'
  | unfilled (a : α) (s' : Scene σ) (probed : Probed z e s none)
      (answers : e.answers (s.contents .primary) a) (miss : CacheProbe.isHit a = false)
      (same : s'.contents = s.contents) : CacheRead fill s (.ok a) s'
  | filled (a : α) (s₁ s' : Scene σ) (probed : Probed z e s none)
      (answers : e.answers (s.contents .primary) a) (hit : CacheProbe.isHit a = true)
      (same : s₁.contents = s.contents) (filled : fill a s₁ s') : CacheRead fill s (.ok a) s'

/-- The source is written to. After that the cache is left alone, or it is updated; if the update
fails or is refused, the cache is refreshed. -/
inductive CacheWrite (stays : α → Prop) (changes : α → Scene σ → Except Halt Bool → Scene σ → Prop)
    (refreshes : Scene σ → Except Halt Report → Scene σ → Prop) (s : Scene σ) :
    Except Halt α → List (Span (Scene σ)) → Scene σ → Prop
  | failed (cause : StoreError) (s₁ : Scene σ)
      (first : Tried z e .primary s s₁ (.error (.failed cause))) :
      CacheWrite stays changes refreshes s (.error (.failed cause)) [] s₁
  | left (a : α) (s₁ : Scene σ) (first : Tried z e .primary s s₁ (.ok a)) (h : stays a) :
      CacheWrite stays changes refreshes s (.ok a) [] s₁
  | updated (a : α) (s₁ s₂ : Scene σ) (first : Tried z e .primary s s₁ (.ok a))
      (change : changes a s₁ (.ok true) s₂) : CacheWrite stays changes refreshes s (.ok a) [] s₂
  | refreshed (a : α) (s₁ : Scene σ) (r : Except Halt Bool) (s₂ : Scene σ)
      (report : Except Halt Report) (s₃ : Scene σ) (first : Tried z e .primary s s₁ (.ok a))
      (change : changes a s₁ r s₂) (missed : r ≠ .ok true) (refresh : refreshes s₂ report s₃) :
      CacheWrite stays changes refreshes s (.ok a) [⟨.repair, s₂, report, s₃⟩] s₃

end Relations

section Consequences

variable {z : Hazard σ} {s s' : Scene σ}

/-- Something that writes to one store is not cut short. -/
theorem Wrote.uncut {good : α → σ → Prop} {left : σ → Prop} {dest : Side} {r : Except Halt α}
    (h : Wrote z good left dest s s' r) : ∃ r', r = Except.mapError Halt.failed r' := by
  cases h with
  | done a _ _ _ => exact ⟨.ok a, rfl⟩
  | failed cause _ _ _ _ _ => exact ⟨.error cause, rfl⟩

end Consequences

end Scene

namespace CacheTier

variable (c : CacheTier V H)

/-- The store on a side: the source is the primary one, the cache the secondary one. -/
def storeOn : Side → H
  | .primary => c.source
  | .secondary => c.cache

/-- An error with which something ends is one with which the operation ends at the source, after
which nothing happens. -/
def SourceFails (g : Regime V) (op : H → Action V α) (r : Except Halt α) (w' : World V) : Prop :=
  ∀ halt, r = .error halt → ∃ w₁, g.act w₁ (op c.source) = (.error halt, w')

variable {c} in
theorem sourceFails_ok {g : Regime V} {op : H → Action V α} (a : α) (w' : World V) :
    c.SourceFails g op (.ok a) w' := fun _ h => nomatch h

/-! ## Marked writes -/

/-- Make an update of the cache; the answer says whether it was made. -/
def applied (change : Action V Bool) : Action V Bool := do
  match ← Action.attempt change with
  | .ok accepted => pure accepted
  | .error _ =>
    c.noteError .write
    pure false

/-- `CacheTier.write`, its refresh marked. -/
def markedWrite (op : H → Action V α) (update : H → α → Option (Action V Bool)) :
    MarkedAction V α := do
  let a ← (op c.source : Action V α)
  if let some change := update c.cache a then
    let applied ← (c.applied change : Action V Bool)
    if !applied then
      let _ ← (MarkedAction.run .repair (c.refresh none)).attempt
  return a

/-- Marks aside, a marked write is a write. -/
theorem erase_markedWrite (op : H → Action V α) (update : H → α → Option (Action V Bool)) :
    (c.markedWrite op update).erase = c.write op update := by
  unfold markedWrite write
  rw [MarkedAction.erase_bind, MarkedAction.erase_lift]
  refine congrArg (op c.source >>= ·) (funext fun a => ?_)
  cases update c.cache a with
  | none => rfl
  | some change =>
    dsimp only
    have hrefresh : ∀ accepted : Bool, MarkedAction.erase (V := V) (do
        if !accepted then
          let _ ← (MarkedAction.run .repair (c.refresh none)).attempt
        return a) = (do
        if !accepted then
          let _ ← Action.attempt (c.refresh none)
        return a) := by
      rintro (_ | _)
      · simp only [Bool.not_false, if_true]
        rw [MarkedAction.erase_bind, MarkedAction.erase_attempt, MarkedAction.erase_run]
        rfl
      · rfl
    rw [MarkedAction.erase_bind, MarkedAction.erase_lift, funext hrefresh, applied, bind_assoc]
    refine congrArg (Action.attempt change >>= ·) (funext fun r => ?_)
    cases r <;> rfl

/-! ## In the world -/

section World

variable {c} {v : View V σ} {g : Regime V} {z : Hazard σ} {w : World V} {op : H → Action V α}
  {eff : Effect σ α}

/-- What the source is asked changes nothing. -/
theorem wp_source (hop : v.Carries g z (fun side => op (c.storeOn side)) eff)
    (hread : ∀ x, eff.after x = x) (hw : v.Fit w) :
    (op c.source).wp g (fun r w' => v.Fit w' ∧ (v.scene w').contents = (v.scene w).contents ∧
      ((∃ a, r = .ok a ∧ eff.answers ((v.scene w).contents .primary) a) ∨
        ∃ cause, r = .error (.failed cause) ∧ z.frail .primary)) w := by
  refine Action.wp_mono (hop .primary w hw) ?_
  rintro r w₁ ⟨hw₁, htried⟩
  cases htried with
  | failed cause frail eq =>
    have hsame := (congrArg Scene.contents eq).trans (Scene.contents_blame _ _)
    exact ⟨hw₁, hsame, .inr ⟨cause, rfl, frail⟩⟩
  | done a answers eq =>
    rw [hread, Scene.put_contents] at eq
    exact ⟨hw₁, congrArg Scene.contents eq, .inl ⟨a, rfl, answers⟩⟩

section Reads

variable [CacheProbe α] (hop : v.Carries g z (fun side => op (c.storeOn side)) eff)
  (hread : ∀ x, eff.after x = x) (hw : v.Fit w)
include hop hread hw

theorem wp_probe :
    (c.probe op).wp g (fun r w' => v.Fit w' ∧ (v.scene w').contents = (v.scene w).contents ∧
      ∃ a?, r = .ok a? ∧ Scene.Probed z eff (v.scene w) a?) w := by
  unfold probe
  rw [Action.wp_bind, Action.wp_attempt]
  refine Action.wp_mono (hop .secondary w hw) ?_
  rintro r w₁ ⟨hw₁, htried⟩
  cases htried with
  | failed cause frail eq =>
    rw [MarkedAction.attempted, Action.andThen_ok]
    refine ⟨View.fit_count hw₁ _ _, ?_, none, rfl, .failed frail⟩
    exact (congrArg Scene.contents ((View.scene_count _ _).trans eq)).trans
      (Scene.contents_blame _ _)
  | done a answers eq =>
    rw [hread, Scene.put_contents] at eq
    rw [MarkedAction.attempted, Action.andThen_ok]
    dsimp only
    rw [Action.wp_bind, Action.wp_count, Action.andThen_ok, Action.wp_pure]
    refine ⟨View.fit_count hw₁ _ _, ?_, _, rfl, ?_⟩
    · exact congrArg Scene.contents ((View.scene_count _ _).trans eq)
    · cases hhit : CacheProbe.isHit a with
      | true => exact .hit a answers hhit
      | false => exact .missed a answers hhit

theorem wp_read {backfill : H → α → Action V Unit} (fill : α → Scene σ → Scene σ → Prop)
    (hfill : ∀ a w, CacheProbe.isHit a = true → v.Fit w → (backfill c.cache a).wp g (fun r w' =>
      v.Fit w' ∧ (∃ r', r = Except.mapError Halt.failed r') ∧ fill a (v.scene w) (v.scene w')) w) :
    (c.read op backfill).wp g (fun r w' => v.Fit w' ∧ c.SourceFails g op r w' ∧
      Scene.CacheRead z eff fill (v.scene w) r (v.scene w')) w := by
  unfold read
  rw [Action.wp_bind]
  refine Action.wp_mono (wp_probe hop hread hw) ?_
  rintro _ w₁ ⟨hw₁, hsame₁, a?, rfl, hprobed⟩
  rw [Action.andThen_ok]
  cases a? with
  | some a => exact ⟨hw₁, sourceFails_ok a w₁, .hit a _ hprobed hsame₁⟩
  | none =>
    dsimp only
    rw [Action.wp_bind]
    refine Action.wp_mono (Action.wp_and (wp_source hop hread hw₁) (Action.wp_act _)) ?_
    rintro r w₂ ⟨⟨hw₂, hsame₂, hanswered⟩, hact⟩
    rw [hsame₁] at hsame₂ hanswered
    obtain ⟨a, rfl, answers⟩ | ⟨cause, rfl, frail⟩ := hanswered
    · rw [Action.andThen_ok]
      cases hhit : CacheProbe.isHit a with
      | false => exact ⟨hw₂, sourceFails_ok a w₂, .unfilled a _ hprobed answers hhit hsame₂⟩
      | true =>
        simp only [if_true]
        rw [Action.wp_bind, Action.wp_attempt]
        refine Action.wp_mono (hfill a w₂ hhit hw₂) ?_
        rintro _ w₃ ⟨hw₃, ⟨r, rfl⟩, hfilled⟩
        have hread := Scene.CacheRead.filled a _ _ hprobed answers hhit hsame₂ hfilled
        rw [MarkedAction.attempted_mapError, Action.andThen_ok]
        cases r with
        | ok _ => exact ⟨hw₃, sourceFails_ok a w₃, hread⟩
        | error cause =>
          dsimp only [noteError]
          rw [Action.wp_bind, Action.wp_count, Action.andThen_ok, Action.wp_pure, View.scene_count]
          exact ⟨View.fit_count hw₃ _ _, sourceFails_ok a _, hread⟩
    · refine ⟨hw₂, fun halt h => ⟨w₁, ?_⟩, .failed cause _ hprobed frail hsame₂⟩
      rw [hact, h]

/-- A read that never fills the cache leaves both stores as they are. -/
theorem wp_readThrough :
    (c.readThrough op).wp g (fun r w' => v.Fit w' ∧ c.SourceFails g op r w' ∧
      Scene.CacheRead z eff (fun _ s s' => s' = s) (v.scene w) r (v.scene w')) w := by
  unfold readThrough
  rw [Action.wp_bind]
  refine Action.wp_mono (wp_probe hop hread hw) ?_
  rintro _ w₁ ⟨hw₁, hsame₁, a?, rfl, hprobed⟩
  rw [Action.andThen_ok]
  cases a? with
  | some a => exact ⟨hw₁, sourceFails_ok a w₁, .hit a _ hprobed hsame₁⟩
  | none =>
    refine Action.wp_mono (Action.wp_and (wp_source hop hread hw₁) (Action.wp_act _)) ?_
    rintro r w₂ ⟨⟨hw₂, hsame₂, hanswered⟩, hact⟩
    rw [hsame₁] at hsame₂ hanswered
    obtain ⟨a, rfl, answers⟩ | ⟨cause, rfl, frail⟩ := hanswered
    · refine ⟨hw₂, sourceFails_ok a w₂, ?_⟩
      cases hhit : CacheProbe.isHit a with
      | false => exact .unfilled a _ hprobed answers hhit hsame₂
      | true => exact .filled a _ _ hprobed answers hhit hsame₂ rfl
    · refine ⟨hw₂, fun halt h => ⟨w₁, ?_⟩, .failed cause _ hprobed frail hsame₂⟩
      rw [hact, h]

end Reads

theorem wp_applied {change : Action V Bool} {changes : Scene σ → Except Halt Bool → Scene σ → Prop}
    (h : change.wp g (fun r w' => v.Fit w' ∧ (∃ r', r = Except.mapError Halt.failed r') ∧
      changes (v.scene w) r (v.scene w')) w) :
    (c.applied change).wp g (fun r w' => v.Fit w' ∧ ∃ accepted r', r = .ok accepted ∧
      (accepted = true ↔ r' = .ok true) ∧ changes (v.scene w) r' (v.scene w')) w := by
  unfold applied
  rw [Action.wp_bind, Action.wp_attempt]
  refine Action.wp_mono h ?_
  rintro _ w' ⟨hw', ⟨r, rfl⟩, hchanged⟩
  rw [MarkedAction.attempted_mapError, Action.andThen_ok]
  cases r with
  | ok accepted => exact ⟨hw', accepted, _, rfl, ⟨congrArg _, Except.ok.inj⟩, hchanged⟩
  | error cause =>
    dsimp only [noteError]
    rw [Action.wp_bind, Action.wp_count, Action.andThen_ok, Action.wp_pure, View.scene_count]
    refine ⟨View.fit_count hw' _ _, false, _, rfl, ?_, hchanged⟩
    exact ⟨fun h => absurd h Bool.false_ne_true, fun h => by cases h⟩

theorem wp_markedWrite {update : H → α → Option (Action V Bool)} (stays : α → Prop)
    (changes : α → Scene σ → Except Halt Bool → Scene σ → Prop)
    (refreshes : Scene σ → Except Halt Report → Scene σ → Prop)
    (hop : v.Carries g z (fun side => op (c.storeOn side)) eff)
    (hstays : ∀ a, update c.cache a = none → stays a)
    (hupdate : ∀ a change w, update c.cache a = some change → v.Fit w → change.wp g (fun r w' =>
      v.Fit w' ∧ (∃ r', r = Except.mapError Halt.failed r') ∧
        changes a (v.scene w) r (v.scene w')) w)
    (hrefresh : ∀ w, v.Fit w → (c.refresh none).wp g (fun r w' => v.Fit w' ∧
      (∃ r', r = Except.mapError Halt.failed r') ∧ refreshes (v.scene w) r (v.scene w')) w)
    (hw : v.Fit w) :
    (c.markedWrite op update).wp g (fun r js w' => v.Fit w' ∧ c.SourceFails g op r w' ∧
      Scene.CacheWrite z eff stays changes refreshes (v.scene w) r (js.map (Span.map v.scene))
        (v.scene w')) w := by
  unfold markedWrite
  rw [MarkedAction.wp_bind, MarkedAction.wp_lift]
  refine Action.wp_mono (Action.wp_and (hop .primary w hw) (Action.wp_act _)) ?_
  rintro r w₁ ⟨⟨hw₁, first⟩, hact⟩
  rcases r with (cause | n) | a
  · exact ⟨hw₁, fun halt h => ⟨w, hact.trans (by rw [h])⟩, .failed cause _ first⟩
  · cases first
  rw [MarkedAction.andThen_ok]
  cases hchange : update c.cache a with
  | none =>
    dsimp only
    rw [MarkedAction.wp_pure, List.append_nil]
    exact ⟨hw₁, sourceFails_ok a w₁, .left a _ first (hstays a hchange)⟩
  | some change =>
    dsimp only
    rw [MarkedAction.wp_bind, MarkedAction.wp_lift]
    refine Action.wp_mono (wp_applied (hupdate a change w₁ hchange hw₁)) ?_
    rintro _ w₂ ⟨hw₂, accepted, r, rfl, haccepted, hchanged⟩
    rw [MarkedAction.andThen_ok]
    cases accepted with
    | true =>
      cases haccepted.1 rfl
      exact ⟨hw₂, sourceFails_ok a w₂, .updated a _ _ first hchanged⟩
    | false =>
      simp only [Bool.not_false, if_true]
      rw [MarkedAction.wp_bind, MarkedAction.wp_attempt, MarkedAction.wp_run]
      refine Action.wp_mono (hrefresh w₂ hw₂) ?_
      rintro _ w₃ ⟨hw₃, ⟨report, rfl⟩, hrefreshed⟩
      rw [MarkedAction.attempted_mapError, MarkedAction.andThen_ok, MarkedAction.wp_pure]
      have hmissed : r ≠ .ok true := fun h => nomatch haccepted.2 h
      exact ⟨hw₃, sourceFails_ok a w₃, .refreshed a _ r _ _ _ first hchanged hmissed hrefreshed⟩

end World

/-! ## Where nothing fails -/

section Undisturbed

variable {c} {g : Regime V} {s : Stand V} {op : H → Action V α} {post : α → Stand V → Prop}

theorem ends_probe [CacheProbe α] {post : Option α → Stand V → Prop}
    (h : (op c.cache).ends g
      (fun a s' => post (if CacheProbe.isHit a then some a else none) s') s) :
    (c.probe op).ends g post s := by
  refine Action.ends_bind (Action.ends_attempt (Action.ends_mono h ?_))
  intro a s' hpost
  exact Action.ends_bind (Action.ends_count (Action.ends_pure hpost))

/-- The cache is asked, and on a miss the source, whose answer is put into the cache. -/
theorem ends_read [CacheProbe α] {backfill : H → α → Action V Unit}
    (h : (op c.cache).ends g (fun a s' => if CacheProbe.isHit a = true then post a s' else
      (op c.source).ends g (fun b s'' => if CacheProbe.isHit b = true then
        (backfill c.cache b).ends g (fun _ s₃ => post b s₃) s'' else post b s'') s') s) :
    (c.read op backfill).ends g post s := by
  refine Action.ends_bind (ends_probe (Action.ends_mono h ?_))
  intro a s' ha
  by_cases hit : CacheProbe.isHit a = true
  · rw [if_pos hit] at ha ⊢
    exact Action.ends_pure ha
  · rw [if_neg hit] at ha ⊢
    refine Action.ends_bind (Action.ends_mono ha ?_)
    intro b s'' hb
    by_cases hit' : CacheProbe.isHit b = true
    · rw [if_pos hit'] at hb ⊢
      refine Action.ends_bind (Action.ends_attempt (Action.ends_mono hb ?_))
      exact fun _ _ hpost => Action.ends_pure hpost
    · rw [if_neg hit'] at hb ⊢
      exact Action.ends_pure hb

/-- The cache is asked, and on a miss the source. -/
theorem ends_readThrough [CacheProbe α]
    (h : (op c.cache).ends g (fun a s' => if CacheProbe.isHit a = true then post a s' else
      (op c.source).ends g post s') s) :
    (c.readThrough op).ends g post s := by
  refine Action.ends_bind (ends_probe (Action.ends_mono h ?_))
  intro a s' ha
  by_cases hit : CacheProbe.isHit a = true
  · rw [if_pos hit] at ha ⊢
    exact Action.ends_pure ha
  · rw [if_neg hit] at ha ⊢
    exact ha

/-- The source is written to, and the update of the cache that its answer calls for is made. -/
theorem ends_write {update : H → α → Option (Action V Bool)}
    (h : (op c.source).ends g (fun a s' => match update c.cache a with
      | none => post a s'
      | some change => change.ends g (fun accepted s'' => accepted = true ∧ post a s'') s') s) :
    (c.write op update).ends g post s := by
  refine Action.ends_bind (Action.ends_mono h ?_)
  intro a s' ha
  cases hchange : update c.cache a with
  | none =>
    rw [hchange] at ha
    exact Action.ends_pure ha
  | some change =>
    rw [hchange] at ha
    refine Action.ends_bind (Action.ends_attempt (Action.ends_mono ha ?_))
    rintro accepted s'' ⟨rfl, hpost⟩
    exact Action.ends_bind (Action.ends_pure (Action.ends_pure hpost))

end Undisturbed

end CacheTier

end TwinStore
