import TwinStore.Proofs.Marked

/-!
# What happens to a pair of base stores

A `Scene` is all that statements about a pair look at: what its stores hold, its health, and how
many calls to each store have failed. What a template can do is said once, as a relation between the
scenes before and after it: `Scene.Tried` for one operation on one store, `Scene.Wrote` for a
convergence run, then `Scene.Recovered`, `Scene.Fallback`, `Scene.Replicate` and `Scene.Backup`,
which also tell the journal of convergence runs. Everything else about pairs is derived from these
relations by cases.

That the programs do what the relations allow is the matter of `View.wp_markedBackup` and its likes.
-/

namespace TwinStore

variable {σ α : Type}

/-! ## Scenes -/

/-- What matters about a pair: what each store holds, the health, and how often each has failed. -/
@[ext] structure Scene (σ : Type) where
  contents : Side → σ
  health : Health
  failures : Side → Nat

/-- What an operation does to what a store holds, and what it may answer. -/
structure Effect (σ α : Type) where
  after : σ → σ
  answers : σ → α → Prop

/-- What may go wrong: which stores may fail, and what a convergence run that fails may leave in its
target, given what source and target held. -/
structure Hazard (σ : Type) where
  frail : Side → Prop
  leaves : σ → σ → σ → Prop

namespace Scene

/-- A store holds something else. -/
def put (s : Scene σ) (side : Side) (c : σ) : Scene σ :=
  { s with contents := fun x => if x = side then c else s.contents x }

/-- A store has failed once more. -/
def blame (s : Scene σ) (side : Side) : Scene σ :=
  { s with failures := fun x => if x = side then s.failures x + 1 else s.failures x }

/-- The pair is in another health. -/
def turn (s : Scene σ) (health : Health) : Scene σ :=
  { s with health }

section Fields

variable (s : Scene σ) (side side' : Side) (c : σ) (h : Health)

@[simp] theorem contents_put_self : (s.put side c).contents side = c := if_pos rfl

theorem contents_put_of_ne {side side' : Side} (hne : side' ≠ side) :
    (s.put side c).contents side' = s.contents side' := if_neg hne

@[simp] theorem secondary_put_primary :
    (s.put .primary c).contents .secondary = s.contents .secondary := rfl

@[simp] theorem primary_put_secondary :
    (s.put .secondary c).contents .primary = s.contents .primary := rfl

@[simp] theorem health_put : (s.put side c).health = s.health := rfl
@[simp] theorem failures_put : (s.put side c).failures = s.failures := rfl
@[simp] theorem contents_blame : (s.blame side).contents = s.contents := rfl
@[simp] theorem health_blame : (s.blame side).health = s.health := rfl

@[simp] theorem failures_blame_self : (s.blame side).failures side = s.failures side + 1 :=
  if_pos rfl

theorem failures_le_blame : s.failures side' ≤ (s.blame side).failures side' := by
  unfold blame
  dsimp only
  split <;> omega

@[simp] theorem contents_turn : (s.turn h).contents = s.contents := rfl
@[simp] theorem health_turn : (s.turn h).health = h := rfl
@[simp] theorem failures_turn : (s.turn h).failures = s.failures := rfl

@[simp] theorem put_put (c' : σ) : (s.put side c).put side c' = s.put side c' := by
  unfold put
  congr 1
  funext x
  dsimp only
  split <;> rfl

@[simp] theorem put_contents : s.put side (s.contents side) = s := by
  ext x
  · by_cases hx : x = side
    · subst hx
      rw [contents_put_self]
    · rw [contents_put_of_ne _ _ hx]
  all_goals rfl

/-- It does not matter which store is written to first. -/
theorem put_comm {side side' : Side} (hne : side ≠ side') (c' : σ) :
    (s.put side c).put side' c' = (s.put side' c').put side c := by
  ext x
  · by_cases hx : x = side
    · subst hx
      rw [contents_put_self, contents_put_of_ne _ _ hne, contents_put_self]
    · rw [contents_put_of_ne _ _ hx]
      by_cases hx' : x = side'
      · subst hx'
        rw [contents_put_self, contents_put_self]
      · rw [contents_put_of_ne _ _ hx', contents_put_of_ne _ _ hx', contents_put_of_ne _ _ hx]
  all_goals rfl

theorem turn_health : s.turn s.health = s := rfl

end Fields

/-! ## What one operation and one run can do -/

/-- An operation on one store is done, or fails without effect. -/
inductive Tried (z : Hazard σ) (e : Effect σ α) (side : Side) (s s' : Scene σ) :
    Except Halt α → Prop
  | done (a : α) (answers : e.answers (s.contents side) a)
      (eq : s' = s.put side (e.after (s.contents side))) : Tried z e side s s' (.ok a)
  | failed (cause : StoreError) (frail : z.frail side) (eq : s' = s.blame side) :
      Tried z e side s s' (.error (.failed cause))

/-- Nothing has happened but failures, one of them at the given store. -/
structure Worse (side : Side) (s s' : Scene σ) : Prop where
  contents : s'.contents = s.contents
  health : s'.health = s.health
  monotone : ∀ x, s.failures x ≤ s'.failures x
  failed : s.failures side < s'.failures side

theorem worse_blame (s : Scene σ) (side : Side) : Worse side s (s.blame side) where
  contents := rfl
  health := rfl
  monotone x := s.failures_le_blame side x
  failed := by
    rw [failures_blame_self]
    exact Nat.lt_succ_self _

theorem Worse.of_blame {side side' : Side} {s s' : Scene σ} (h : Worse side' (s.blame side) s') :
    Worse side' s s' where
  contents := h.contents
  health := h.health
  monotone x := Nat.le_trans (s.failures_le_blame side x) (h.monotone x)
  failed := Nat.lt_of_le_of_lt (s.failures_le_blame side side') h.failed

/-- Something that writes to one store in many calls ends well, with a result and contents for which
`good` holds, or fails at a call to either store and leaves contents for which `left` holds. -/
inductive Wrote (z : Hazard σ) (good : α → σ → Prop) (left : σ → Prop) (dest : Side)
    (s s' : Scene σ) : Except Halt α → Prop
  | done (a : α) (c : σ) (h : good a c) (eq : s' = s.put dest c) :
      Wrote z good left dest s s' (.ok a)
  | failed (cause : StoreError) (side : Side) (c : σ) (h : left c) (frail : z.frail side)
      (worse : Worse side (s.put dest c) s') : Wrote z good left dest s s' (.error (.failed cause))

/-- A convergence run makes the target hold what the source holds, or fails on the way. -/
def Converged (z : Hazard σ) (source target : Side) (s s' : Scene σ) :
    Except Halt Report → Prop :=
  Wrote z (fun _ c => c = s.contents source)
    (z.leaves (s.contents source) (s.contents target)) target s s'

theorem Wrote.mono {z : Hazard σ} {good good' : α → σ → Prop} {left left' : σ → Prop} {dest : Side}
    {s s' : Scene σ} {r : Except Halt α} (h : Wrote z good left dest s s' r)
    (hg : ∀ a c, good a c → good' a c) (hl : ∀ c, left c → left' c) :
    Wrote z good' left' dest s s' r := by
  cases h with
  | done a c g eq => exact .done a c (hg a c g) eq
  | failed cause side c l frail worse => exact .failed cause side c (hl c l) frail worse

/-- A failure before anything was written is a write that failed. -/
theorem Wrote.of_blame {z : Hazard σ} {good : α → σ → Prop} {left : σ → Prop} {dest side : Side}
    {s s' : Scene σ} {c : σ} (cause : StoreError) (hc : s.contents dest = c) (hl : left c)
    (frail : z.frail side) (eq : s' = s.blame side) :
    Wrote z good left dest s s' (.error (.failed cause)) := by
  refine .failed cause side c hl frail ?_
  rw [← hc, put_contents, eq]
  exact worse_blame s side

/-- A write after something else was put into the store is a write from what was there before. -/
theorem Wrote.of_put {z : Hazard σ} {good : α → σ → Prop} {left : σ → Prop} {dest : Side} {c : σ}
    {s s' : Scene σ} {r : Except Halt α} (h : Wrote z good left dest (s.put dest c) s' r) :
    Wrote z good left dest s s' r := by
  cases h with
  | done a c g eq => exact .done a c g (by rw [eq, put_put])
  | failed cause side c l frail worse =>
    rw [put_put] at worse
    exact .failed cause side c l frail worse

/-! ## What the templates can do -/

section Templates

variable (z : Hazard σ)

/-- A pair that is up is left alone. One that is down is up again once its primary holds what its
secondary holds; until then it stays down. -/
inductive Recovered (s : Scene σ) :
    Except Halt Unit → List (Span (Scene σ)) → Scene σ → Prop
  | idle (up : s.health = .up) : Recovered s (.ok ()) [] s
  | done (report : Report) (s' : Scene σ) (down : s.health = .down)
      (run : Converged z .secondary .primary s s' (.ok report)) :
      Recovered s (.ok ()) [⟨.recovery, s, .ok report, s'⟩] (s'.turn .up)
  | failed (cause : StoreError) (s' : Scene σ) (down : s.health = .down)
      (run : Converged z .secondary .primary s s' (.error (.failed cause))) :
      Recovered s (.error (.failed (.resync cause)))
        [⟨.recovery, s, .error (.failed cause), s'⟩] s'

/-- The primary is asked, and the secondary if the primary fails. -/
inductive Fallback (e : Effect σ α) (s : Scene σ) :
    Except Halt α → List (Span (Scene σ)) → Scene σ → Prop
  | kept (a : α) (s₁ : Scene σ) (r : Except Halt Unit) (js : List (Span (Scene σ)))
      (s₂ : Scene σ) (first : Tried z e .primary s s₁ (.ok a))
      (recovered : Recovered z s₁ r js s₂) : Fallback e s (r.map fun _ => a) js s₂
  | diverted (cause : StoreError) (s₁ : Scene σ) (r : Except Halt α) (s₂ : Scene σ)
      (first : Tried z e .primary s s₁ (.error (.failed cause)))
      (second : Tried z e .secondary (s₁.turn .down) s₂ r) : Fallback e s r [] s₂

/-- Both stores are asked; the primary's answer counts, and the secondary's if the primary fails. -/
inductive Replicate (e : Effect σ α) (s : Scene σ) :
    Except Halt α → List (Span (Scene σ)) → Scene σ → Prop
  | kept (a : α) (s₁ : Scene σ) (r₂ : Except Halt α) (s₂ : Scene σ) (r : Except Halt Unit)
      (js : List (Span (Scene σ))) (s₃ : Scene σ) (first : Tried z e .primary s s₁ (.ok a))
      (second : Tried z e .secondary s₁ s₂ r₂) (recovered : Recovered z s₂ r js s₃) :
      Replicate e s (r.map fun _ => a) js s₃
  | diverted (cause : StoreError) (s₁ : Scene σ) (r : Except Halt α) (s₂ : Scene σ)
      (first : Tried z e .primary s s₁ (.error (.failed cause)))
      (second : Tried z e .secondary s₁ s₂ r) : Replicate e s r [] (s₂.turn .down)

/-- The primary is asked, then the secondary if the primary accepts; a recovery, if one is due,
comes after that and a repair of the secondary, if it failed, last. -/
inductive Backup [WriteOutcome α] (e : Effect σ α) (s : Scene σ) :
    Except Halt α → List (Span (Scene σ)) → Scene σ → Prop
  | diverted (cause : StoreError) (s₁ : Scene σ) (r : Except Halt α) (s₂ : Scene σ)
      (first : Tried z e .primary s s₁ (.error (.failed cause)))
      (second : Tried z e .secondary (s₁.turn .down) s₂ r) : Backup e s r [] s₂
  | rejected (a : α) (s₁ : Scene σ) (first : Tried z e .primary s s₁ (.ok a))
      (rejected : WriteOutcome.isAccepted a = false) : Backup e s (.ok a) [] s₁
  | passedOn (a : α) (s₁ : Scene σ) (b : α) (s₂ : Scene σ) (r : Except Halt Unit)
      (js : List (Span (Scene σ))) (s₃ : Scene σ) (first : Tried z e .primary s s₁ (.ok a))
      (second : Tried z e .secondary s₁ s₂ (.ok b)) (recovered : Recovered z s₂ r js s₃) :
      Backup e s (r.map fun _ => a) js s₃
  | unrecovered (a : α) (s₁ : Scene σ) (cause : StoreError) (s₂ : Scene σ) (halt : Halt)
      (js : List (Span (Scene σ))) (s₃ : Scene σ) (first : Tried z e .primary s s₁ (.ok a))
      (second : Tried z e .secondary s₁ s₂ (.error (.failed cause)))
      (recovered : Recovered z s₂ (.error halt) js s₃) : Backup e s (.error halt) js s₃
  | repaired (a : α) (s₁ : Scene σ) (cause : StoreError) (s₂ : Scene σ)
      (js : List (Span (Scene σ))) (s₃ : Scene σ) (report : Except Halt Report) (s₄ : Scene σ)
      (first : Tried z e .primary s s₁ (.ok a))
      (second : Tried z e .secondary s₁ s₂ (.error (.failed cause)))
      (recovered : Recovered z s₂ (.ok ()) js s₃)
      (repair : Converged z .primary .secondary s₃ s₄ report) :
      Backup e s (.ok a) (js ++ [⟨.repair, s₃, report, s₄⟩]) s₄

end Templates

/-! ## What follows from that -/

section Consequences

variable {z : Hazard σ} {e : Effect σ α} {s s' : Scene σ}

theorem Tried.health {side : Side} {r : Except Halt α} (h : Tried z e side s s' r) :
    s'.health = s.health := by
  cases h with
  | done a _ eq => rw [eq, health_put]
  | failed cause _ eq => rw [eq, health_blame]

theorem Tried.failures_le {side : Side} {r : Except Halt α} (h : Tried z e side s s' r)
    (x : Side) : s.failures x ≤ s'.failures x := by
  cases h with
  | done a _ eq => exact Nat.le_of_eq (by rw [eq, failures_put])
  | failed cause _ eq => exact eq ▸ s.failures_le_blame side x

/-- A store that cannot fail carries the operation out. -/
theorem Tried.done_of_not_frail {side : Side} {r : Except Halt α} (h : Tried z e side s s' r)
    (hfrail : ¬ z.frail side) :
    (∃ a, r = .ok a) ∧ s' = s.put side (e.after (s.contents side)) := by
  cases h with
  | done a _ eq => exact ⟨⟨a, rfl⟩, eq⟩
  | failed cause frail _ => exact absurd frail hfrail

/-- A failed operation shows in the failures of its store. -/
theorem Tried.lt_of_failed {side : Side} {cause : StoreError}
    (h : Tried z e side s s' (.error (.failed cause))) :
    s.failures side < s'.failures side := by
  cases h with
  | failed _ _ eq =>
    rw [eq, failures_blame_self]
    exact Nat.lt_succ_self _

theorem Wrote.health {good : α → σ → Prop} {left : σ → Prop} {dest : Side} {r : Except Halt α}
    (h : Wrote z good left dest s s' r) : s'.health = s.health := by
  cases h with
  | done a c _ eq => rw [eq, health_put]
  | failed cause side c _ _ worse => rw [worse.health, health_put]

theorem Wrote.contents_of_ne {good : α → σ → Prop} {left : σ → Prop} {dest x : Side}
    {r : Except Halt α} (h : Wrote z good left dest s s' r) (hne : x ≠ dest) :
    s'.contents x = s.contents x := by
  cases h with
  | done a c _ eq => rw [eq, contents_put_of_ne _ _ hne]
  | failed cause side c _ _ worse => rw [worse.contents, contents_put_of_ne _ _ hne]

theorem Wrote.failures_le {good : α → σ → Prop} {left : σ → Prop} {dest : Side} {r : Except Halt α}
    (h : Wrote z good left dest s s' r) (x : Side) : s.failures x ≤ s'.failures x := by
  cases h with
  | done a c _ eq => exact Nat.le_of_eq (by rw [eq, failures_put])
  | failed cause side c _ _ worse => exact worse.monotone x

/-- A recovery that ends well leaves the pair up. -/
theorem Recovered.up {js : List (Span (Scene σ))} (h : Recovered z s (.ok ()) js s') :
    s'.health = .up := by
  cases h with
  | idle up => exact up
  | done report s' _ _ => exact health_turn s' .up

/-- A recovery that fails leaves the pair down. -/
theorem Recovered.down {halt : Halt} {js : List (Span (Scene σ))}
    (h : Recovered z s (.error halt) js s') : s'.health = .down := by
  cases h with
  | failed cause s' down run => rw [run.health, down]

/-- A recovery never writes to the secondary. -/
theorem Recovered.secondary {r : Except Halt Unit} {js : List (Span (Scene σ))}
    (h : Recovered z s r js s') : s'.contents .secondary = s.contents .secondary := by
  cases h with
  | idle _ => rfl
  | done report s' _ run => exact run.contents_of_ne (by decide)
  | failed cause s' _ run => exact run.contents_of_ne (by decide)

theorem Recovered.failures_le {r : Except Halt Unit} {js : List (Span (Scene σ))}
    (h : Recovered z s r js s') (x : Side) : s.failures x ≤ s'.failures x := by
  cases h with
  | idle _ => exact Nat.le_refl _
  | done report s' _ run => exact run.failures_le x
  | failed cause s' _ run => exact run.failures_le x

/-- If only the primary can fail, a recovery that fails is the primary's fault. -/
theorem Recovered.primary_failed {halt : Halt} {js : List (Span (Scene σ))}
    (h : Recovered z s (.error halt) js s') (hfrail : ¬ z.frail .secondary) :
    s.failures .primary < s'.failures .primary := by
  cases h with
  | failed cause s' _ run =>
    cases run with
    | failed _ side c _ frail worse =>
      cases side with
      | primary => exact worse.failed
      | secondary => exact absurd frail hfrail

/-- With no failure of the primary, a success of the primary leaves the pair up. -/
theorem Recovered.up_of_unfailing {r : Except Halt Unit} {js : List (Span (Scene σ))}
    (h : Recovered z s r js s') (hfrail : ¬ z.frail .secondary)
    (hf : s'.failures .primary = s.failures .primary) : s'.health = .up := by
  cases r with
  | ok _ => exact h.up
  | error halt =>
    have hmore := h.primary_failed hfrail
    omega

end Consequences

end Scene

end TwinStore
