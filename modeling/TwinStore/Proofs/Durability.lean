import TwinStore.Proofs.Agreement

/-!
# What becomes of acknowledged writes

A map may acknowledge an overwrite that its secondary has missed: until the secondary is repaired,
the value is exposed, since a recovery copies the secondary over the primary and takes the value
away. That is the only way to lose it: a value whose write the secondary has not missed, or that no
recovery came upon before a repair (`Shielded`), stays in one of the two maps until it is
overwritten or removed.

The invariant has two forms. `Safe` says that the secondary holds the value, and the primary too
while the pair is up; every step preserves it. `Exposed` says that the primary holds it; a step
preserves it unless a recovery begins, and a repair makes it `Safe`.
-/

namespace TwinStore

variable {V σ α S : Type}

/-! ## Repairs and recoveries in a journal -/

/-- A repair of the secondary that ended well. -/
def Span.Repairs (span : Span S) : Prop :=
  span.kind = .repair ∧ span.outcome.isOk = true

instance : DecidablePred (Span.Repairs (S := S)) := fun span =>
  inferInstanceAs (Decidable (span.kind = .repair ∧ span.outcome.isOk = true))

/-- No recovery begins before a repair of the secondary has ended well. -/
def Shielded : List (Span S) → Prop
  | [] => True
  | span :: js => span.Repairs ∨ span.kind ≠ .recovery ∧ Shielded js

instance decidableShielded : (js : List (Span S)) → Decidable (Shielded js)
  | [] => isTrue trivial
  | span :: js =>
    have := decidableShielded js
    inferInstanceAs (Decidable (span.Repairs ∨ span.kind ≠ .recovery ∧ Shielded js))

theorem Shielded.left {js js' : List (Span S)} (h : Shielded (js ++ js')) : Shielded js := by
  induction js with
  | nil => trivial
  | cons span js ih => exact h.imp_right fun h => ⟨h.1, ih h.2⟩

/-- What follows a journal without repairs is shielded by its own. -/
theorem Shielded.right {js js' : List (Span S)} (h : Shielded (js ++ js'))
    (hnone : ∀ r ∈ js, ¬ r.Repairs) : Shielded js' := by
  induction js with
  | nil => exact h
  | cons span js ih =>
    rcases h with hr | ⟨-, h⟩
    · exact absurd hr (hnone span List.mem_cons_self)
    · exact ih h fun r hmem => hnone r (List.mem_cons_of_mem _ hmem)

theorem Shielded.head {span : Span S} {js : List (Span S)} (h : Shielded (span :: js)) :
    span.kind ≠ .recovery := by
  rcases h with hr | ⟨hk, -⟩
  · rw [hr.1]
    decide
  · exact hk

/-- Whether a journal is shielded does not depend on what is looked at. -/
theorem Shielded.map {T : Type} {js : List (Span S)} (h : Shielded js) (f : S → T) :
    Shielded (js.map (Span.map f)) := by
  induction js with
  | nil => trivial
  | cons span js ih => exact h.imp_right fun h => ⟨h.1, ih h.2⟩

/-! ## Safe and exposed values -/

section Values

variable (k : Key) (v : V)

/-- An operation leaves the value under the key where it is. -/
def Effect.Keeps (e : Effect (Entries V) α) : Prop :=
  ∀ c : Entries V, c k = some v → e.after c k = some v

/-- The secondary holds the value, and the primary too while the pair is up. -/
def Safe (s : Scene (Entries V)) : Prop :=
  s.contents .secondary k = some v ∧ (s.health = .up → s.contents .primary k = some v)

/-- The primary holds the value. -/
def Exposed (s : Scene (Entries V)) : Prop :=
  s.contents .primary k = some v

end Values

namespace Scene

variable {k : Key} {v : V} {z : Hazard (Entries V)} {e : Effect (Entries V) α}
  {s s' : Scene (Entries V)}

theorem Tried.keeps {side x : Side} {r : Except Halt α} (h : Tried z e side s s' r)
    (he : e.Keeps k v) (hx : s.contents x k = some v) : s'.contents x k = some v := by
  cases h with
  | failed cause _ eq => rw [eq, contents_blame, hx]
  | done a _ eq =>
    rw [eq]
    by_cases hne : x = side
    · subst hne
      rw [contents_put_self]
      exact he _ hx
    · rw [contents_put_of_ne _ _ hne, hx]

theorem Tried.safe {side : Side} {r : Except Halt α} (h : Tried z e side s s' r)
    (he : e.Keeps k v) (hs : Safe k v s) : Safe k v s' :=
  ⟨h.keeps he hs.1, fun hup => h.keeps he (hs.2 (h.health ▸ hup))⟩

theorem safe_turn_down (h : s.contents .secondary k = some v) : Safe k v (s.turn .down) :=
  ⟨h, fun hup => nomatch hup⟩

/-- A recovery that ends well makes safe what the secondary holds. -/
theorem Recovered.safe {r : Except Halt Unit} {js : List (Span (Scene (Entries V)))}
    (h : Recovered z s r js s') (hs : Safe k v s) : Safe k v s' := by
  refine ⟨by rw [h.secondary, hs.1], fun hup => ?_⟩
  cases h with
  | idle up => exact hs.2 up
  | done report s' _ run =>
    cases run with
    | done _ c hc eq =>
      subst hc
      rw [contents_turn, eq, contents_put_self, hs.1]
  | failed cause s' down run =>
    rw [run.health, down] at hup
    cases hup

/-- Where recoveries are shielded none is the first run. -/
theorem Recovered.idle_of_shielded {r : Except Halt Unit} {js : List (Span (Scene (Entries V)))}
    (h : Recovered z s r js s') (hj : Shielded js) :
    r = .ok () ∧ js = [] ∧ s' = s ∧ s.health = .up := by
  cases h with
  | idle up => exact ⟨rfl, rfl, rfl, up⟩
  | done report s' _ _ => exact absurd rfl hj.head
  | failed cause s' _ _ => exact absurd rfl hj.head

/-- A repair, whether it ends well or fails, keeps safe what both stores hold. -/
theorem safe_of_repair {report : Except Halt Report} (hz : z.leaves = Entries.Mixed)
    (h : Converged z .primary .secondary s s' report) (hs : Safe k v s) (hup : s.health = .up) :
    Safe k v s' := by
  have hprimary : s'.contents .primary k = some v := by
    rw [h.contents_of_ne (by decide), hs.2 hup]
  refine ⟨?_, fun _ => hprimary⟩
  cases h with
  | done _ c hc eq =>
    subst hc
    rw [eq, contents_put_self, hs.2 hup]
  | failed cause side c hc _ worse =>
    rw [hz] at hc
    rw [worse.contents, contents_put_self]
    rcases hc k with h | h
    · rw [h, hs.1]
    · rw [h, hs.2 hup]

/-! ### Safe values stay safe -/

theorem Fallback.safe {r : Except Halt α} {js : List (Span (Scene (Entries V)))}
    (h : Fallback z e s r js s') (he : e.Keeps k v) (hs : Safe k v s) : Safe k v s' := by
  cases h with
  | kept a s₁ r js s₂ first recovered => exact recovered.safe (first.safe he hs)
  | diverted cause s₁ r s₂ first second =>
    exact second.safe he (safe_turn_down (first.safe he hs).1)

theorem Replicate.safe {r : Except Halt α} {js : List (Span (Scene (Entries V)))}
    (h : Replicate z e s r js s') (he : e.Keeps k v) (hs : Safe k v s) : Safe k v s' := by
  cases h with
  | kept a s₁ r₂ s₂ r js s₃ first second recovered =>
    exact recovered.safe (second.safe he (first.safe he hs))
  | diverted cause s₁ r s₂ first second =>
    exact safe_turn_down (second.safe he (first.safe he hs)).1

theorem Backup.safe [WriteOutcome α] {r : Except Halt α} {js : List (Span (Scene (Entries V)))}
    (hz : z.leaves = Entries.Mixed) (h : Backup z e s r js s') (he : e.Keeps k v)
    (hs : Safe k v s) : Safe k v s' := by
  cases h with
  | diverted cause s₁ r s₂ first second =>
    exact second.safe he (safe_turn_down (first.safe he hs).1)
  | rejected a s₁ first _ => exact first.safe he hs
  | passedOn a s₁ b s₂ r js s₃ first second recovered =>
    exact recovered.safe (second.safe he (first.safe he hs))
  | unrecovered a s₁ cause s₂ halt js s₃ first second recovered =>
    exact recovered.safe (second.safe he (first.safe he hs))
  | repaired a s₁ cause s₂ js s₃ report s₄ first second recovered repair =>
    exact safe_of_repair hz repair (recovered.safe (second.safe he (first.safe he hs)))
      recovered.up

/-! ### Exposed values stay where they are until a recovery, or become safe -/

/-- What becomes of an exposed value in one step. -/
def Endures (k : Key) (v : V) (js : List (Span (Scene (Entries V)))) (s' : Scene (Entries V)) :
    Prop :=
  Safe k v s' ∨ Exposed k v s' ∧ ∀ r ∈ js, ¬ r.Repairs

theorem endures_of_exposed (h : Exposed k v s) : Endures k v [] s :=
  .inr ⟨h, fun _ hmem => nomatch hmem⟩

theorem Fallback.endures {r : Except Halt α} {js : List (Span (Scene (Entries V)))}
    (h : Fallback z e s r js s') (he : e.Keeps k v) (hs : Exposed k v s) (hj : Shielded js) :
    Endures k v js s' := by
  cases h with
  | kept a s₁ r js s₂ first recovered =>
    obtain ⟨-, rfl, rfl, -⟩ := recovered.idle_of_shielded hj
    exact endures_of_exposed (first.keeps he hs)
  | diverted cause s₁ r s₂ first second =>
    exact endures_of_exposed (second.keeps he (first.keeps he hs))

theorem Replicate.endures {r : Except Halt α} {js : List (Span (Scene (Entries V)))}
    (h : Replicate z e s r js s') (he : e.Keeps k v) (hs : Exposed k v s) (hj : Shielded js) :
    Endures k v js s' := by
  cases h with
  | kept a s₁ r₂ s₂ r js s₃ first second recovered =>
    obtain ⟨-, rfl, rfl, -⟩ := recovered.idle_of_shielded hj
    exact endures_of_exposed (second.keeps he (first.keeps he hs))
  | diverted cause s₁ r s₂ first second =>
    exact endures_of_exposed (second.keeps he (first.keeps he hs))

/-- A repair makes an exposed value safe, or fails and leaves it exposed. -/
theorem endures_of_repair {report : Except Halt Report}
    (h : Converged z .primary .secondary s s' report) (hs : Exposed k v s) :
    Endures k v [⟨.repair, s, report, s'⟩] s' := by
  have hprimary : s'.contents .primary k = some v := by
    rw [h.contents_of_ne (by decide)]
    exact hs
  cases h with
  | done report c hc eq =>
    subst hc
    refine .inl ⟨?_, fun _ => hprimary⟩
    rw [eq, contents_put_self]
    exact hs
  | failed cause side c hc _ worse =>
    refine .inr ⟨hprimary, fun r hmem => ?_⟩
    rw [List.mem_singleton] at hmem
    subst hmem
    rintro ⟨-, hok⟩
    cases hok

theorem Backup.endures [WriteOutcome α] {r : Except Halt α}
    {js : List (Span (Scene (Entries V)))} (h : Backup z e s r js s') (he : e.Keeps k v)
    (hs : Exposed k v s) (hj : Shielded js) : Endures k v js s' := by
  cases h with
  | diverted cause s₁ r s₂ first second =>
    exact endures_of_exposed (second.keeps he (first.keeps he hs))
  | rejected a s₁ first _ => exact endures_of_exposed (first.keeps he hs)
  | passedOn a s₁ b s₂ r js s₃ first second recovered =>
    obtain ⟨-, rfl, rfl, -⟩ := recovered.idle_of_shielded hj
    exact endures_of_exposed (second.keeps he (first.keeps he hs))
  | unrecovered a s₁ cause s₂ halt js s₃ first second recovered =>
    obtain ⟨h, -⟩ := recovered.idle_of_shielded hj
    cases h
  | repaired a s₁ cause s₂ js s₃ report s₄ first second recovered repair =>
    obtain ⟨-, rfl, rfl, -⟩ := recovered.idle_of_shielded hj.left
    exact endures_of_repair repair (second.keeps he (first.keeps he hs))

end Scene

/-! ## Steps and runs -/

/-- An operation that overwrites or removes what is under a key. -/
def PlainOp.Disturbs (k : Key) : PlainOp V → Prop
  | .add k' _ overwrite => k' = k ∧ overwrite = true
  | .remove k' => k' = k
  | _ => False

theorem Entries.keeps_adding {k k' : Key} {x : V} {overwrite : Bool}
    (h : ¬ (PlainOp.add k' x overwrite).Disturbs k) (v : V) :
    (Entries.adding k' x overwrite).Keeps k v := by
  intro c hc
  change (if !overwrite && (c k').isSome then c else c.set k' (some x)) k = some v
  split
  · exact hc
  · rename_i hadd
    by_cases hk : k' = k
    · subst hk
      cases overwrite with
      | true => exact absurd ⟨rfl, rfl⟩ h
      | false => simp [hc] at hadd
    · rw [Entries.set_of_ne _ _ hk, hc]

theorem Entries.keeps_removing {k k' : Key} (h : k' ≠ k) (v : V) :
    (Entries.removing k').Keeps k v := by
  intro c hc
  change c.set k' none k = some v
  rw [Entries.set_of_ne _ _ h, hc]

theorem Effect.keeps_of_read {e : Effect (Entries V) α} (h : e.after = id) (k : Key) (v : V) :
    e.Keeps k v := by
  intro c hc
  rw [h]
  exact hc

namespace Doubling

variable {d : Doubling} {z : Hazard (Entries V)} {k : Key} {v : V} {s s' : Scene (Entries V)}
  {js : List (Span (Scene (Entries V)))}

theorem Writes.safe {e : Effect (Entries V) Bool} {r : Except Halt Bool}
    (h : d.Writes z e s r js s') (hz : z.leaves = Entries.Mixed) (he : e.Keeps k v)
    (hs : Safe k v s) : Safe k v s' := by
  cases d with
  | replicated => exact Scene.Replicate.safe h he hs
  | backup => exact Scene.Backup.safe hz h he hs

theorem Writes.endures {e : Effect (Entries V) Bool} {r : Except Halt Bool}
    (h : d.Writes z e s r js s') (he : e.Keeps k v) (hs : Exposed k v s) (hj : Shielded js) :
    Scene.Endures k v js s' := by
  cases d with
  | replicated => exact Scene.Replicate.endures h he hs hj
  | backup => exact Scene.Backup.endures h he hs hj

theorem safe_of_step {op : PlainOp V} {r : Except Halt op.Answer} (h : d.Step z op s r js s')
    (hz : z.leaves = Entries.Mixed) (hop : ¬ op.Disturbs k) (hs : Safe k v s) : Safe k v s' := by
  cases op with
  | add k' x overwrite => exact Writes.safe h hz (Entries.keeps_adding hop v) hs
  | get k' => exact Scene.Fallback.safe h (Effect.keeps_of_read rfl k v) hs
  | remove k' => exact Writes.safe h hz (Entries.keeps_removing hop v) hs
  | contains k' => exact Scene.Fallback.safe h (Effect.keeps_of_read rfl k v) hs
  | keys =>
    obtain ⟨ks, -, h⟩ := h
    exact h.safe (Effect.keeps_of_read rfl k v) hs

theorem endures_of_step {op : PlainOp V} {r : Except Halt op.Answer} (h : d.Step z op s r js s')
    (hop : ¬ op.Disturbs k) (hs : Exposed k v s) (hj : Shielded js) :
    Scene.Endures k v js s' := by
  cases op with
  | add k' x overwrite => exact Writes.endures h (Entries.keeps_adding hop v) hs hj
  | get k' => exact Scene.Fallback.endures h (Effect.keeps_of_read rfl k v) hs hj
  | remove k' => exact Writes.endures h (Entries.keeps_removing hop v) hs hj
  | contains k' => exact Scene.Fallback.endures h (Effect.keeps_of_read rfl k v) hs hj
  | keys =>
    obtain ⟨ks, -, h⟩ := h
    exact h.endures (Effect.keeps_of_read rfl k v) hs hj

/-- A safe value, or an exposed one where recoveries are shielded, stays in one of the maps. -/
theorem holds_of_run {ops : List (PlainOp V)}
    (h : Scene.Run (fun op s js s' => ∃ r, d.Step z op s r js s') s ops js s')
    (hz : z.leaves = Entries.Mixed) (hops : ∀ op ∈ ops, ¬ op.Disturbs k)
    (hs : Safe k v s ∨ Exposed k v s ∧ Shielded js) : Safe k v s' ∨ Exposed k v s' := by
  induction h with
  | nil s => exact hs.imp_right And.left
  | cons step rest ih =>
    obtain ⟨r, step⟩ := step
    have hop := hops _ List.mem_cons_self
    refine ih (fun op hmem => hops op (List.mem_cons_of_mem _ hmem)) ?_
    rcases hs with hsafe | ⟨hexposed, hj⟩
    · exact .inl (safe_of_step step hz hop hsafe)
    · rcases endures_of_step step hop hexposed hj.left with hsafe | ⟨hexposed', hnone⟩
      · exact .inl hsafe
      · exact .inr ⟨hexposed', hj.right hnone⟩

end Doubling

/-! ## The write itself -/

namespace Scene

variable {z : Hazard (Entries V)} {k : Key} {v : V} {s s' : Scene (Entries V)}

/-- Where the overwrite was done the value is there. -/
theorem Tried.overwritten {side : Side} {b : Bool}
    (h : Tried z (Entries.adding k v true) side s s' (.ok b)) : s'.contents side k = some v := by
  cases h with
  | done a _ eq =>
    rw [eq, contents_put_self]
    exact Entries.set_self _ k (some v)

theorem keeps_overwriting (k : Key) (v : V) : (Entries.adding k v true).Keeps k v :=
  fun _ _ => Entries.set_self _ k (some v)

/-- An acknowledged overwrite is safe, unless the secondary has failed meanwhile; then it endures
unless a recovery comes upon it. -/
def Written (k : Key) (v : V) (s : Scene (Entries V)) (js : List (Span (Scene (Entries V))))
    (s' : Scene (Entries V)) : Prop :=
  Safe k v s' ∨ s.failures .secondary < s'.failures .secondary ∧ (Shielded js → Endures k v js s')

theorem Replicate.written {r : Except Halt Bool} {js : List (Span (Scene (Entries V)))}
    (h : Replicate z (Entries.adding k v true) s r js s') (hr : r = .ok true) :
    Written k v s js s' := by
  cases h with
  | kept a s₁ r₂ s₂ r js s₃ first second recovered =>
    have hprimary : s₂.contents .primary k = some v :=
      second.keeps (keeps_overwriting k v) first.overwritten
    cases second with
    | done b answers eq =>
      have hsecond : Tried z (Entries.adding k v true) .secondary s₁ s₂ (.ok b) :=
        .done b answers eq
      exact .inl (recovered.safe ⟨hsecond.overwritten, fun _ => hprimary⟩)
    | failed cause frail eq =>
      have hlt := Tried.lt_of_failed (Tried.failed (e := Entries.adding k v true) cause frail eq)
      refine .inr ⟨?_, fun hj => ?_⟩
      · have hle := first.failures_le .secondary
        have hle' := recovered.failures_le .secondary
        omega
      · obtain ⟨-, rfl, rfl, -⟩ := recovered.idle_of_shielded hj
        exact endures_of_exposed hprimary
  | diverted cause s₁ r s₂ first second =>
    subst hr
    exact .inl (safe_turn_down second.overwritten)

theorem Backup.written {r : Except Halt Bool} {js : List (Span (Scene (Entries V)))}
    (h : Backup z (Entries.adding k v true) s r js s') (hr : r = .ok true) :
    Written k v s js s' := by
  cases h with
  | diverted cause s₁ r s₂ first second =>
    subst hr
    refine .inl ⟨second.overwritten, fun hup => ?_⟩
    rw [second.health] at hup
    cases hup
  | rejected a s₁ first rejected =>
    cases hr
    cases rejected
  | passedOn a s₁ b s₂ r js s₃ first second recovered =>
    have hprimary : s₂.contents .primary k = some v :=
      second.keeps (keeps_overwriting k v) first.overwritten
    exact .inl (recovered.safe ⟨second.overwritten, fun _ => hprimary⟩)
  | unrecovered a s₁ cause s₂ halt js s₃ first second recovered => cases hr
  | repaired a s₁ cause s₂ js s₃ report s₄ first second recovered repair =>
    have hprimary : s₂.contents .primary k = some v :=
      second.keeps (keeps_overwriting k v) first.overwritten
    refine .inr ⟨?_, fun hj => ?_⟩
    · have hle := first.failures_le .secondary
      have hlt := second.lt_of_failed
      have hle' := recovered.failures_le .secondary
      have hle'' := repair.failures_le .secondary
      omega
    · obtain ⟨-, rfl, rfl, -⟩ := recovered.idle_of_shielded hj.left
      exact endures_of_repair repair hprimary

end Scene

/-! ## Acknowledged overwrites -/

/-- **An acknowledged overwrite stays in one of the two maps** until the key is overwritten or
removed, over any turns and under any faults, if the secondary did not fail in that turn, or if from
then on every recovery comes after a repair of the secondary. -/
theorem acknowledged_overwrite_survives (d : Doubling) (p : MapPair) (faults : Faults V)
    (name : String) (limit : Nat) (w : World V) (before after : List (Turn (PlainOp V)))
    (k : Key) (v : V) (token : Token) (time : Nat) (hstart : (p.view V).Fit w)
    (htimes : ∀ turn ∈ before ++ { op := .add k v true, token, time } :: after,
      turn.time ≤ p.horizon)
    (hafter : ∀ turn ∈ after, ¬ turn.op.Disturbs k) :
    let e := p.engine V name limit
    let w₁ := d.serve faults e w before
    let out := faults.regime.act (w₁.atTime time) ((d.store e).add k v true token)
    let last := (p.view V).scene (d.serve faults e out.2 after)
    out.1 = .ok true →
    out.2.failures (.map p.secondary) = w₁.failures (.map p.secondary) ∨
      Shielded (d.journal faults e w₁ ({ op := .add k v true, token, time } :: after)) →
    last.contents .primary k = some v ∨ last.contents .secondary k = some v := by
  intro e w₁ out last hacc hmissed
  have hz : (p.hazard faults).leaves = Entries.Mixed := rfl
  have htime : time ≤ p.horizon := htimes _ (List.mem_append_right _ List.mem_cons_self)
  obtain ⟨hw₁, -⟩ := MapPair.run_turns d faults name limit hstart before fun turn hmem =>
    htimes turn (List.mem_append_left _ hmem)
  obtain ⟨hfit, hsame⟩ := MapPair.steady htime w₁ hw₁
  -- The write, with its journal.
  obtain ⟨hw₂, hwrite⟩ := MapPair.wp_marked d faults name limit (.add k v true) token hfit
  let marked := (d.marked e token (.add k v true)).perform faults.regime (w₁.atTime time)
  have hout : out = (marked.1, marked.2.2) := by
    have h := MarkedAction.act_erase faults.regime (w₁.atTime time)
      (d.marked e token (.add k v true))
    rw [d.erase_marked] at h
    exact h
  have hjournal : d.journal faults e w₁ ({ op := .add k v true, token, time } :: after) =
      marked.2.1 ++ d.journal faults e marked.2.2 after := rfl
  have hwritten : Scene.Written k v ((p.view V).scene w₁)
      (marked.2.1.map (Span.map (p.view V).scene)) ((p.view V).scene marked.2.2) := by
    rw [hsame] at hwrite
    have hr : marked.1 = .ok true := by rw [← hacc, hout]
    cases d with
    | replicated => exact Scene.Replicate.written hwrite hr
    | backup => exact Scene.Backup.written hwrite hr
  -- What came later.
  obtain ⟨-, hrun⟩ := MapPair.run_turns d faults name limit hw₂ after fun turn hmem =>
    htimes turn (List.mem_append_right _ (List.mem_cons_of_mem _ hmem))
  have hops : ∀ op ∈ after.map Turn.op, ¬ op.Disturbs k := List.forall_mem_map.2 hafter
  have hlast : last = (p.view V).scene (d.serve faults e marked.2.2 after) := by
    rw [← show out.2 = marked.2.2 by rw [hout]]
  have hholds : Safe k v last ∨ Exposed k v last := by
    rw [hlast]
    refine Doubling.holds_of_run hrun hz hops ?_
    rcases hwritten with hsafe | ⟨hlt, hendures⟩
    · exact .inl hsafe
    · rcases hmissed with hsame' | hj
      · have hle : marked.2.2.failures (.map p.secondary) = w₁.failures (.map p.secondary) := by
          rw [← hsame', hout]
        exact absurd hle (Nat.ne_of_gt hlt)
      · rw [hjournal] at hj
        have hj' := hj.map (p.view V).scene
        rw [List.map_append] at hj'
        rcases hendures hj'.left with hsafe | ⟨hexposed, hnone⟩
        · exact .inl hsafe
        · exact .inr ⟨hexposed, hj'.right hnone⟩
  exact hholds.elim (fun h => .inr h.1) .inl

/-- The secondary misses the write, its repair fails, the next write's repair ends well, and only
then does the primary fail and recover. -/
theorem overwrite_survives_failed_repair :
    let e := (MapPair.twins 100).engine Nat "pair" 1000
    let faults : Faults Nat := Faults.hitting [2, 4, 6, 15]
    let w₁ := Doubling.backup.serve faults e (World.twinMaps [(.number 1, 10)])
      [{ op := .contains (.number 1) }]
    let out := faults.regime.act w₁ (e.backupMap.add (.number 2) 7 true none)
    let last := ((MapPair.twins 100).view Nat).scene (Doubling.backup.serve faults e out.2
      [{ op := .add (.number 3) 9 true }, { op := .get (.number 1) }, { op := .get (.number 1) }])
    out.1 = .ok true ∧ last.failures .primary = 2 ∧
      (last.contents .primary (.number 2) = some 7 ∨
        last.contents .secondary (.number 2) = some 7) := by
  refine ⟨rfl, by decide +kernel, ?_⟩
  exact acknowledged_overwrite_survives .backup (MapPair.twins 100)
    (Faults.hitting [2, 4, 6, 15]) "pair" 1000 (World.twinMaps [(.number 1, 10)])
    [{ op := .contains (.number 1) }]
    [{ op := .add (.number 3) 9 true }, { op := .get (.number 1) }, { op := .get (.number 1) }]
    (.number 2) 7 none 0 (MapPair.inStep_twins _ _).fit (by decide) (by simp [PlainOp.Disturbs])
    rfl (.inr (by decide +kernel))

/-- **An acknowledged overwrite can be lost.** A replicated map keeps quiet about the secondary's
failure, and the next outage ends with a recovery that takes the value out of the primary. A map
that is backed up loses it within the turn: the recovery that is due comes before the repair. -/
theorem acknowledged_overwrite_lost :
    let p := MapPair.twins 100
    let e := p.engine Nat "pair" 1000
    let w := World.twinMaps [(.number 1, 10)]
    (p.view Nat).InStep w ∧
    (let faults : Faults Nat := Faults.hitting [1, 2]
      let out := faults.regime.act w (e.replicatedMap.add (.number 2) 7 true none)
      let last := (p.view Nat).scene (Doubling.replicated.serve faults e out.2
        [{ op := .get (.number 1) }, { op := .get (.number 1) }])
      out.1 = .ok true ∧ last.contents .primary (.number 2) = none ∧
        last.contents .secondary (.number 2) = none) ∧
    (let faults : Faults Nat := Faults.hitting [0, 3]
      let w₁ := Doubling.backup.serve faults e w [{ op := .get (.number 1) }]
      let out := faults.regime.act w₁ (e.backupMap.add (.number 2) 7 true none)
      let last := (p.view Nat).scene out.2
      out.1 = .ok true ∧ last.contents .primary (.number 2) = none ∧
        last.contents .secondary (.number 2) = none) := by
  refine ⟨MapPair.inStep_twins _ _, ⟨rfl, ?_, ?_⟩, ⟨rfl, ?_, ?_⟩⟩ <;> decide +kernel

end TwinStore
