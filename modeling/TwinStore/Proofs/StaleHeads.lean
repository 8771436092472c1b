import Mathlib.Data.List.Basic
import TwinStore.Proofs.Delivery

/-!
# Which head a caller is given

While a replicated queue is down the head of its primary is stale. A caller who wants an item lets
the pair catch up first: a recovery takes place if the primary answers a read (`CaughtUp`). The item
is then taken off whichever store serves, and its counterpart off the secondary (`TakenOff`). If the
primary fails the read and then serves the item, no recovery has come in between, and the head given
is the stale one: the caller gets the secondary's head exactly unless the primary has wavered
(`head_is_fresh_unless_primary_wavers`).
-/

namespace TwinStore

open Converge

variable {V : Type}

/-- Take an item off a queue, waiting for it or not. -/
def BlockingQueue.takeOff (q : BlockingQueue V) (waits : Bool) (t : Token) : Action V (Option V) :=
  if waits then q.take t else q.dequeue t

namespace Scene

variable {σ : Type}

/-- The primary has failed, and has come back. -/
structure Wavered (s s' : Scene σ) : Prop where
  failed : s.failures .primary < s'.failures .primary
  up : s'.health = .up

end Scene

namespace QueuePair

variable {z : Hazard (List V)} {s s' : Scene (List V)}

/-! ## Catching up -/

/-- How a pair that is down catches up, if that does not fail: the primary is not heard of, or a
recovery brings it up to date. -/
inductive CaughtUp (s : Scene (List V)) : Scene (List V) → Prop
  | unheard : CaughtUp s ((s.blame .primary).turn .down)
  | recovered : CaughtUp s ((duplicated s).turn .up)

theorem CaughtUp.of_served {n : Nat} (hdown : s.health = .down)
    (h : Scene.Served (duplicating z) (Scene.asking z QueueOp.count.effect .primary)
      QueueOp.count.effect (fun _ => .recover) s (.ok n) s') : CaughtUp s s' := by
  generalize hr : Except.ok n = r at h
  cases h with
  | diverted cause s₁ b failed _ =>
    cases failed with
    | failed _ frail eq =>
      have hsame : (s₁.turn .down).passOn QueueOp.count.effect = s₁.turn .down :=
        Scene.put_contents _ .secondary
      rw [hsame, eq]
      exact .unheard
  | recovered a s₁ r _ done _ mended =>
    cases done with
    | done _ _ eq =>
      obtain rfl : s₁ = s := eq.trans (Scene.put_contents s .primary)
      cases mended with
      | idle up =>
        rw [hdown] at up
        cases up
      | done report s₂ _ run =>
        cases run with
        | done eq =>
          rw [eq]
          exact .recovered
      | failed => cases hr
  | stopped _ _ _ next => cases next
  | passedOn _ _ _ _ _ next => cases next

/-! ## Taking an item off -/

/-- An item has been taken off: the primary has given it and the pair is up, or the secondary has
given it and the pair is down. Either way the secondary has lost its head. -/
inductive TakenOff (s : Scene (List V)) (x : V) (s' : Scene (List V)) : Prop
  | byPrimary (head : (s.contents .primary).head? = some x)
      (left : s'.contents .secondary = (s.contents .secondary).tail) (up : s'.health = .up)
      (calm : s'.failures = s.failures)
  | bySecondary (head : (s.contents .secondary).head? = some x)
      (left : s'.contents .secondary = (s.contents .secondary).tail) (down : s'.health = .down)

/-- A recovery that ends well writes to the primary only. -/
theorem mended_frame (h : Scene.Mended (duplicating z) s (.ok ()) s') :
    s'.contents .secondary = s.contents .secondary ∧ s'.failures = s.failures := by
  cases h with
  | idle _ => exact ⟨rfl, rfl⟩
  | done report s₁ _ run =>
    cases run with
    | done eq =>
      rw [eq]
      exact ⟨rfl, rfl⟩

/-- A dequeue from both queues that answers an item has taken it off as the head of one. -/
theorem TakenOff.of_replicated {x : V}
    (h : Scene.Served (duplicating z) (Scene.asking z QueueOp.dequeue.effect .primary)
      QueueOp.dequeue.effect (fun _ => .passOn) s (.ok (some x)) s') : TakenOff s x s' := by
  generalize hr : Except.ok (some x) = r at h
  cases h with
  | diverted cause s₁ b failed answers =>
    cases failed with
    | failed _ frail eq =>
      obtain rfl : b = some x := (Except.ok.inj hr).symm
      rw [eq] at answers ⊢
      exact .bySecondary (Eq.symm answers) (Scene.secondary_passOn _ _) rfl
  | passedOn a s₁ r _ done _ mended =>
    cases done with
    | done _ answers eq =>
      cases r with
      | error => cases hr
      | ok =>
        obtain rfl : a = some x := (Except.ok.inj hr).symm
        obtain ⟨hsecondary, hfailures⟩ := mended_frame mended
        rw [eq] at hsecondary hfailures
        exact .byPrimary (Eq.symm answers) (hsecondary.trans (Scene.secondary_passOn _ _))
          mended.up hfailures
  | stopped _ _ _ next => cases next
  | recovered _ _ _ _ _ next => cases next

/-- An item that is waited for: what is left to do if it has come from the primary is to drop its
counterpart. -/
theorem taken_of_fallback {x : V}
    (h : Scene.Served (duplicating z) (Scene.asking z QueueOp.take.effect .primary)
      QueueOp.take.effect (fun _ => .recover) s (.ok (some x)) s') :
    (s'.health = .up → TakenOff s x (s'.passOn QueueOp.dequeue.effect)) ∧
      (s'.health = .down → TakenOff s x s') := by
  generalize hr : Except.ok (some x) = r at h
  cases h with
  | diverted cause s₁ b failed answers =>
    cases failed with
    | failed _ frail eq =>
      obtain rfl : b = some x := (Except.ok.inj hr).symm
      rw [eq] at answers ⊢
      exact ⟨nofun, fun _ => .bySecondary (Eq.symm answers) (Scene.secondary_passOn _ _) rfl⟩
  | recovered a s₁ r _ done _ mended =>
    cases done with
    | done _ answers eq =>
      cases r with
      | error => cases hr
      | ok =>
        obtain rfl : a = some x := (Except.ok.inj hr).symm
        obtain ⟨hsecondary, hfailures⟩ := mended_frame mended
        rw [eq] at hsecondary hfailures
        refine ⟨fun _ => .byPrimary (Eq.symm answers) ?_ mended.up hfailures, fun hdown => ?_⟩
        · rw [Scene.secondary_passOn, hsecondary]
          rfl
        · rw [mended.up] at hdown
          cases hdown
  | stopped _ _ _ next => cases next
  | passedOn _ _ _ _ _ next => cases next

/-- Which item a caller has been given: the head of the secondary, unless the primary has wavered,
and that of the primary if it has. Either way the secondary has lost its head. -/
structure HeadGiven (s : Scene (List V)) (x : V) (s' : Scene (List V)) : Prop where
  fresh : ¬ Scene.Wavered s s' → s.contents .secondary = x :: s'.contents .secondary
  stale : Scene.Wavered s s' → (s.contents .primary).head? = some x ∧
    s'.contents .secondary = (s.contents .secondary).tail

/-- A pair that has caught up gives the secondary's head, from whichever store. -/
theorem CaughtUp.headGiven {s₁ : Scene (List V)} {x : V} (hcaught : CaughtUp s s₁)
    (htaken : TakenOff s₁ x s') (hroom : (s.contents .primary).length ≤ roundLimit) :
    HeadGiven s x s' := by
  cases hcaught with
  | unheard =>
    cases htaken with
    | byPrimary head left up calm =>
      have hwavered : Scene.Wavered s s' := by
        refine ⟨?_, up⟩
        rw [calm, Scene.failures_turn, Scene.failures_blame_self]
        exact Nat.lt_succ_self _
      exact ⟨fun h => absurd hwavered h, fun _ => ⟨head, left⟩⟩
    | bySecondary head left down =>
      refine ⟨fun _ => left ▸ List.eq_cons_of_mem_head? head, fun h => ?_⟩
      rw [h.up] at down
      cases down
  | recovered =>
    have hprimary : ((duplicated s).turn .up).contents .primary = s.contents .secondary := by
      rw [Scene.contents_turn, duplicated, Scene.contents_put_self, List.drop_eq_nil_of_le hroom,
        List.nil_append]
    have hcalm : ¬ s.failures .primary < ((duplicated s).turn .up).failures .primary :=
      Nat.lt_irrefl _
    cases htaken with
    | byPrimary head left up calm =>
      rw [hprimary] at head
      exact ⟨fun _ => left ▸ List.eq_cons_of_mem_head? head,
        fun h => absurd (calm ▸ h.failed) hcalm⟩
    | bySecondary head left down =>
      refine ⟨fun _ => left ▸ List.eq_cons_of_mem_head? head, fun h => ?_⟩
      rw [h.up] at down
      cases down

/-! ## The call -/

section Call

variable {p : QueuePair} {faults : Faults V} {name : String} {limit : Nat} {w : World V} {t : Token}

theorem wp_catchUp (hspared : faults.Spares (.queue p.secondary))
    (hdown : ((p.view V).scene w).health = .down) :
    ((p.replicaEngine V name limit).catchUp t).wp faults.regime (fun r w' =>
      r = .ok () → CaughtUp ((p.view V).scene w) ((p.view V).scene w')) w := by
  unfold Engine.catchUp
  rw [Action.wp_bind, View.wp_health (v := p.view V) rfl, Action.andThen_ok, if_pos hdown,
    Action.wp_bind]
  refine Action.wp_mono (View.wp_fallback (mends_duplicating name limit hspared)
    (serves_replica name limit hspared .count t) trivial) ?_
  rintro (halt | n) w' ⟨-, hs⟩
  · exact nofun
  · exact fun _ => .of_served hdown hs

variable (name limit t) in
theorem wp_takeOff (hspared : faults.Spares (.queue p.secondary))
    (hdown : ((p.view V).scene w).health = .down) (waits : Bool) :
    ((p.replicaEngine V name limit).replicatedQueue.takeOff waits t).wp faults.regime
      (fun r w' => ∀ x, r = .ok (some x) → ∃ s,
        CaughtUp ((p.view V).scene w) s ∧ TakenOff s x ((p.view V).scene w')) w := by
  cases waits with
  | false =>
    change Action.wp _ ((p.replicaEngine V name limit).catchUp t >>= fun _ => _) _ w
    rw [Action.wp_bind]
    refine Action.wp_mono (wp_catchUp hspared hdown) ?_
    rintro (halt | ⟨⟩) w₁ hcaught
    · exact nofun
    · rw [Action.andThen_ok]
      have hserved := View.wp_replicate (mends_duplicating name limit hspared)
        (serves_replica name limit hspared .dequeue t) (w := w₁) trivial
      refine Action.wp_mono hserved ?_
      rintro _ w₂ ⟨-, hs⟩ x rfl
      exact ⟨_, hcaught rfl, .of_replicated hs⟩
  | true =>
    change Action.wp _ ((p.replicaEngine V name limit).catchUp t >>= fun _ => _) _ w
    rw [Action.wp_bind]
    refine Action.wp_mono (wp_catchUp hspared hdown) ?_
    rintro (halt | ⟨⟩) w₁ hcaught
    · exact nofun
    · rw [Action.andThen_ok, Action.wp_bind]
      have hserved := View.wp_fallback (mends_duplicating name limit hspared)
        (serves_replica name limit hspared .take t) (w := w₁) trivial
      refine Action.wp_mono hserved ?_
      rintro (halt | item) w₂ ⟨-, hs⟩
      · exact nofun
      rw [Action.andThen_ok, Action.wp_bind, View.wp_health (v := p.view V) rfl, Action.andThen_ok]
      dsimp only
      cases item with
      | none =>
        rw [if_neg (by simp), Action.wp_pure]
        exact nofun
      | some x =>
        obtain ⟨hup, hdown⟩ := taken_of_fallback hs
        cases hhealth : ((p.view V).scene w₂).health with
        | up =>
          rw [if_pos (by rfl), Action.wp_bind, Action.wp_attempt]
          refine Action.wp_mono
            ((serves_replica name limit hspared .dequeue t).secondary w₂ trivial) ?_
          rintro _ w₃ ⟨-, head, rfl, -, hpassed⟩ y hy
          obtain rfl : x = y := Option.some.inj (Except.ok.inj hy)
          change ∃ s, _ ∧ TakenOff s x ((p.view V).scene w₃)
          rw [hpassed]
          exact ⟨_, hcaught rfl, hup hhealth⟩
        | down =>
          rw [if_neg (by simp), Action.wp_pure]
          intro y hy
          obtain rfl : x = y := Option.some.inj (Except.ok.inj hy)
          exact ⟨_, hcaught rfl, hdown hhealth⟩

end Call

end QueuePair

/-- **A caller of a replicated queue that is down is given the head of the secondary**, which the
secondary loses, unless the primary wavers while the call lasts: then the head given is the
primary's. A queue counts its items in 64 bits. -/
theorem head_is_fresh_unless_primary_wavers (p : QueuePair) (name : String) (limit : Nat)
    (faults : Faults V) (hspared : faults.Spares (.queue p.secondary)) (w : World V)
    (hdown : ((p.view V).scene w).health = .down)
    (hroom : (((p.view V).scene w).contents .primary).length ≤ roundLimit) (waits : Bool)
    (t : Token) (x : V) :
    let out := faults.regime.act w
      ((p.replicaEngine V name limit).replicatedQueue.takeOff waits t)
    out.1 = .ok (some x) →
      QueuePair.HeadGiven ((p.view V).scene w) x ((p.view V).scene out.2) := by
  intro out hx
  obtain ⟨s, hcaught, htaken⟩ :=
    QueuePair.wp_takeOff name limit t hspared hdown waits x hx
  exact hcaught.headGiven htaken hroom

/-! ## A wavering primary -/

namespace World

/-- Two queues that held one item before the primary went out: the item has been given away since,
and two others have come in. -/
def missedTwo : World Nat :=
  let out : Faults Nat := Faults.felling (.queue 0)
  let spells : List (Spell Nat (QueueOp Nat)) :=
    [{ op := .dequeue, faults := out }, { op := .enqueue 2, faults := out },
      { op := .enqueue 3, faults := out }]
  worldAfter (QueuePair.twins.serveReplica "pair" 1000) (twinQueues [1]) spells

end World

/-- The primary answers no read of its length, and whatever else it is asked. -/
def Faults.unread : Faults Nat
  | _, .queue 0 .count => some { cause := .backend "offline" }
  | _, _ => none

theorem Faults.spares_unread : Faults.unread.Spares (.queue 1) := by
  intro n c hc
  unfold unread
  split
  · cases hc
  · rfl

/-- A primary that is back gives the secondary's head. One that fails to tell its length, and then
gives an item, gives its own. -/
theorem head_is_fresh_after_outage :
    let p := QueuePair.twins
    let before := (p.view Nat).scene World.missedTwo
    let take := (p.replicaEngine Nat "pair" 1000).replicatedQueue.takeOff true none
    let out := (Faults.hitting []).regime.act World.missedTwo take
    let after := (p.view Nat).scene out.2
    let out' := Faults.unread.regime.act World.missedTwo take
    let after' := (p.view Nat).scene out'.2
    before.health = .down ∧ before.contents .primary = [1] ∧ before.contents .secondary = [2, 3] ∧
      out.1 = .ok (some 2) ∧ ¬ Scene.Wavered before after ∧ QueuePair.HeadGiven before 2 after ∧
      out'.1 = .ok (some 1) ∧ Scene.Wavered before after' ∧
      QueuePair.HeadGiven before 1 after' := by
  intro p before take out after out' after'
  have hdown : before.health = .down := by decide +kernel
  have hroom : (before.contents .primary).length ≤ roundLimit := by decide +kernel
  have hfresh : out.1 = .ok (some 2) := eq_ok_of_toOption (by decide +kernel)
  have hstale : out'.1 = .ok (some 1) := eq_ok_of_toOption (by decide +kernel)
  have hgiven : QueuePair.HeadGiven before 2 after :=
    head_is_fresh_unless_primary_wavers p "pair" 1000 (.hitting []) (Faults.spares_hitting_nil _)
      World.missedTwo hdown hroom true none 2 hfresh
  have hgiven' : QueuePair.HeadGiven before 1 after' :=
    head_is_fresh_unless_primary_wavers p "pair" 1000 .unread Faults.spares_unread World.missedTwo
      hdown hroom true none 1 hstale
  exact ⟨hdown, by decide +kernel, by decide +kernel, hfresh,
    fun h => absurd h.failed (by decide +kernel), hgiven, hstale,
    ⟨by decide +kernel, by decide +kernel⟩, hgiven'⟩

/-- Waited for or not, the item given is the stale one, and the item that the secondary had instead
is gone. -/
theorem stale_head_given_after_failed_read :
    let p := QueuePair.twins
    let before := (p.view Nat).scene World.missedTwo
    before.health = .down ∧ before.contents .secondary = [2, 3] ∧
      Faults.unread.Spares (.queue p.secondary) ∧
      ∀ waits : Bool,
        let out := Faults.unread.regime.act World.missedTwo
          ((p.replicaEngine Nat "pair" 1000).replicatedQueue.takeOff waits none)
        out.1 = .ok (some 1) ∧ ((p.view Nat).scene out.2).contents .secondary = [3] := by
  intro p before
  refine ⟨by decide +kernel, by decide +kernel, Faults.spares_unread, fun waits => ?_⟩
  cases waits with
  | false => exact ⟨eq_ok_of_toOption (by decide +kernel), by decide +kernel⟩
  | true => exact ⟨eq_ok_of_toOption (by decide +kernel), by decide +kernel⟩

end TwinStore
