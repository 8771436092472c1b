import TwinStore.Proofs.Agreement
import TwinStore.Proofs.Exchanges
import TwinStore.Proofs.PairedQueues

/-!
# Every item once, and in order

A replicated queue is compared with a single queue that gets the same operations. While the primary
is out, in each of its turns as a whole, the secondary is that queue (`Mirrors`); a turn in which it
works ends with both of them equal to it (`Restored`). A dequeue lets the recovery take place before
it takes anything off, so what a caller is given is the single queue's head, whichever store gives
it.
-/

namespace TwinStore

variable {V : Type}

/-- The secondary holds what the single queue holds, and so does the primary while the pair is up.
-/
structure Mirrors (c : List V) (s : Scene (List V)) : Prop where
  secondary : s.contents .secondary = c
  primary : s.health = .up → s.contents .primary = c

/-- The pair is up and both its queues hold what the single queue holds. -/
structure Restored (c : List V) (s : Scene (List V)) : Prop where
  up : s.health = .up
  both : ∀ side, s.contents side = c

/-- The secondary mirrors the single queue, and the primary holds what it held. -/
structure Waits (c : List V) (s s' : Scene (List V)) : Prop extends Mirrors c s' where
  idle : s'.contents .primary = s.contents .primary

/-- A recovery would restore the pair: the primary is not too long to be emptied. -/
structure Recoverable (c : List V) (s : Scene (List V)) : Prop extends Mirrors c s where
  room : (s.contents .primary).length < Converge.roundLimit

section Scenes

open QueuePair

variable {z : Hazard (List V)} {c : List V} {s s' : Scene (List V)}

theorem Restored.mirrors (h : Restored c s) : Mirrors c s := ⟨h.both _, fun _ => h.both _⟩

/-- Where the primary does not fail, a recovery that is due ends well. -/
theorem Mirrors.mended (h : Mirrors c s) (hfrail : ¬ z.frail .primary)
    (hroom : (s.contents .primary).length ≤ Converge.roundLimit) {r : Except Halt Unit}
    (hm : Scene.Mended (duplicating z) s r s') : r = .ok () ∧ Restored c s' := by
  cases hm with
  | idle up =>
    refine ⟨rfl, up, fun side => ?_⟩
    cases side with
    | primary => exact h.primary up
    | secondary => exact h.secondary
  | done report s₁ _ run =>
    have heq : s₁ = duplicated s := by
      cases run with
      | done eq => exact eq
    refine ⟨rfl, rfl, fun side => ?_⟩
    rw [Scene.contents_turn, heq, duplicated, List.drop_eq_nil_of_le hroom, List.nil_append]
    cases side with
    | primary =>
      rw [Scene.contents_put_self]
      exact h.secondary
    | secondary => exact h.secondary
  | failed cause _ _ run =>
    cases run with
    | failed _ frail => exact absurd frail hfrail

/-- What both queues have carried out, the single queue has carried out. -/
theorem Mirrors.both (h : Mirrors c s) (op : QueueOp V) :
    Mirrors (op.apply c).2
      ((s.put .primary (op.effect.after (s.contents .primary))).passOn op.effect) := by
  refine ⟨?_, fun hup => ?_⟩
  · rw [Scene.secondary_passOn, Scene.secondary_put_primary, h.secondary]
    rfl
  · rw [Scene.primary_passOn, Scene.contents_put_self, h.primary hup]
    rfl

/-- Where the primary does not fail, an operation on both queues answers as on one. -/
theorem Mirrors.replicated (h : Mirrors c s) (hfrail : ¬ z.frail .primary) {op : QueueOp V}
    (hroom : ((op.apply (s.contents .primary)).2).length ≤ Converge.roundLimit)
    {r : Except Halt op.Answer}
    (hs : Scene.Served (duplicating z) (Scene.asking z op.effect .primary) op.effect
      (fun _ => .passOn) s r s') :
    r = .ok (op.apply (s.contents .primary)).1 ∧ Restored (op.apply c).2 s' := by
  cases hs with
  | diverted cause s₁ b failed _ =>
    cases failed with
    | failed _ frail _ => exact absurd frail hfrail
  | passedOn a s₁ r _ done _ mended =>
    cases done with
    | done _ answers eq =>
      have hanswer : a = (op.apply (s.contents .primary)).1 := answers
      subst hanswer eq
      have hroom' : (((s.put .primary (op.effect.after (s.contents .primary))).passOn
          op.effect).contents .primary).length ≤ Converge.roundLimit := by
        rw [Scene.primary_passOn, Scene.contents_put_self]
        exact hroom
      obtain ⟨rfl, hrestored⟩ := (h.both op).mended hfrail hroom' mended
      exact ⟨rfl, hrestored⟩
  | stopped a _ _ next => cases next
  | recovered a s₁ r _ _ next _ => cases next

/-- An operation on the primary alone, where it does not fail. -/
theorem Scene.Served.kept (hfrail : ¬ z.frail .primary) {op : QueueOp V} {r : Except Halt op.Answer}
    (hs : Served (duplicating z) (asking z op.effect .primary) op.effect
      (fun _ => .recover) s r s') :
    ∃ r', r = r'.map (fun _ => (op.apply (s.contents .primary)).1) ∧
      Mended (duplicating z) (s.put .primary (op.apply (s.contents .primary)).2) r' s' := by
  cases hs with
  | diverted cause s₁ b failed _ =>
    cases failed with
    | failed _ frail _ => exact absurd frail hfrail
  | recovered a s₁ r _ done _ mended =>
    cases done with
    | done _ answers eq =>
      have hanswer : a = (op.apply (s.contents .primary)).1 := answers
      subst hanswer eq
      exact ⟨r, rfl, mended⟩
  | stopped a _ _ next => cases next
  | passedOn a s₁ r _ _ next _ => cases next

/-- While the primary is out, the secondary does what the single queue does. -/
theorem Mirrors.diverted (h : Mirrors c s) (op : QueueOp V) :
    Mirrors (op.apply c).2 (((s.blame .primary).turn .down).passOn op.effect) := by
  refine ⟨?_, fun hup => ?_⟩
  · rw [Scene.secondary_passOn, Scene.contents_turn, Scene.contents_blame, h.secondary]
    rfl
  · cases hup

end Scenes

/-! ## The operations of a replicated queue -/

namespace QueuePair

variable {p : QueuePair} {faults : Faults V} {name : String} {limit : Nat} {w : World V}
  {c : List V} {t : Token}

section Working

variable (hspared : faults.Spares (.queue p.secondary)) (hworks : faults.Spares (.queue p.primary))
include hspared hworks

/-- A read by a primary that works lets a recovery take place. -/
theorem wp_count_working (h : Recoverable c ((p.view V).scene w)) :
    ((p.replicaEngine V name limit).fallback fun q => q.count t).wp faults.regime (fun r w' =>
      r = .ok (((p.view V).scene w).contents .primary).length ∧
        Restored c ((p.view V).scene w')) w := by
  have hfrail : ¬ (p.hazard faults).frail .primary := fun h => h hworks
  have hserved := View.wp_fallback (mends_duplicating name limit hspared)
    (serves_replica name limit hspared .count t) (w := w) trivial
  refine Action.wp_mono hserved ?_
  rintro _ w' ⟨-, hs⟩
  obtain ⟨r, rfl, hmended⟩ := hs.kept hfrail
  have hsame : ((p.view V).scene w).put .primary
      (QueueOp.count.apply (((p.view V).scene w).contents .primary)).2 = (p.view V).scene w :=
    Scene.put_contents _ .primary
  rw [hsame] at hmended
  obtain ⟨rfl, hrestored⟩ := h.mended hfrail (Nat.le_of_lt h.room) hmended
  exact ⟨rfl, hrestored⟩

theorem wp_catchUp_working (h : Recoverable c ((p.view V).scene w)) :
    ((p.replicaEngine V name limit).catchUp t).wp faults.regime (fun r w' =>
      r = .ok () ∧ Restored c ((p.view V).scene w')) w := by
  unfold Engine.catchUp
  rw [Action.wp_bind, View.wp_health (v := p.view V) rfl, Action.andThen_ok]
  by_cases hdown : ((p.view V).scene w).health = .down
  · rw [if_pos hdown, Action.wp_bind]
    refine Action.wp_mono (wp_count_working hspared hworks h) ?_
    rintro _ w' ⟨rfl, hrestored⟩
    exact ⟨rfl, hrestored⟩
  · have hup : ((p.view V).scene w).health = .up := by
      cases hh : ((p.view V).scene w).health with
      | up => rfl
      | down => exact absurd hh hdown
    rw [if_neg hdown, Action.wp_pure]
    refine ⟨rfl, hup, fun side => ?_⟩
    cases side with
    | primary => exact h.primary hup
    | secondary => exact h.secondary

/-- Waiting for an item that is there takes it off both queues. -/
theorem wp_takeBoth_working (h : Recoverable c ((p.view V).scene w)) (hc : c ≠ []) :
    ((p.replicaEngine V name limit).takeBoth t).wp faults.regime (fun r w' =>
      r = .ok c.head? ∧ Restored c.tail ((p.view V).scene w')) w := by
  have hfrail : ¬ (p.hazard faults).frail .primary := fun h => h hworks
  unfold Engine.takeBoth
  rw [Action.wp_bind]
  refine Action.wp_mono (wp_catchUp_working hspared hworks h) ?_
  rintro _ w₁ ⟨rfl, hrestored⟩
  rw [Action.andThen_ok, Action.wp_bind]
  have hserved := View.wp_fallback (mends_duplicating name limit hspared)
    (serves_replica name limit hspared .take t) (w := w₁) trivial
  refine Action.wp_mono hserved ?_
  rintro _ w₂ ⟨-, hs⟩
  obtain ⟨r, rfl, hmended⟩ := hs.kept hfrail
  obtain ⟨rfl, htaken⟩ := hmended.of_up hrestored.up
  rw [hrestored.both] at htaken ⊢
  obtain ⟨x, xs, rfl⟩ := List.exists_cons_of_ne_nil hc
  have hup : ((p.view V).scene w₂).health = .up := by
    rw [htaken]
    exact hrestored.up
  have hitem : (Except.ok () : Except Halt Unit).map
      (fun _ => (QueueOp.take.apply (x :: xs)).1) = .ok (some x) := rfl
  rw [hitem, Action.andThen_ok, Action.wp_bind, View.wp_health (v := p.view V) rfl, hup,
    Action.andThen_ok]
  dsimp only
  rw [if_pos (by rfl), Action.wp_bind, Action.wp_attempt]
  refine Action.wp_mono ((serves_replica name limit hspared .dequeue t).secondary w₂ trivial) ?_
  rintro _ w₃ ⟨-, head, rfl, -, hpassed⟩
  have hboth : Restored xs ((p.view V).scene w₃) := by
    refine ⟨by rw [hpassed, Scene.health_passOn, hup], fun side => ?_⟩
    rw [hpassed, htaken]
    cases side with
    | primary =>
      rw [Scene.primary_passOn, Scene.contents_put_self]
      rfl
    | secondary =>
      rw [Scene.secondary_passOn, Scene.secondary_put_primary, hrestored.both]
      rfl
  exact ⟨rfl, hboth⟩

/-- Where the primary works, an operation on both queues answers as on one and restores both. -/
theorem wp_replicate_working (h : Mirrors c ((p.view V).scene w)) (op : QueueOp V)
    (hroom : ((op.apply (((p.view V).scene w).contents .primary)).2).length ≤
      Converge.roundLimit) :
    ((p.replicaEngine V name limit).replicate fun q => op.on q t).wp faults.regime (fun r w' =>
      r = .ok (op.apply (((p.view V).scene w).contents .primary)).1 ∧
        Restored (op.apply c).2 ((p.view V).scene w')) w := by
  have hfrail : ¬ (p.hazard faults).frail .primary := fun h => h hworks
  have hserved := View.wp_replicate (mends_duplicating name limit hspared)
    (serves_replica name limit hspared op t) (w := w) trivial
  refine Action.wp_mono hserved ?_
  rintro r w' ⟨-, hs⟩
  exact h.replicated hfrail hroom hs

variable (name limit) in
/-- A turn in which the primary works: only the length that is told may be out of date, and the pair
is up after it. -/
theorem wp_on_working (h : Recoverable c ((p.view V).scene w))
    (op : QueueOp V) (hlen : c.length < Converge.roundLimit) (htake : op = .take → c ≠ []) :
    (op.on (p.replicaEngine V name limit).replicatedQueue t).wp faults.regime (fun r w' =>
      (∃ a, r = .ok a ∧ (op ≠ .count → a = (op.apply c).1)) ∧
        Restored (op.apply c).2 ((p.view V).scene w')) w := by
  cases op with
  | enqueue x =>
    have hroom : ((QueueOp.enqueue x).apply (((p.view V).scene w).contents .primary)).2.length ≤
        Converge.roundLimit := by
      change (((p.view V).scene w).contents .primary ++ [x]).length ≤ _
      rw [List.length_append]
      exact h.room
    refine Action.wp_mono (wp_replicate_working hspared hworks h.toMirrors (.enqueue x) hroom) ?_
    rintro r w' ⟨rfl, hrestored⟩
    exact ⟨⟨(), rfl, fun _ => rfl⟩, hrestored⟩
  | dequeue =>
    change Action.wp _ ((p.replicaEngine V name limit).catchUp t >>= fun _ => _) _ w
    rw [Action.wp_bind]
    refine Action.wp_mono (wp_catchUp_working hspared hworks h) ?_
    rintro _ w₁ ⟨rfl, hrestored⟩
    have hroom : (QueueOp.dequeue.apply (((p.view V).scene w₁).contents .primary)).2.length ≤
        Converge.roundLimit := by
      rw [hrestored.both]
      change c.tail.length ≤ _
      rw [List.length_tail]
      omega
    rw [Action.andThen_ok]
    refine Action.wp_mono (wp_replicate_working hspared hworks hrestored.mirrors .dequeue hroom) ?_
    rintro r w₂ ⟨rfl, hrestored'⟩
    rw [hrestored.both]
    exact ⟨⟨_, rfl, fun _ => rfl⟩, hrestored'⟩
  | count =>
    refine Action.wp_mono (wp_count_working hspared hworks h) ?_
    rintro r w' ⟨rfl, hrestored⟩
    exact ⟨⟨_, rfl, fun hne => absurd rfl hne⟩, hrestored⟩
  | take =>
    refine Action.wp_mono (wp_takeBoth_working hspared hworks h (htake rfl)) ?_
    rintro r w' ⟨rfl, hrestored⟩
    exact ⟨⟨_, rfl, fun _ => rfl⟩, hrestored⟩

end Working

section Out

variable (hspared : faults.Spares (.queue p.secondary)) (hfells : faults.Fells (.queue p.primary))
include hspared hfells

theorem wp_fallback_out (h : Mirrors c ((p.view V).scene w)) (op : QueueOp V) :
    ((p.replicaEngine V name limit).fallback fun q => op.on q t).wp faults.regime (fun r w' =>
      r = .ok (op.apply c).1 ∧ ((p.view V).scene w').health = .down ∧
        Waits (op.apply c).2 ((p.view V).scene w) ((p.view V).scene w')) w := by
  have hserved := View.wp_fallback (mends_duplicating name limit hspared)
    (serves_out name limit hspared hfells op t) (w := w) trivial
  refine Action.wp_mono hserved ?_
  rintro r w' ⟨-, hs⟩
  obtain ⟨b, rfl, hanswer, heq⟩ := hs.of_refusing
  rw [h.secondary] at hanswer
  have hanswer : b = (op.apply c).1 := hanswer
  subst hanswer
  rw [heq]
  exact ⟨rfl, rfl, h.diverted op, rfl⟩

theorem wp_replicate_out (h : Mirrors c ((p.view V).scene w)) (op : QueueOp V) :
    ((p.replicaEngine V name limit).replicate fun q => op.on q t).wp faults.regime (fun r w' =>
      r = .ok (op.apply c).1 ∧
        Waits (op.apply c).2 ((p.view V).scene w) ((p.view V).scene w')) w := by
  have hserved := View.wp_replicate (mends_duplicating name limit hspared)
    (serves_out name limit hspared hfells op t) (w := w) trivial
  refine Action.wp_mono hserved ?_
  rintro r w' ⟨-, hs⟩
  obtain ⟨b, rfl, hanswer, heq⟩ := hs.of_refusing
  rw [h.secondary] at hanswer
  have hanswer : b = (op.apply c).1 := hanswer
  subst hanswer
  rw [heq]
  exact ⟨rfl, h.diverted op, rfl⟩

theorem wp_catchUp_out (h : Mirrors c ((p.view V).scene w)) :
    ((p.replicaEngine V name limit).catchUp t).wp faults.regime (fun r w' =>
      r = .ok () ∧ Waits c ((p.view V).scene w) ((p.view V).scene w')) w := by
  unfold Engine.catchUp
  rw [Action.wp_bind, View.wp_health (v := p.view V) rfl, Action.andThen_ok]
  by_cases hdown : ((p.view V).scene w).health = .down
  · rw [if_pos hdown, Action.wp_bind]
    refine Action.wp_mono (wp_fallback_out hspared hfells h .count) ?_
    rintro _ w' ⟨rfl, -, hwaits⟩
    exact ⟨rfl, hwaits⟩
  · rw [if_neg hdown, Action.wp_pure]
    exact ⟨rfl, h, rfl⟩

variable (name limit) in
/-- A turn in which the primary is out: callers are told what the single queue would tell them. -/
theorem wp_on_out (h : Mirrors c ((p.view V).scene w)) (op : QueueOp V) :
    (op.on (p.replicaEngine V name limit).replicatedQueue t).wp faults.regime (fun r w' =>
      r = .ok (op.apply c).1 ∧
        Waits (op.apply c).2 ((p.view V).scene w) ((p.view V).scene w')) w := by
  cases op with
  | enqueue x => exact wp_replicate_out hspared hfells h (.enqueue x)
  | dequeue =>
    change Action.wp _ ((p.replicaEngine V name limit).catchUp t >>= fun _ => _) _ w
    rw [Action.wp_bind]
    refine Action.wp_mono (wp_catchUp_out hspared hfells h) ?_
    rintro _ w₁ ⟨rfl, hwaits⟩
    rw [Action.andThen_ok]
    refine Action.wp_mono (wp_replicate_out hspared hfells hwaits.toMirrors .dequeue) ?_
    rintro r w₂ ⟨hr, hwaits'⟩
    exact ⟨hr, hwaits'.toMirrors, hwaits'.idle.trans hwaits.idle⟩
  | count =>
    refine Action.wp_mono (wp_fallback_out hspared hfells h .count) ?_
    rintro r w' ⟨hr, -, hwaits⟩
    exact ⟨hr, hwaits⟩
  | take =>
    change Action.wp _ ((p.replicaEngine V name limit).catchUp t >>= fun _ => _) _ w
    rw [Action.wp_bind]
    refine Action.wp_mono (wp_catchUp_out hspared hfells h) ?_
    rintro _ w₁ ⟨rfl, hwaits⟩
    rw [Action.andThen_ok, Action.wp_bind]
    refine Action.wp_mono (wp_fallback_out hspared hfells hwaits.toMirrors .take) ?_
    rintro r w₂ ⟨rfl, hdown, hwaits'⟩
    -- The pair is down, so the secondary has given the item itself.
    rw [Action.andThen_ok, Action.wp_bind, View.wp_health (v := p.view V) rfl, hdown,
      Action.andThen_ok]
    dsimp only
    rw [if_neg (by simp)]
    exact ⟨rfl, hwaits'.toMirrors, hwaits'.idle.trans hwaits.idle⟩

end Out

end QueuePair

/-! ## Runs of turns -/

/-- A turn, and which calls fail while it lasts. -/
structure Spell (V Op : Type) extends Turn Op where
  faults : Faults V

namespace QueuePair

variable (p : QueuePair) (name : String) (limit : Nat)

/-- The secondary works while the turn lasts, and the primary either works or is out. -/
def AllOrNone (spell : Spell V (QueueOp V)) : Prop :=
  spell.faults.Spares (.queue p.secondary) ∧
    (spell.faults.Spares (.queue p.primary) ∨ spell.faults.Fells (.queue p.primary))

/-- Serve one caller of a replicated queue. -/
def serveReplica (spell : Spell V (QueueOp V)) (w : World V) :
    Except Halt spell.op.Answer × World V :=
  spell.faults.regime.act (w.atTime spell.time)
    (spell.op.on (p.replicaEngine V name limit).replicatedQueue spell.token)

end QueuePair

/-- Operations as a single queue can be given them: its length, which is a number of 64 bits, has
room, and it is waited for only while there is an item. -/
def Orderly : List V → List (QueueOp V) → Prop
  | c, [] => c.length < Converge.roundLimit
  | c, op :: ops =>
    c.length < Converge.roundLimit ∧ (op = .take → c ≠ []) ∧ Orderly (op.apply c).2 ops

/-- What a single queue holds after some operations. -/
def QueueOp.applyAll (ops : List (QueueOp V)) (c : List V) : List V :=
  ops.foldl (fun c op => (op.apply c).2) c

theorem Orderly.length_lt {c : List V} {ops : List (QueueOp V)} (h : Orderly c ops) :
    c.length < Converge.roundLimit := by
  cases ops with
  | nil => exact h
  | cons op ops => exact h.1

theorem Orderly.of_append {c : List V} {ops ops' : List (QueueOp V)} (h : Orderly c (ops ++ ops')) :
    Orderly c ops ∧ Orderly (QueueOp.applyAll ops c) ops' := by
  induction ops generalizing c with
  | nil => exact ⟨h.length_lt, h⟩
  | cons op ops ih =>
    obtain ⟨hlen, htake, hrest⟩ := h
    obtain ⟨hops, hops'⟩ := ih hrest
    exact ⟨⟨hlen, htake, hops⟩, hops'⟩

section Runs

variable {p : QueuePair} {name : String} {limit : Nat} {w : World V} {c : List V}

/-- One turn, compared with the single queue. -/
structure Delivered (p : QueuePair) (spell : Spell V (QueueOp V)) (c : List V)
    (out : Except Halt spell.op.Answer × World V) : Prop where
  told : ∃ a, out.1 = .ok a ∧ (spell.op ≠ .count → a = (spell.op.apply c).1)
  restored : spell.faults.Spares (.queue p.primary) →
    Restored (spell.op.apply c).2 ((p.view V).scene out.2)
  recoverable : Recoverable (spell.op.apply c).2 ((p.view V).scene out.2)

theorem Recoverable.delivered (h : Recoverable c ((p.view V).scene w))
    {spell : Spell V (QueueOp V)} (hspell : p.AllOrNone spell) (horderly : Orderly c [spell.op]) :
    Delivered p spell c (p.serveReplica name limit spell w) := by
  obtain ⟨hlen, htake, hlen'⟩ := horderly
  unfold QueuePair.serveReplica
  obtain ⟨hspared, hworks | hfells⟩ := hspell
  · obtain ⟨htold, hrestored⟩ := QueuePair.wp_on_working name limit (t := spell.token)
      (w := w.atTime spell.time) hspared hworks h spell.op hlen htake
    refine ⟨htold, fun _ => hrestored, hrestored.mirrors, ?_⟩
    rw [hrestored.both]
    exact hlen'
  · obtain ⟨htold, hwaits⟩ := QueuePair.wp_on_out name limit (t := spell.token)
      (w := w.atTime spell.time) hspared hfells h.toMirrors spell.op
    refine ⟨⟨_, htold, fun _ => rfl⟩, fun hworks => ?_, hwaits.toMirrors, ?_⟩
    · exact absurd (hworks 0 (.queue p.primary .count) rfl) (hfells 0 _ rfl)
    · rw [hwaits.idle]
      exact h.room

/-- Along any run of turns a recovery would restore the pair to what the single queue holds. -/
theorem Recoverable.after (h : Recoverable c ((p.view V).scene w))
    {spells : List (Spell V (QueueOp V))} (hspells : ∀ spell ∈ spells, p.AllOrNone spell)
    (horderly : Orderly c (spells.map (·.op))) :
    Recoverable (QueueOp.applyAll (spells.map (·.op)) c)
      ((p.view V).scene (worldAfter (p.serveReplica name limit) w spells)) := by
  induction spells generalizing w c with
  | nil => exact h
  | cons spell spells ih =>
    have hfirst : Orderly c [spell.op] := ⟨horderly.1, horderly.2.1, horderly.2.2.length_lt⟩
    have hdelivered : Delivered p spell c (p.serveReplica name limit spell w) :=
      h.delivered (hspells spell List.mem_cons_self) hfirst
    exact ih hdelivered.recoverable (fun s hs => hspells s (List.mem_cons_of_mem _ hs)) horderly.2.2

end Runs

/-- **A replicated queue delivers every item once and in order**, over any run of turns in each of
which the primary works or is out: every call is answered, every dequeue with the head of a single
queue that gets the same operations, and after a turn in which the primary works the pair is up and
both queues hold what the single queue holds. -/
theorem replicated_queue_delivers_in_order (p : QueuePair) (name : String) (limit : Nat)
    (w : World V) (spells : List (Spell V (QueueOp V))) (spell : Spell V (QueueOp V))
    (hstart : (p.view V).InStep w) (hspells : ∀ s ∈ spells ++ [spell], p.AllOrNone s)
    (horderly : Orderly (((p.view V).scene w).contents .primary)
      ((spells ++ [spell]).map (·.op))) :
    let c := QueueOp.applyAll (spells.map (·.op)) (((p.view V).scene w).contents .primary)
    let out := p.serveReplica name limit spell (worldAfter (p.serveReplica name limit) w spells)
    let last := (p.view V).scene out.2
    (∃ a, out.1 = .ok a ∧ (spell.op ≠ .count → a = (spell.op.apply c).1)) ∧
    (spell.faults.Spares (.queue p.primary) →
      last.health = .up ∧ ∀ side, last.contents side = (spell.op.apply c).2) := by
  intro c out last
  rw [List.map_append] at horderly
  have hbegin : Recoverable (((p.view V).scene w).contents .primary) ((p.view V).scene w) :=
    ⟨⟨hstart.same.symm, fun _ => rfl⟩, horderly.length_lt⟩
  obtain ⟨hbefore, hnow⟩ := horderly.of_append
  have hrecoverable : Recoverable c
      ((p.view V).scene (worldAfter (p.serveReplica name limit) w spells)) :=
    hbegin.after (fun s hs => hspells s (List.mem_append_left _ hs)) hbefore
  have hdelivered : Delivered p spell c out :=
    hrecoverable.delivered (hspells spell (List.mem_append_right _ List.mem_cons_self)) hnow
  refine ⟨hdelivered.told, fun hworks => ?_⟩
  have hrestored := hdelivered.restored hworks
  exact ⟨hrestored.up, hrestored.both⟩

/-! ### A new pair -/

theorem QueuePair.inStep_twins (items : List V) :
    (twins.view V).InStep (World.twinQueues items) where
  fit := trivial
  up := rfl
  same := rfl

/-- While the primary is out an item comes in and another one is given away; then the primary works
again, and gives the item that it has missed. -/
theorem replicated_queue_delivers_through_outage :
    let p := QueuePair.twins
    let works : Faults Nat := Faults.hitting []
    let out : Faults Nat := Faults.felling (.queue 0)
    let spells : List (Spell Nat (QueueOp Nat)) :=
      [{ op := .enqueue 1, faults := works }, { op := .enqueue 2, faults := out },
        { op := .dequeue, faults := out }]
    let served := p.serveReplica "pair" 1000 { op := .take, faults := works }
      (worldAfter (p.serveReplica "pair" 1000) (World.twinQueues []) spells)
    let last := (p.view Nat).scene served.2
    served.1 = .ok (some 2) ∧ last.health = .up ∧ ∀ side, last.contents side = [] := by
  intro p works out spells served last
  have hworks : ∀ turn : Turn (QueueOp Nat), p.AllOrNone { turn with faults := works } := fun _ =>
    ⟨Faults.spares_hitting_nil _, .inl (Faults.spares_hitting_nil _)⟩
  have hout : ∀ turn : Turn (QueueOp Nat), p.AllOrNone { turn with faults := out } := fun _ =>
    ⟨Faults.spares_felling (by decide), .inr (Faults.fells_felling _)⟩
  have hspells : ∀ s ∈ spells ++ [{ op := .take, faults := works }], p.AllOrNone s := by
    simp only [spells, List.cons_append, List.nil_append, List.forall_mem_cons]
    exact ⟨hworks _, hout _, hout _, hworks _, fun _ h => absurd h List.not_mem_nil⟩
  have horderly : Orderly ([] : List Nat) [.enqueue 1, .enqueue 2, .dequeue, .take] :=
    ⟨by decide, nofun, by decide, nofun, by decide, nofun, by decide, fun _ => List.cons_ne_nil _ _,
      show ([] : List Nat).length < Converge.roundLimit by decide⟩
  obtain ⟨⟨a, ha, hitem⟩, hrestored⟩ := replicated_queue_delivers_in_order p "pair" 1000
    (World.twinQueues []) spells { op := .take, faults := works } (QueuePair.inStep_twins _) hspells
    horderly
  have hitem : a = some 2 := hitem nofun
  subst hitem
  have hlast : (p.view Nat).scene (p.serveReplica "pair" 1000 { op := .take, faults := works }
      (worldAfter (p.serveReplica "pair" 1000) (World.twinQueues []) spells)).2 = last := rfl
  rw [hlast] at hrestored
  exact ⟨ha, hrestored (Faults.spares_hitting_nil _)⟩

end TwinStore
