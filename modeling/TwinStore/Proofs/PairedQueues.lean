import TwinStore.Converge.Items
import TwinStore.Failover.Queues
import TwinStore.Program.Backend
import TwinStore.Proofs.Reliable

/-!
# Pairs of base queues

`QueuePair.view` is the view of two base queues. Under any faults each operation does to a queue
what `QueueOp.apply` does to a list, or fails (`QueuePair.carries`). The runs between queues write
to both of them, so they are no convergence in the sense of `Scene.Converged`: emptying the
secondary into the primary moves items from one list to the other, and loses one if the primary
fails (`QueuePair.mends_moving`); duplicating the secondary makes the primary equal to it, unless
the primary fails (`QueuePair.mends_duplicating`).
-/

namespace TwinStore

variable {V : Type}

namespace QueueOp

/-- What an operation does to a queue, and what it answers. -/
def effect (op : QueueOp V) : Effect (List V) op.Answer where
  after c := (op.apply c).2
  answers c a := a = (op.apply c).1

/-- Carry out an operation on a queue. -/
def on (q : BlockingQueue V) (t : Token) : (op : QueueOp V) → Action V op.Answer
  | .enqueue v => q.enqueue v t
  | .dequeue => q.dequeue t
  | .count => q.count t
  | .take => q.take t

end QueueOp

/-- Two base queues and a health record. -/
structure QueuePair extends BasePair

namespace QueuePair

variable (p : QueuePair)

/-! ## The view -/

/-- Two base queues, seen by what they hold. -/
def view (V : Type) : View V (List V) where
  core := p.core
  site side := .queue (p.index side)
  contents w side := (w.queues.nth (p.index side)).content
  Fit _ := True
  contents_congr := by
    intro w w' h
    simp only [World.stores, Prod.mk.injEq] at h
    rw [h.2.2.2.2]
  fit_congr _ h := h
  site_injective h := p.index_injective (Site.queue.inj h)

/-- What may go wrong with two base queues. -/
def hazard (faults : Faults V) : Hazard (List V) :=
  (p.view V).hazard faults fun _ _ _ => True

/-- The base queue on a side. -/
def base (V : Type) (p : QueuePair) (side : Side) : BlockingQueue V :=
  Backend.queue (p.index side)

/-! ## Calls -/

variable {p} {w : World V} {side : Side} {faults : Faults V}

theorem scene_perform (side : Side) (op : QueueOp V) :
    (p.view V).scene (w.perform (.queue (p.index side) op)).2 =
      ((p.view V).scene w).put side (op.apply (w.queues.nth (p.index side)).content).2 := by
  ext side' : 2
  · by_cases he : side' = side
    · subst he
      rw [Scene.contents_put_self]
      simp [View.scene, view, World.perform]
    · have hne : p.index side ≠ p.index side' := fun h => he (p.index_injective h).symm
      rw [Scene.contents_put_of_ne _ _ he]
      simp [View.scene, view, World.perform, Shelf.nth_put_of_ne _ _ hne]
  · rfl
  · rfl

/-- An operation on a base queue is a call. -/
theorem on_base (op : QueueOp V) (t : Token) :
    op.on (p.base V side) t = Backend.onQueue (p.index side) op t := by
  cases op <;> rfl

/-- A call does to its queue what the operation does, or fails. -/
theorem carries (op : QueueOp V) (t : Token) :
    (p.view V).Carries faults.regime (p.hazard faults)
      (fun side => op.on (p.base V side) t) op.effect := by
  intro side w hw
  dsimp only
  rw [on_base]
  refine View.wp_call (v := p.view V) rfl hw ?_ ?_ ?_
  · intro w' hw' hsame
    refine ⟨hw', .done _ ?_ ?_⟩
    · rw [← hsame]
      rfl
    · rw [scene_perform, ← hsame]
      rfl
  · intro cause w' hfrail hw' hblame
    exact ⟨hw', .failed cause hfrail hblame⟩
  · intro cause n a w' _ _ _ ha
    cases ha

/-- Whatever is asked of a primary that is out fails. -/
theorem wp_felled (hfells : faults.Fells (.queue p.primary)) (op : QueueOp V) (t : Token)
    (w : World V) :
    (op.on (p.base V .primary) t).wp faults.regime (fun r w' => (p.view V).Fit w' ∧
      ∃ cause, r = .error (.failed cause) ∧
        (p.view V).scene w' = ((p.view V).scene w).blame .primary) w := by
  rw [on_base]
  have hsite : (Call.queue (p.index .primary) op).site = (p.view V).site .primary := rfl
  refine View.wp_felled hsite hfells (fun _ _ _ => rfl) trivial ?_
  intro cause w' hw' hblame
  exact ⟨hw', cause, rfl, hblame⟩

/-! ## Emptying one queue into another -/

/-- Some items have moved from one queue to another; at a failure of the other, one more was lost.
-/
inductive Moved (source target : Side) (s s' : Scene (List V)) : Except StoreError Unit → Prop
  | done (m : Nat) (left : s'.contents source = (s.contents source).drop m)
      (moved : s'.contents target = s.contents target ++ (s.contents source).take m) :
      Moved source target s s' (.ok ())
  | dropped (cause : StoreError) (m : Nat) (lt : m < (s.contents source).length)
      (left : s'.contents source = (s.contents source).drop (m + 1))
      (moved : s'.contents target = s.contents target ++ (s.contents source).take m) :
      Moved source target s s' (.error cause)

section Walks

open Converge

variable {source target : Side}

/-- One item moves, and then others do. -/
theorem Moved.cons (hne : source ≠ target) {s s' : Scene (List V)} {r : Except StoreError Unit}
    {x : V} {xs : List V} (hx : s.contents source = x :: xs)
    (h : Moved source target ((s.put source xs).put target (s.contents target ++ [x])) s' r) :
    Moved source target s s' r := by
  have hsource :
      ((s.put source xs).put target (s.contents target ++ [x])).contents source = xs := by
    rw [Scene.contents_put_of_ne _ _ hne, Scene.contents_put_self]
  cases h with
  | done m left moved =>
    rw [hsource] at left moved
    rw [Scene.contents_put_self, List.append_assoc] at moved
    refine .done (m + 1) ?_ ?_
    · rw [hx]
      exact left
    · rw [hx]
      exact moved
  | dropped cause m lt left moved =>
    rw [hsource] at lt left moved
    rw [Scene.contents_put_self, List.append_assoc] at moved
    refine .dropped cause (m + 1) ?_ ?_ ?_
    · rw [hx]
      exact Nat.succ_lt_succ lt
    · rw [hx]
      exact left
    · rw [hx]
      exact moved

theorem wp_moveItems (hne : source ≠ target) (hfrail : ¬ (p.hazard faults).frail source) (t : Token)
    (rounds : Nat) (n : Tally) (w : World V) :
    (moveItems (p.base V source).toQueueStore (p.base V target).toQueueStore t rounds).wp
      faults.regime (fun r _ w' => (p.view V).Fit w' ∧
        ∃ r' : Except StoreError Unit, r = r'.mapError Halt.failed ∧
          Moved source target ((p.view V).scene w) ((p.view V).scene w') r') n w := by
  have hstill : ∀ w : World V, Moved source target ((p.view V).scene w) ((p.view V).scene w)
      (.ok ()) := fun w => .done 0 rfl (List.append_nil _).symm
  induction rounds generalizing n w with
  | zero => exact ⟨trivial, .ok (), rfl, hstill w⟩
  | succ rounds ih =>
    unfold moveItems
    rw [Walk.wp_bind, Walk.wp_lift]
    refine Action.wp_mono (carries .count t source w trivial) ?_
    rintro r w₁ ⟨-, hcount⟩
    cases hcount with
    | failed cause frail eq => exact absurd frail hfrail
    | done k hk eq =>
      have hsame : (p.view V).scene w₁ = (p.view V).scene w :=
        eq.trans (Scene.put_contents _ source)
      have hlen : k = (((p.view V).scene w).contents source).length := hk
      rw [Walk.andThen_ok]
      by_cases hpos : 0 < k
      · rw [if_pos hpos, Walk.wp_bind, Walk.wp_lift]
        refine Action.wp_mono (carries .dequeue t source w₁ trivial) ?_
        rintro r w₂ ⟨-, hdequeue⟩
        cases hdequeue with
        | failed cause frail eq => exact absurd frail hfrail
        | done head hhead eq =>
          obtain ⟨x, xs, hx⟩ := List.exists_cons_of_length_pos (hlen ▸ hpos)
          have hhead : head = (((p.view V).scene w₁).contents source).head? := hhead
          have heq : (p.view V).scene w₂ = ((p.view V).scene w).put source xs := by
            rw [eq, hsame]
            exact congrArg (((p.view V).scene w).put source) (congrArg List.tail hx)
          rw [hsame, hx] at hhead
          subst hhead
          rw [Walk.andThen_ok]
          dsimp only [List.head?]
          rw [Walk.wp_bind, Walk.wp_lift]
          refine Action.wp_mono (carries (.enqueue x) t target w₂ trivial) ?_
          rintro r w₃ ⟨-, henqueue⟩
          cases henqueue with
          | failed cause frail eq₃ =>
            refine ⟨trivial, .error cause, rfl, .dropped cause 0 (hlen ▸ hpos) ?_ ?_⟩
            · rw [eq₃, Scene.contents_blame, heq, Scene.contents_put_self, hx]
              rfl
            · rw [eq₃, Scene.contents_blame, heq, Scene.contents_put_of_ne _ _ hne.symm]
              exact (List.append_nil _).symm
          | done _ _ eq₃ =>
            have heq₃ : (p.view V).scene w₃ = (((p.view V).scene w).put source xs).put target
                (((p.view V).scene w).contents target ++ [x]) := by
              rw [eq₃, heq]
              exact congrArg (Scene.put _ target) (congrArg (· ++ [x])
                (Scene.contents_put_of_ne _ _ hne.symm))
            rw [Walk.andThen_ok, Walk.wp_bind, Walk.wp_wrote, Walk.andThen_ok]
            refine Walk.wp_mono (ih _ w₃) ?_
            rintro r _ w' ⟨-, r', rfl, hmoved⟩
            rw [heq₃] at hmoved
            exact ⟨trivial, r', rfl, hmoved.cons hne hx⟩
      · rw [if_neg hpos, Walk.wp_pure]
        refine ⟨trivial, .ok (), rfl, ?_⟩
        rw [hsame]
        exact hstill w

/-! ## Duplicating one queue in another -/

/-- Something has come out well, unless the given store has failed. -/
inductive Attained (z : Hazard (List V)) (side : Side) (good s' : Scene (List V)) :
    Except Halt Unit → Prop
  | done (eq : s' = good) : Attained z side good s' (.ok ())
  | failed (cause : StoreError) (frail : z.frail side) :
      Attained z side good s' (.error (.failed cause))

/-- Each round takes one item off. -/
theorem wp_discardItems (t : Token) (rounds : Nat) (n : Tally) (w : World V) :
    (discardItems (p.base V target).toQueueStore t rounds).wp faults.regime (fun r _ w' =>
      Attained (p.hazard faults) target (((p.view V).scene w).put target
        ((((p.view V).scene w).contents target).drop rounds)) ((p.view V).scene w') r) n w := by
  induction rounds generalizing n w with
  | zero => exact .done (Scene.put_contents _ target).symm
  | succ rounds ih =>
    unfold discardItems
    rw [Walk.wp_bind, Walk.wp_lift]
    refine Action.wp_mono (carries .dequeue t target w trivial) ?_
    rintro r w₁ ⟨-, hdequeue⟩
    cases hdequeue with
    | failed cause frail eq => exact .failed cause frail
    | done head hhead eq =>
      have hhead : head = (((p.view V).scene w).contents target).head? := hhead
      have heq : (p.view V).scene w₁ = ((p.view V).scene w).put target
          (((p.view V).scene w).contents target).tail := eq
      rw [Walk.andThen_ok]
      cases hT : ((p.view V).scene w).contents target with
      | nil =>
        rw [hT] at hhead heq
        subst hhead
        exact .done (heq.trans (by rw [List.drop_nil, List.tail_nil]))
      | cons x xs =>
        rw [hT] at hhead heq
        subst hhead
        dsimp only [List.head?]
        rw [Walk.wp_bind, Walk.wp_removed, Walk.andThen_ok]
        refine Walk.wp_mono (ih _ w₁) ?_
        rintro r _ w' hrest
        rw [heq, Scene.put_put, Scene.contents_put_self] at hrest
        exact hrest

/-- Each round takes an item of the source from its head to its tail, and to the target too. -/
theorem wp_rotateItems (hne : source ≠ target) (hfrail : ¬ (p.hazard faults).frail source)
    (t : Token) (rounds : Nat) (n : Tally) (w : World V) {S T : List V}
    (hS : ((p.view V).scene w).contents source = S)
    (hT : ((p.view V).scene w).contents target = T) (hrounds : rounds ≤ S.length) :
    (rotateItems (p.base V source).toQueueStore (p.base V target).toQueueStore t rounds).wp
      faults.regime (fun r _ w' => Attained (p.hazard faults) target
        ((((p.view V).scene w).put source (S.drop rounds ++ S.take rounds)).put target
          (T ++ S.take rounds)) ((p.view V).scene w') r) n w := by
  induction rounds generalizing n w S T with
  | zero =>
    refine .done ?_
    rw [List.drop_zero, List.take_zero, List.append_nil, List.append_nil, ← hS, Scene.put_contents,
      ← hT, Scene.put_contents]
    rfl
  | succ rounds ih =>
    obtain ⟨x, xs, rfl⟩ := List.exists_cons_of_length_pos (Nat.zero_lt_of_lt hrounds)
    have hrounds : rounds ≤ xs.length := Nat.le_of_succ_le_succ hrounds
    unfold rotateItems
    rw [Walk.wp_bind, Walk.wp_lift]
    refine Action.wp_mono (carries .dequeue t source w trivial) ?_
    rintro r w₁ ⟨-, hdequeue⟩
    cases hdequeue with
    | failed cause frail eq => exact absurd frail hfrail
    | done head hhead eq₁ =>
      have hhead : head = (((p.view V).scene w).contents source).head? := hhead
      have eq₁ : (p.view V).scene w₁ = ((p.view V).scene w).put source
          (((p.view V).scene w).contents source).tail := eq₁
      rw [hS] at hhead eq₁
      subst hhead
      rw [Walk.andThen_ok]
      dsimp only [List.head?]
      rw [Walk.wp_bind, Walk.wp_lift]
      refine Action.wp_mono (carries (.enqueue x) t source w₁ trivial) ?_
      rintro r w₂ ⟨-, hback⟩
      cases hback with
      | failed cause frail eq => exact absurd frail hfrail
      | done _ _ eq₂ =>
        have eq₂ : (p.view V).scene w₂ = ((p.view V).scene w₁).put source
            (((p.view V).scene w₁).contents source ++ [x]) := eq₂
        rw [eq₁, Scene.put_put, Scene.contents_put_self, List.tail_cons] at eq₂
        rw [Walk.andThen_ok, Walk.wp_bind, Walk.wp_lift]
        refine Action.wp_mono (carries (.enqueue x) t target w₂ trivial) ?_
        rintro r w₃ ⟨-, hcopied⟩
        cases hcopied with
        | failed cause frail eq => exact .failed cause frail
        | done _ _ eq₃ =>
          have eq₃ : (p.view V).scene w₃ = ((p.view V).scene w₂).put target
              (((p.view V).scene w₂).contents target ++ [x]) := eq₃
          rw [eq₂, Scene.contents_put_of_ne _ _ hne.symm, hT] at eq₃
          have hS₃ : ((p.view V).scene w₃).contents source = xs ++ [x] := by
            rw [eq₃, Scene.contents_put_of_ne _ _ hne, Scene.contents_put_self]
          have hT₃ : ((p.view V).scene w₃).contents target = T ++ [x] := by
            rw [eq₃, Scene.contents_put_self]
          rw [Walk.andThen_ok, Walk.wp_bind, Walk.wp_wrote, Walk.andThen_ok]
          refine Walk.wp_mono (ih _ w₃ hS₃ hT₃ ?_) ?_
          · rw [List.length_append]
            exact Nat.le_add_right_of_le hrounds
          · rintro r _ w' hrest
            -- The items that the source has got back are beyond those that are still to go round.
            have hsource : (xs ++ [x]).drop rounds ++ (xs ++ [x]).take rounds =
                (x :: xs).drop (rounds + 1) ++ (x :: xs).take (rounds + 1) := by
              rw [List.drop_append_of_le_length hrounds, List.take_append_of_le_length hrounds,
                List.append_assoc]
              rfl
            have htarget : T ++ [x] ++ (xs ++ [x]).take rounds =
                T ++ (x :: xs).take (rounds + 1) := by
              rw [List.take_append_of_le_length hrounds, List.append_assoc]
              rfl
            rw [hsource, htarget, eq₃, Scene.put_comm _ _ hne.symm, Scene.put_put,
              Scene.put_put] at hrest
            exact hrest

/-- The target ends with what the source holds, if it was not too long to be emptied. -/
theorem wp_duplicateWalk (hne : source ≠ target) (hfrail : ¬ (p.hazard faults).frail source)
    (t : Token) (n : Tally) (w : World V) :
    (duplicateWalk (p.base V source).toQueueStore (p.base V target).toQueueStore t).wp
      faults.regime (fun r _ w' => Attained (p.hazard faults) target
        (((p.view V).scene w).put target ((((p.view V).scene w).contents target).drop roundLimit ++
          ((p.view V).scene w).contents source)) ((p.view V).scene w') r) n w := by
  unfold duplicateWalk
  rw [Walk.wp_bind]
  refine Walk.wp_mono (wp_discardItems t roundLimit n w) ?_
  rintro r n₁ w₁ hdiscarded
  cases hdiscarded with
  | failed cause frail => exact .failed cause frail
  | done eq₁ =>
    rw [Walk.andThen_ok, Walk.wp_bind, Walk.wp_lift]
    refine Action.wp_mono (carries .count t source w₁ trivial) ?_
    rintro r w₂ ⟨-, hcount⟩
    cases hcount with
    | failed cause frail eq => exact absurd frail hfrail
    | done k hk eq₂ =>
      have hk : k = (((p.view V).scene w₁).contents source).length := hk
      have hsame : (p.view V).scene w₂ = (p.view V).scene w₁ :=
        eq₂.trans (Scene.put_contents _ source)
      rw [hk, Walk.andThen_ok]
      refine Walk.wp_mono (wp_rotateItems hne hfrail t _ n₁ w₂ (congrArg (·.contents source) hsame)
        rfl (Nat.le_refl _)) ?_
      rintro r _ w' hrotated
      rw [List.drop_length, List.nil_append, List.take_length, hsame, Scene.put_contents, eq₁,
        Scene.put_put, Scene.contents_put_self, Scene.contents_put_of_ne _ _ hne] at hrotated
      exact hrotated

end Walks

/-! ## Recoveries -/

/-- The outcomes of a recovery that moves the secondary's items to the primary. -/
def moving : Scene.Outcomes (List V) Report :=
  fun s r s' => Moved .secondary .primary s s' (r.map fun _ => ())

/-- The primary holds what the secondary holds, if it was not too long to be emptied. -/
def duplicated (s : Scene (List V)) : Scene (List V) :=
  s.put .primary ((s.contents .primary).drop Converge.roundLimit ++ s.contents .secondary)

/-- The outcomes of a recovery that duplicates the secondary in the primary. -/
def duplicating (z : Hazard (List V)) : Scene.Outcomes (List V) Report :=
  fun s r s' => Attained z .primary (duplicated s) s' ((r.map fun _ => ()).mapError Halt.failed)

/-- The engine of two queues of which the secondary stands in for the primary. -/
def fallbackEngine (V : Type) (p : QueuePair) (name : String) (limit : Nat) :
    Engine V (QueueStore V) :=
  .root p.core name (p.base V .primary).toQueueStore (p.base V .secondary).toQueueStore
    (Converge.queueCopy limit)

/-- The engine of two queues that hold the same. -/
def replicaEngine (V : Type) (p : QueuePair) (name : String) (limit : Nat) :
    Engine V (BlockingQueue V) :=
  .root p.core name (p.base V .primary) (p.base V .secondary)
    ((Converge.queueDuplicate limit).contramap BlockingQueue.toQueueStore)

theorem mends_moving (name : String) (limit : Nat) (hspared : faults.Spares (.queue p.secondary)) :
    (p.view V).Mends faults.regime (p.fallbackEngine V name limit) moving where
  core := rfl
  recovers w _ := by
    have hfrail : ¬ (p.hazard faults).frail .secondary := fun h => h hspared
    change Action.wp _ (pure () >>= fun _ => drive _ _ _ _) _ w
    rw [Action.wp_bind, Action.wp_pure, Action.andThen_ok]
    refine View.wp_drive (v := p.view V)
      (Q := fun r s' => Moved .secondary .primary ((p.view V).scene w) s' r) _ _ trivial
      fun w₁ _ hsame => ?_
    rw [← hsame]
    exact wp_moveItems (by decide) hfrail none _ {} w₁

theorem mends_duplicating (name : String) (limit : Nat)
    (hspared : faults.Spares (.queue p.secondary)) :
    (p.view V).Mends faults.regime (p.replicaEngine V name limit)
      (duplicating (p.hazard faults)) where
  core := rfl
  recovers w _ := by
    have hfrail : ¬ (p.hazard faults).frail .secondary := fun h => h hspared
    change Action.wp _ (pure () >>= fun _ => drive _ _ _ _) _ w
    rw [Action.wp_bind, Action.wp_pure, Action.andThen_ok]
    refine View.wp_drive (v := p.view V) (Q := fun r s' => Attained (p.hazard faults) .primary
      (duplicated ((p.view V).scene w)) s' (r.mapError Halt.failed)) _ _ trivial
      fun w₁ _ hsame => ?_
    refine Walk.wp_mono (wp_duplicateWalk (by decide) hfrail none {} w₁) ?_
    rintro r _ w' hattained
    rw [hsame] at hattained
    rcases r with (cause | n) | ⟨⟩
    · exact ⟨trivial, .error cause, rfl, hattained⟩
    · cases hattained
    · exact ⟨trivial, .ok (), rfl, hattained⟩

/-! ## Operations of the engines -/

theorem serves_replica (name : String) (limit : Nat) (hspared : faults.Spares (.queue p.secondary))
    (op : QueueOp V) (t : Token) :
    (p.view V).Serves faults.regime (p.replicaEngine V name limit) (fun q => op.on q t)
      (Scene.asking (p.hazard faults) op.effect .primary) op.effect := by
  refine View.Carries.serves (fun side => ?_) fun h => h hspared
  cases side
  · exact carries op t .primary
  · exact carries op t .secondary

/-- A pair whose primary is out serves whatever its secondary does. -/
theorem serves_out (name : String) (limit : Nat) (hspared : faults.Spares (.queue p.secondary))
    (hfells : faults.Fells (.queue p.primary)) (op : QueueOp V) (t : Token) :
    (p.view V).Serves faults.regime (p.replicaEngine V name limit) (fun q => op.on q t)
      (Scene.refusing .primary) op.effect where
  primary w _ := by
    refine Action.wp_mono (wp_felled hfells op t w) ?_
    rintro r w' ⟨hw', cause, rfl, hblame⟩
    exact ⟨hw', .error cause, rfl, cause, rfl, hblame⟩
  secondary := (serves_replica name limit hspared op t).secondary

end QueuePair

/-! ## A new pair -/

/-- Two queues with the same items and a new health record. -/
def World.twinQueues (items : List V) : World V :=
  let base : Base (List V) := { content := items }
  (World.newEngine { queues := ((∅ : Shelf (Base (List V))).put 0 base).put 1 base } "pair" 16).2

/-- The queues of `World.twinQueues`. -/
def QueuePair.twins : QueuePair :=
  { core := 0, primary := 0, secondary := 1, ne := by decide }

end TwinStore
