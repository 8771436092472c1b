import Mathlib.Algebra.Order.Group.Multiset
import TwinStore.Proofs.Exchanges
import TwinStore.Proofs.PairedQueues

/-!
# Where the items of a fallback queue are

The recovery of a fallback queue takes an item off the secondary before it puts it into the primary.
If the primary fails in between, the item is gone; and as the failed recovery is what the caller is
told of, so is an item that the caller's own dequeue has taken off the primary. Nothing else is
lost, and nothing is duplicated: whatever has been accepted has been returned, is in one of the two
queues, or went missing in one of these two ways (`fallback_queue_balances`).
-/

namespace TwinStore

variable {V : Type}

/-! ## Operations of a queue that nobody waits for -/

/-- Operations of a queue, except to wait for an item. -/
inductive ItemOp (V : Type) where
  | enqueue (item : V)
  | dequeue
  | count

namespace ItemOp

/-- The operation of a base queue. -/
def call : ItemOp V → QueueOp V
  | .enqueue v => .enqueue v
  | .dequeue => .dequeue
  | .count => .count

/-- What an operation answers. -/
@[reducible] def Answer (op : ItemOp V) : Type := op.call.Answer

/-- Carry out an operation on a queue. -/
def on (q : QueueStore V) (t : Token) : (op : ItemOp V) → Action V op.Answer
  | .enqueue v => q.enqueue v t
  | .dequeue => q.dequeue t
  | .count => q.count t

/-- The items that an operation brings in. -/
def accepted : ItemOp V → List V
  | .enqueue v => [v]
  | _ => []

/-- The items that a caller is given. -/
def returned : (op : ItemOp V) → Except Halt op.Answer → List V
  | .dequeue, .ok item => Option.toList item
  | _, _ => []

/-- The items that an operation takes off a queue. -/
def taken : ItemOp V → List V → List V
  | .dequeue, c => c.head?.toList
  | _, _ => []

/-- What is in a queue after an operation, and what it has taken off, was there or came in. -/
theorem taken_add_apply (op : ItemOp V) (c : List V) :
    ((op.taken c : List V) : Multiset V) + ((op.call.apply c).2 : List V) =
      (op.accepted : List V) + (c : List V) := by
  cases op with
  | enqueue v =>
    change (([] : List V) : Multiset V) + ((c ++ [v] : List V) : Multiset V) = _
    rw [← Multiset.coe_add, Multiset.coe_nil, zero_add, add_comm]
    rfl
  | dequeue =>
    rw [Multiset.coe_add]
    cases c <;> rfl
  | count => rfl

/-- What is taken off is returned by an operation that is answered. -/
theorem returned_of_ok {op : ItemOp V} {c : List V} {a : op.Answer}
    (ha : op.call.effect.answers c a) : op.returned (.ok a) = op.taken c := by
  cases op with
  | dequeue => exact congrArg Option.toList ha
  | _ => rfl

theorem returned_error (op : ItemOp V) (halt : Halt) : op.returned (.error halt) = [] := by
  cases op <;> rfl

end ItemOp

/-! ## What goes missing -/

/-- What a caller of a fallback queue asked and was told. -/
abbrev ItemExchange (V : Type) := Exchange (fun turn : Turn (ItemOp V) => turn.op.Answer) (List V)

namespace ItemExchange

/-- The last item that has left the secondary. -/
def lastMoved (x : ItemExchange V) : List V :=
  let before := x.before.contents .secondary
  let after := x.after.contents .secondary
  ((before.take (before.length - after.length)).getLast?).toList

/-- The items that went missing: none if the caller was answered. If a recovery failed, what the
caller's own operation had taken off the primary, and the item that the recovery had taken off the
secondary but could not put into the primary. -/
def lost (x : ItemExchange V) : List V :=
  match x.result with
  | .ok _ => []
  | .error _ => x.turn.op.taken (x.before.contents .primary) ++ x.lastMoved

/-- The items that the caller was given. -/
def returned (x : ItemExchange V) : List V := x.turn.op.returned x.result

end ItemExchange

namespace QueuePair

variable {z : Hazard (List V)}

/-- All items of a pair. -/
def items (s : Scene (List V)) : Multiset V :=
  (s.contents .primary : Multiset V) + (s.contents .secondary : Multiset V)

/-- What an operation of a fallback queue does where the secondary never fails. -/
def Serves (z : Hazard (List V)) (turn : Turn (ItemOp V)) :
    Scene (List V) → Except Halt turn.op.Answer → Scene (List V) → Prop :=
  Scene.Served moving (Scene.asking z turn.op.call.effect .primary) turn.op.call.effect
    fun _ => .recover

variable {s s' : Scene (List V)}

/-- A recovery that ends well moves items and loses none. -/
theorem Moved.items_of_ok (h : Moved .secondary .primary s s' (.ok ())) : items s' = items s := by
  cases h with
  | done m left moved =>
    have hsplit : ((s.contents .secondary).take m : Multiset V) + ((s.contents .secondary).drop m) =
        (s.contents .secondary : List V) := by
      rw [Multiset.coe_add, List.take_append_drop]
    rw [items, left, moved, ← Multiset.coe_add, items, ← hsplit]
    ac_rfl

/-- A recovery that fails loses the last item that it has taken off the secondary. -/
theorem Moved.items_of_error {x : ItemExchange V} {cause : StoreError}
    (h : Moved .secondary .primary s s' (.error cause))
    (hbefore : x.before.contents .secondary = s.contents .secondary) (hafter : x.after = s') :
    items s' + (x.lastMoved : Multiset V) = items s := by
  cases h with
  | dropped _ m lt left moved =>
    have hleft : (s.contents .secondary).length -
        ((s.contents .secondary).drop (m + 1)).length = m + 1 := by
      rw [List.length_drop]
      omega
    have hlast : x.lastMoved = [(s.contents .secondary)[m]] := by
      unfold ItemExchange.lastMoved
      dsimp only
      rw [hbefore, hafter, left, hleft, List.getLast?_take, if_neg (Nat.succ_ne_zero m),
        Nat.add_sub_cancel, List.getElem?_eq_getElem lt]
      rfl
    have hsplit : ((s.contents .secondary).take m : Multiset V) + ([(s.contents .secondary)[m]] :
        List V) + ((s.contents .secondary).drop (m + 1)) = (s.contents .secondary : List V) := by
      rw [Multiset.coe_add, Multiset.coe_add, ← List.take_succ_eq_append_getElem lt,
        List.take_append_drop]
    rw [items, left, moved, hlast, ← Multiset.coe_add, items, ← hsplit]
    ac_rfl

/-- What the primary holds after an operation, with what was taken off it. -/
theorem taken_add_items_put (op : ItemOp V) (s : Scene (List V)) :
    (op.taken (s.contents .primary) : Multiset V) +
        items (s.put .primary (op.call.apply (s.contents .primary)).2) =
      (op.accepted : Multiset V) + items s := by
  rw [items, Scene.contents_put_self, Scene.secondary_put_primary, ← add_assoc, op.taken_add_apply,
    items, add_assoc]

/-- What the secondary holds after an operation, with what was taken off it. -/
theorem taken_add_items_passOn (op : ItemOp V) (s : Scene (List V)) :
    (op.taken (s.contents .secondary) : Multiset V) + items (s.passOn op.call.effect) =
      (op.accepted : Multiset V) + items s := by
  rw [items, Scene.primary_passOn, Scene.secondary_passOn, add_left_comm]
  change _ + ((op.taken _ : Multiset V) + ((op.call.apply (s.contents .secondary)).2 : List V)) = _
  rw [op.taken_add_apply, items, add_left_comm]

/-- The account of an exchange whose caller was answered. -/
theorem balance_of_ok {x : ItemExchange V} {a : x.turn.op.Answer} {c : List V}
    (hr : x.result = .ok a) (ha : x.turn.op.call.effect.answers c a)
    (h : (x.turn.op.taken c : Multiset V) + items x.after =
      (x.turn.op.accepted : Multiset V) + items x.before) :
    (x.turn.op.accepted : Multiset V) + items x.before =
      (x.returned : Multiset V) + items x.after + (x.lost : Multiset V) := by
  have hlost : x.lost = [] := by
    unfold ItemExchange.lost
    rw [hr]
  have hreturned : x.returned = x.turn.op.taken c := by
    unfold ItemExchange.returned
    rw [hr]
    exact ItemOp.returned_of_ok ha
  rw [hlost, hreturned, Multiset.coe_nil, add_zero, h]

/-- An exchange keeps account of every item. -/
theorem Serves.balances {x : ItemExchange V} (h : Serves z x.turn x.before x.result x.after) :
    (x.turn.op.accepted : Multiset V) + items x.before =
      (x.returned : Multiset V) + items x.after + (x.lost : Multiset V) := by
  unfold Serves at h
  generalize hr : x.result = r at h
  generalize hafter : x.after = s' at h
  cases h with
  | diverted cause s₁ b failed answers =>
    cases failed with
    | failed _ frail eq =>
      subst eq
      rw [← hafter]
      refine balance_of_ok hr answers ?_
      rw [hafter]
      exact taken_add_items_passOn x.turn.op ((x.before.blame .primary).turn .down)
  | recovered a s₁ r _ done _ mended =>
    cases done with
    | done _ answers eq =>
      have hput : (x.turn.op.taken (x.before.contents .primary) : Multiset V) + items s₁ =
          (x.turn.op.accepted : Multiset V) + items x.before := by
        rw [eq]
        exact taken_add_items_put x.turn.op x.before
      rw [← hafter]
      cases mended with
      | idle _ =>
        refine balance_of_ok hr answers ?_
        rw [hafter]
        exact hput
      | done report s₂ _ run =>
        have hmoved : items s₂ = items s₁ := Moved.items_of_ok run
        have hturn : items (s₂.turn .up) = items s₂ := rfl
        refine balance_of_ok hr answers ?_
        rw [hafter, hturn, hmoved]
        exact hput
      | failed halt _ _ run =>
        have hsecondary : x.before.contents .secondary = s₁.contents .secondary := by
          rw [eq, Scene.secondary_put_primary]
        have hmoved := Moved.items_of_error run hsecondary hafter
        have hlost : x.lost = x.turn.op.taken (x.before.contents .primary) ++ x.lastMoved := by
          unfold ItemExchange.lost
          rw [hr]
          rfl
        have hreturned : x.returned = [] := by
          unfold ItemExchange.returned
          rw [hr]
          exact x.turn.op.returned_error _
        rw [hlost, hreturned, ← hput, ← hmoved, hafter, ← Multiset.coe_add, Multiset.coe_nil]
        ac_rfl
  | stopped a _ _ next => cases next
  | passedOn a s₁ r _ _ next _ => cases next

/-! ## Runs of turns -/

section Runs

variable {p : QueuePair} {faults : Faults V} {w : World V}

/-- An operation of a fallback queue does what it can do where the secondary never fails. -/
theorem wp_on_fallback (name : String) (limit : Nat) (hspared : faults.Spares (.queue p.secondary))
    (turn : Turn (ItemOp V)) :
    (turn.op.on (p.fallbackEngine V name limit).fallbackQueue turn.token).wp faults.regime
      (fun r w' => (p.view V).Fit w' ∧
        Serves (p.hazard faults) turn ((p.view V).scene w) r ((p.view V).scene w')) w := by
  have hserves : (p.view V).Serves faults.regime (p.fallbackEngine V name limit)
      (fun q => turn.op.on q turn.token)
      (Scene.asking (p.hazard faults) turn.op.call.effect .primary) turn.op.call.effect := by
    refine View.Carries.serves (fun side => ?_) fun h => h hspared
    obtain ⟨op, token, time⟩ := turn
    cases side with
    | primary => cases op <;> exact carries _ token .primary
    | secondary => cases op <;> exact carries _ token .secondary
  have hserved := View.wp_fallback (mends_moving name limit hspared) hserves (w := w) trivial
  obtain ⟨op, token, time⟩ := turn
  cases op <;> exact hserved

variable (p faults) (name : String) (limit : Nat)

/-- Serve one caller of a fallback queue. -/
def serveFallback (turn : Turn (ItemOp V)) (w : World V) :
    Except Halt turn.op.Answer × World V :=
  faults.regime.act (w.atTime turn.time)
    (turn.op.on (p.fallbackEngine V name limit).fallbackQueue turn.token)

end Runs

/-- A chain of exchanges keeps account of every item. -/
theorem balances_of_chain {xs : List (ItemExchange V)}
    (h : Exchange.Chain (fun turn => Serves z turn) s xs s') :
    (xs.flatMap fun x => x.turn.op.accepted : List V) + items s =
      (xs.flatMap ItemExchange.returned : Multiset V) + items s' +
        (xs.flatMap ItemExchange.lost : List V) := by
  induction h with
  | nil s => exact (add_zero _).symm
  | cons step rest ih =>
    rename_i x xs s'
    have hx := Serves.balances step
    simp only [List.flatMap_cons, ← Multiset.coe_add]
    calc _ = (x.turn.op.accepted : Multiset V) + items x.before +
          (xs.flatMap fun x => x.turn.op.accepted : List V) := by ac_rfl
      _ = (ItemExchange.returned x : Multiset V) + (ItemExchange.lost x : List V) +
          ((xs.flatMap fun x => x.turn.op.accepted : List V) + items x.after) := by
        rw [hx]
        ac_rfl
      _ = _ := by
        rw [ih]
        ac_rfl

end QueuePair

/-- **A fallback queue keeps account of every item**, over any run of turns and under any faults of
its primary: the items that have been accepted are those that callers were given, those in the two
queues, and those that a failed recovery lost. A caller who is answered has lost nothing. -/
theorem fallback_queue_balances (p : QueuePair) (faults : Faults V) (name : String) (limit : Nat)
    (w : World V) (turns : List (Turn (ItemOp V))) (hspared : faults.Spares (.queue p.secondary))
    (hempty : ∀ side, ((p.view V).scene w).contents side = []) :
    let serve := p.serveFallback faults name limit
    let xs : List (ItemExchange V) := exchanges (p.view V) serve w turns
    let last := (p.view V).scene (worldAfter serve w turns)
    (turns.flatMap fun turn => turn.op.accepted : Multiset V) =
      (xs.flatMap ItemExchange.returned : Multiset V) + (last.contents .primary : List V) +
        (last.contents .secondary : List V) + (xs.flatMap ItemExchange.lost : List V) := by
  intro serve xs last
  have hserve : ∀ turn ∈ turns, ∀ w, (p.view V).Fit w → (p.view V).Fit (serve turn w).2 ∧
      QueuePair.Serves (p.hazard faults) turn ((p.view V).scene w) (serve turn w).1
        ((p.view V).scene (serve turn w).2) := fun turn _ w _ =>
    QueuePair.wp_on_fallback name limit hspared turn
  obtain ⟨-, hchain⟩ := exchanges_chain hserve (w := w) trivial
  have hbalance := QueuePair.balances_of_chain hchain
  have hstart : QueuePair.items ((p.view V).scene w) = 0 := by
    rw [QueuePair.items, hempty, hempty]
    rfl
  have hmap : xs.map Exchange.turn = turns := map_turn_exchanges w turns
  have hturns : (xs.flatMap fun x => x.turn.op.accepted) =
      turns.flatMap fun turn => turn.op.accepted := by
    rw [← hmap, List.flatMap_map]
  rw [hstart, add_zero, hturns, QueuePair.items] at hbalance
  rw [hbalance]
  ac_rfl

/-- Two items are taken in while the primary is out. A recovery loses the first, another brings the
second to the primary, behind a third. -/
theorem fallback_queue_balances_after_loss :
    let serve := QueuePair.twins.serveFallback
      ((Faults.hitting [0, 2, 7]).within (.queue 0) : Faults Nat) "pair" 1000
    let turns : List (Turn (ItemOp Nat)) :=
      [{ op := .enqueue 1 }, { op := .enqueue 2 }, { op := .dequeue }, { op := .enqueue 3 },
        { op := .dequeue }]
    let xs : List (ItemExchange Nat) :=
      exchanges (QueuePair.twins.view Nat) serve (World.twinQueues []) turns
    let last := (QueuePair.twins.view Nat).scene (worldAfter serve (World.twinQueues []) turns)
    xs.flatMap ItemExchange.lost = [1] ∧ xs.flatMap ItemExchange.returned = [3] ∧
      (([1, 2, 3] : List Nat) : Multiset Nat) =
        (xs.flatMap ItemExchange.returned : Multiset Nat) + (last.contents .primary : List Nat) +
          (last.contents .secondary : List Nat) + (xs.flatMap ItemExchange.lost : List Nat) := by
  refine ⟨by decide +kernel, by decide +kernel, ?_⟩
  exact fallback_queue_balances QueuePair.twins ((Faults.hitting [0, 2, 7]).within (.queue 0))
    "pair" 1000 (World.twinQueues []) [{ op := .enqueue 1 }, { op := .enqueue 2 },
      { op := .dequeue }, { op := .enqueue 3 }, { op := .dequeue }]
    (Faults.spares_within _ (by decide))
    fun side => by cases side <;> rfl

/-- **A failed recovery loses items**: the one on its way to the primary, and the one that the
caller itself has taken off the primary. -/
theorem fallback_queue_loses_items :
    let faults : List Nat → Faults Nat := fun places => (Faults.hitting places).within (.queue 0)
    let told (places : List Nat) (turns : List (Turn (ItemOp Nat))) : List (ItemExchange Nat) :=
      exchanges (QueuePair.twins.view Nat)
        (QueuePair.twins.serveFallback (faults places) "pair" 1000)
        (World.twinQueues []) turns
    let last (places : List Nat) (turns : List (Turn (ItemOp Nat))) :=
      (QueuePair.twins.view Nat).scene (worldAfter
        (QueuePair.twins.serveFallback (faults places) "pair" 1000) (World.twinQueues []) turns)
    let balanced (places : List Nat) (turns : List (Turn (ItemOp Nat))) :=
      (turns.flatMap fun turn => turn.op.accepted : Multiset Nat) =
        ((told places turns).flatMap ItemExchange.returned : Multiset Nat) +
          ((last places turns).contents .primary : List Nat) +
          ((last places turns).contents .secondary : List Nat)
    (∀ places, (faults places).Spares (.queue 1)) ∧
    ¬ balanced [0, 5] [{ op := .enqueue 1 }, { op := .count }] ∧
    ¬ balanced [1, 6] [{ op := .enqueue 1 }, { op := .enqueue 2 }, { op := .dequeue }] := by
  refine ⟨fun places => Faults.spares_within _ (by decide), ?_, ?_⟩ <;> decide +kernel

end TwinStore
