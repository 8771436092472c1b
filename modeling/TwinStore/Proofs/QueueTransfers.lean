import Mathlib.Data.List.Rotate
import TwinStore.Converge.Items
import TwinStore.Program.Backend
import TwinStore.Proofs.Stops

/-!
# Bringing a queue to a queue

A run between two base queues takes items off one and puts them into another, or back, and holds
each of them in between. What the queues hold and which calls have been made is a `Transfer.State`;
a call is recorded before it is carried out, so that the last call recorded is the pending one
wherever a run stops.

A run that nothing stops moves or duplicates all items in their order, in a number of calls that the
lengths determine (`transfers_completely`). One that stops early loses nothing but what the pending
call was to put where the item belongs (`stopped_transfer_keeps_items`): that item is gone, since
nobody else has it (`cut_transfer_drops_item`).
-/

namespace TwinStore

open Converge

variable {V : Type}

/-! ## What calls bring -/

/-- What a call is to put into a queue. -/
def Call.brings (i : Nat) : Call V → List V
  | .queue j (.enqueue v) => if j = i then [v] else []
  | _ => []

@[simp] theorem Call.brings_enqueue_self (i : Nat) (v : V) :
    Call.brings i (.queue i (.enqueue v)) = [v] :=
  if_pos rfl

theorem Call.brings_enqueue_of_ne {i j : Nat} (h : j ≠ i) (v : V) :
    Call.brings i (.queue j (.enqueue v)) = [] :=
  if_neg h

@[simp] theorem Call.brings_dequeue (i j : Nat) :
    Call.brings i (.queue j .dequeue : Call V) = [] :=
  rfl

@[simp] theorem Call.brings_count (i j : Nat) : Call.brings i (.queue j .count : Call V) = [] :=
  rfl

/-- What the last of some calls is to put into a queue. -/
def lastBrought (i : Nat) (calls : List (Call V)) : List V :=
  (calls.getLast?.map (Call.brings i)).getD []

@[simp] theorem lastBrought_nil (i : Nat) : lastBrought i ([] : List (Call V)) = [] := rfl

namespace World

/-- What a base queue holds. -/
def items (w : World V) (i : Nat) : List V :=
  (w.queues.nth i).content

/-- The calls that have been made after the first so many. -/
def callsAfter (w : World V) (n : Nat) : List (Call V) :=
  (w.visits.drop n).map (·.call)

variable {w w' : World V} {i j : Nat}

theorem items_congr (h : w'.stores = w.stores) : w'.items = w.items := by
  simp only [stores, Prod.mk.injEq] at h
  funext i
  simp only [items, h]

theorem callsAfter_visit (v : Visit V) {n : Nat} (h : n ≤ w.visits.length) :
    (w.visit v).callsAfter n = w.callsAfter n ++ [v.call] := by
  simp [callsAfter, visit, List.drop_append_of_le_length h]

theorem items_perform_self (op : QueueOp V) :
    (w.perform (.queue i op)).2.items i = (op.apply (w.items i)).2 := by
  simp [items, perform]

theorem items_perform_of_ne (op : QueueOp V) (h : i ≠ j) :
    (w.perform (.queue i op)).2.items j = w.items j := by
  simp [items, perform, Shelf.nth_put_of_ne _ _ h]

end World

/-- A base queue that nobody waits for. -/
abbrev queueStore (V : Type) (i : Nat) : QueueStore V :=
  (Backend.queue i).toQueueStore

/-! ## Two queues -/

/-- Two base queues, the one to be brought to the other, from when so many calls had been made. -/
structure Transfer where
  source : Nat
  target : Nat
  ne : source ≠ target
  start : Nat

namespace Transfer

/-- What source and target hold, and the calls that have been made. -/
structure State (V : Type) where
  source : List V
  target : List V
  calls : List (Call V) := []

/-- A call is recorded. -/
def State.noting (s : State V) (c : Call V) : State V :=
  { s with calls := s.calls ++ [c] }

section State

variable (s : State V) (c : Call V)

@[simp] theorem State.noting_source : (s.noting c).source = s.source := rfl

@[simp] theorem State.noting_target : (s.noting c).target = s.target := rfl

@[simp] theorem State.length_calls_noting : (s.noting c).calls.length = s.calls.length + 1 :=
  List.length_append

@[simp] theorem State.lastBrought_noting (i : Nat) :
    lastBrought i (s.noting c).calls = c.brings i := by
  simp [lastBrought, noting]

end State

/-- The world is in a state. -/
structure At (p : Transfer) (s : State V) (w : World V) : Prop where
  source : w.items p.source = s.source
  target : w.items p.target = s.target
  started : p.start ≤ w.visits.length
  calls : w.callsAfter p.start = s.calls

/-- The ground of two queues. -/
def ground (p : Transfer) (stops : Stops V) : Ground V (State V) where
  stops := stops
  At := p.At
  noting := State.noting
  at_visit v hw :=
    { source := hw.source
      target := hw.target
      started := hw.started.trans (by simp [World.visit])
      calls := (World.callsAfter_visit v hw.started).trans (congrArg (· ++ [v.call]) hw.calls) }
  at_congr hstores hvisits hw :=
    have hsame := congrFun (World.items_congr hstores)
    { source := (hsame _).trans hw.source
      target := (hsame _).trans hw.target
      started := hvisits ▸ hw.started
      calls := by
        rw [← hw.calls, World.callsAfter, hvisits]
        rfl }

variable (p : Transfer) {stops : Stops V} {n : Tally} {s : State V} (t : Token)

/-- A call to the source does its operation there, and is noted. -/
theorem does_onSource (op : QueueOp V) :
    (p.ground stops).Does (Backend.onQueue p.source op t) s
      (fun a s' => a = (op.apply s.source).1 ∧
        s' = { s.noting (.queue p.source op) with source := (op.apply s.source).2 })
      (· = s.noting (.queue p.source op)) := by
  refine Ground.does_wholeCall t (fun _ _ _ => rfl) fun w hw => ?_
  refine ⟨_, ⟨?_, rfl⟩, ?_⟩
  · exact congrArg (fun c => (op.apply c).1) hw.source
  · exact
      { source := (World.items_perform_self op).trans (congrArg (fun c => (op.apply c).2) hw.source)
        target := (World.items_perform_of_ne op p.ne).trans hw.target
        started := hw.started
        calls := hw.calls }

/-- A call to the target does its operation there, and is noted. -/
theorem does_onTarget (op : QueueOp V) :
    (p.ground stops).Does (Backend.onQueue p.target op t) s
      (fun a s' => a = (op.apply s.target).1 ∧
        s' = { s.noting (.queue p.target op) with target := (op.apply s.target).2 })
      (· = s.noting (.queue p.target op)) := by
  refine Ground.does_wholeCall t (fun _ _ _ => rfl) fun w hw => ?_
  refine ⟨_, ⟨?_, rfl⟩, ?_⟩
  · exact congrArg (fun c => (op.apply c).1) hw.target
  · exact
      { source := (World.items_perform_of_ne op p.ne.symm).trans hw.source
        target := (World.items_perform_self op).trans (congrArg (fun c => (op.apply c).2) hw.target)
        started := hw.started
        calls := hw.calls }

/-! ### Moving -/

/-- Target and source hold together what they held, but for what the pending call was to put into
the target. -/
def Kept (S T : List V) (s' : State V) : Prop :=
  s'.target ++ lastBrought p.target s'.calls ++ s'.source = T ++ S

/-- Items move one after the other; if there are enough rounds for them, all do. -/
theorem takes_moveItems (rounds : Nat) :
    (p.ground stops).Takes (moveItems (queueStore V p.source) (queueStore V p.target) t rounds) s n
      (fun _ n' s' => s'.target ++ s'.source = s.target ++ s.source ∧
        (s.source.length < rounds → s'.source = [] ∧
          n' = n + { written := s.source.length } ∧
          s'.calls.length = s.calls.length + (3 * s.source.length + 1)))
      (p.Kept s.source s.target) := by
  induction rounds generalizing n s with
  | zero => exact Ground.takes_pure ⟨rfl, nofun⟩
  | succ rounds ih =>
    obtain ⟨S, T, calls⟩ := s
    refine ((p.does_onSource t .count).leaving ?_).then fun k s₁ h => ?_
    · rintro _ rfl
      simp [Kept]
    obtain ⟨rfl, rfl⟩ := h
    cases S with
    | nil => exact Ground.takes_pure ⟨rfl, fun _ => ⟨rfl, rfl, by simp⟩⟩
    | cons x xs =>
      refine ((p.does_onSource t .dequeue).leaving ?_).then fun head s₂ h => ?_
      · rintro _ rfl
        simp [Kept, QueueOp.apply]
      obtain ⟨rfl, rfl⟩ := h
      refine ((p.does_onTarget t (.enqueue x)).leaving ?_).then fun _ s₃ h => ?_
      · rintro _ rfl
        simp [Kept, QueueOp.apply]
      obtain ⟨-, rfl⟩ := h
      refine Ground.takes_wrote_then (ih.mono (fun _ n' s' h => ?_) fun s' h => ?_)
      · obtain ⟨hkept, hall⟩ := h
        refine ⟨?_, fun hrounds => ?_⟩
        · rw [hkept]
          simp [QueueOp.apply]
        · obtain ⟨hempty, rfl, hcalls⟩ := hall (Nat.lt_of_succ_lt_succ hrounds)
          refine ⟨hempty, ?_, ?_⟩
          · rw [Tally.add_assoc]
            ext <;> simp [QueueOp.apply, Nat.add_comm]
          · have hcount : s'.calls.length = calls.length + 1 + 1 + 1 + (3 * xs.length + 1) := by
              simpa [QueueOp.apply] using hcalls
            change s'.calls.length = calls.length + (3 * (xs.length + 1) + 1)
            omega
      · rw [Kept, h]
        simp [QueueOp.apply]

/-! ### Duplicating -/

/-- The source is rotated, but for what the pending call was to put back. -/
def Rotated (S : List V) (s' : State V) : Prop :=
  (s'.source ++ lastBrought p.source s'.calls) ~r S

/-- Items of the target go one after the other; if there are enough rounds for them, all do. No call
concerns the source. -/
theorem takes_discardItems (rounds : Nat) :
    (p.ground stops).Takes (discardItems (queueStore V p.target) t rounds) s n
      (fun _ n' s' => s'.source = s.source ∧
        (s.target.length < rounds → s'.target = [] ∧
          n' = n + { removed := s.target.length } ∧
          s'.calls.length = s.calls.length + (s.target.length + 1)))
      (p.Rotated s.source) := by
  induction rounds generalizing n s with
  | zero => exact Ground.takes_pure ⟨rfl, nofun⟩
  | succ rounds ih =>
    obtain ⟨S, T, calls⟩ := s
    refine ((p.does_onTarget t .dequeue).leaving ?_).then fun head s₁ h => ?_
    · rintro _ rfl
      simp [Rotated, List.IsRotated.refl]
    obtain ⟨rfl, rfl⟩ := h
    cases T with
    | nil => exact Ground.takes_pure ⟨rfl, fun _ => ⟨rfl, rfl, by simp⟩⟩
    | cons x xs =>
      refine Ground.takes_removed_then (ih.mono (fun _ n' s' h => ?_) fun s' h => h)
      obtain ⟨hsource, hall⟩ := h
      refine ⟨hsource, fun hrounds => ?_⟩
      obtain ⟨hempty, rfl, hcalls⟩ := hall (Nat.lt_of_succ_lt_succ hrounds)
      refine ⟨hempty, ?_, ?_⟩
      · rw [Tally.add_assoc]
        ext <;> simp [QueueOp.apply, Nat.add_comm]
      · have hcount : s'.calls.length = calls.length + 1 + (xs.length + 1) := by
          simpa [QueueOp.apply] using hcalls
        change s'.calls.length = calls.length + (xs.length + 1 + 1)
        omega

/-- The source is rotated by as many items as there are rounds, and the target gets them. -/
theorem takes_rotateItems {rounds : Nat} (hrounds : rounds ≤ s.source.length) :
    (p.ground stops).Takes
      (rotateItems (queueStore V p.source) (queueStore V p.target) t rounds) s n
      (fun _ n' s' => s'.source = s.source.rotate rounds ∧
        s'.target = s.target ++ s.source.take rounds ∧
        n' = n + { written := rounds } ∧
        s'.calls.length = s.calls.length + 3 * rounds)
      (p.Rotated s.source) := by
  induction rounds generalizing n s with
  | zero => exact Ground.takes_pure (by simp)
  | succ rounds ih =>
    obtain ⟨S, T, calls⟩ := s
    obtain ⟨x, xs, rfl⟩ := List.exists_cons_of_length_pos (Nat.zero_lt_of_lt hrounds)
    have hrounds : rounds ≤ xs.length := Nat.le_of_succ_le_succ hrounds
    have hround : (xs ++ [x]) ~r (x :: xs) := List.isRotated_append
    refine ((p.does_onSource t .dequeue).leaving ?_).then fun head s₁ h => ?_
    · rintro _ rfl
      simp [Rotated, List.IsRotated.refl]
    obtain ⟨rfl, rfl⟩ := h
    refine ((p.does_onSource t (.enqueue x)).leaving ?_).then fun _ s₂ h => ?_
    · rintro _ rfl
      simpa [Rotated, QueueOp.apply] using hround
    obtain ⟨-, rfl⟩ := h
    refine ((p.does_onTarget t (.enqueue x)).leaving ?_).then fun _ s₃ h => ?_
    · rintro _ rfl
      simpa [Rotated, QueueOp.apply, Call.brings_enqueue_of_ne p.ne.symm] using hround
    obtain ⟨-, rfl⟩ := h
    refine Ground.takes_wrote_then ((ih ?_).mono (fun _ n' s' h => ?_) fun s' h => ?_)
    · simpa [QueueOp.apply] using Nat.le_succ_of_le hrounds
    · obtain ⟨hsource, htarget, rfl, hcalls⟩ := h
      refine ⟨hsource.trans (List.rotate_cons_succ xs x rounds).symm, ?_, ?_, ?_⟩
      · -- The items that the source has got back are beyond those that are still to go round.
        rw [htarget]
        simp [QueueOp.apply, List.take_append_of_le_length hrounds]
      · rw [Tally.add_assoc]
        ext <;> simp [Nat.add_comm]
      · have hcount : s'.calls.length = calls.length + 1 + 1 + 1 + 3 * rounds := by
          simpa using hcalls
        change s'.calls.length = calls.length + 3 * (rounds + 1)
        omega
    · exact h.trans hround

/-- The target becomes what the source is, which goes round once. -/
theorem takes_duplicateWalk :
    (p.ground stops).Takes (duplicateWalk (queueStore V p.source) (queueStore V p.target) t) s {}
      (fun _ n' s' => s'.source = s.source ∧
        (s.target.length < roundLimit → s'.target = s.source ∧
          n' = { written := s.source.length, removed := s.target.length } ∧
          s'.calls.length = s.calls.length + (s.target.length + 2 + 3 * s.source.length)))
      (p.Rotated s.source) := by
  refine (p.takes_discardItems t roundLimit).bind fun _ n₁ s₁ h => ?_
  obtain ⟨hsource, hall⟩ := h
  rw [← hsource]
  refine ((p.does_onSource t .count).leaving ?_).then fun k s₂ h => ?_
  · rintro _ rfl
    simp [Rotated, List.IsRotated.refl]
  obtain ⟨rfl, rfl⟩ := h
  refine (p.takes_rotateItems t (Nat.le_refl _)).mono (fun _ n' s' h => ?_) fun s' h => h
  obtain ⟨hsource', htarget', rfl, hcalls'⟩ := h
  refine ⟨hsource'.trans (List.rotate_length _), fun hrounds => ?_⟩
  obtain ⟨hempty, rfl, hcalls⟩ := hall hrounds
  refine ⟨?_, ?_, ?_⟩
  · rw [htarget']
    simp [hempty, QueueOp.apply]
  · ext <;> simp [QueueOp.apply]
  · have hcount : s'.calls.length = s₁.calls.length + 1 + 3 * s₁.source.length := by
      simpa [QueueOp.apply] using hcalls'
    rw [hcount, hcalls]
    omega

end Transfer

/-! ## Runs -/

/-- The run that moves the items of a queue to another. -/
def moveQueue (limit i j : Nat) (t : Token) : Action V Report :=
  (queueCopy limit).run (queueStore V i) (queueStore V j) t

/-- The run that makes a queue an ordered copy of another. -/
def duplicateQueue (limit i j : Nat) (t : Token) : Action V Report :=
  (queueDuplicate limit).run (queueStore V i) (queueStore V j) t

section Runs

variable (limit : Nat) (t : Token) (stops : Stops V) (w : World V) {i j : Nat} (hne : i ≠ j)

/-- Before its first call a transfer stands at the items of both queues, with no calls noted. -/
theorem Transfer.at_start :
    (Transfer.mk i j hne w.visits.length).At { source := w.items i, target := w.items j } w where
  source := rfl
  target := rfl
  started := Nat.le_refl _
  calls := by simp [World.callsAfter]

theorem wp_moveQueue :
    let p := Transfer.mk i j hne w.visits.length
    (moveQueue limit i j t).wp stops.regime ((p.ground stops).Concluded
      (fun n s => s.target ++ s.source = w.items j ++ w.items i ∧
        ((w.items i).length < roundLimit → s.source = [] ∧
          n = { written := (w.items i).length } ∧ s.calls.length = 3 * (w.items i).length + 1))
      (p.Kept (w.items i) (w.items j)) (w.isCancelled t)) w := by
  intro p
  refine ((p.takes_moveItems t roundLimit).mono (fun _ n s h => ?_) fun _ h => h).wp_drive
    (by simp [Transfer.Kept]) "queue_copy" limit t (Transfer.at_start w hne)
  simpa using h

theorem wp_duplicateQueue :
    let p := Transfer.mk i j hne w.visits.length
    (duplicateQueue limit i j t).wp stops.regime ((p.ground stops).Concluded
      (fun n s => s.source = w.items i ∧
        ((w.items j).length < roundLimit → s.target = w.items i ∧
          n = { written := (w.items i).length, removed := (w.items j).length } ∧
          s.calls.length = (w.items j).length + 2 + 3 * (w.items i).length))
      (p.Rotated (w.items i)) (w.isCancelled t)) w := by
  intro p
  refine ((p.takes_duplicateWalk t).mono (fun _ n s h => ?_) fun _ h => h).wp_drive
    (by simp [Transfer.Rotated, List.IsRotated.refl]) "queue_mirror" limit t
    (Transfer.at_start w hne)
  simpa using h

end Runs

/-- A run that nothing stops moves all items behind those of the target, or makes the target equal
to the source and leaves the source as it was, and reports how many items it put into the target and
took out. A queue counts its items in 64 bits. -/
theorem transfers_completely (limit : Nat) (t : Token) {w : World V} {i j : Nat} (hne : i ≠ j)
    (hw : w.Unplanned) (ht : w.isCancelled t = false) :
    ((w.items i).length < roundLimit →
      let out := w.run (moveQueue limit i j t).run
      out.1 = .ok { written := (w.items i).length, removed := 0, timedOut := false } ∧
        out.2.items i = [] ∧ out.2.items j = w.items j ++ w.items i ∧
        (out.2.callsAfter w.visits.length).length = 3 * (w.items i).length + 1) ∧
    ((w.items j).length < roundLimit →
      let out := w.run (duplicateQueue limit i j t).run
      out.1 = .ok
          { written := (w.items i).length, removed := (w.items j).length, timedOut := false } ∧
        out.2.items i = w.items i ∧ out.2.items j = w.items i ∧
        (out.2.callsAfter w.visits.length).length =
          (w.items j).length + 2 + 3 * (w.items i).length) := by
  simp only [w.run_of_unplanned hw]
  refine ⟨fun hlength => ?_, fun hlength => ?_⟩
  · have hrun := wp_moveQueue limit t .never w hne
    rw [ht] at hrun
    obtain ⟨n, s, hr, ⟨hkept, hall⟩, hat⟩ := hrun.of_unstopped Stops.not_halts_never
    obtain ⟨hempty, rfl, hcalls⟩ := hall hlength
    rw [hempty, List.append_nil] at hkept
    exact ⟨hr, hat.source.trans hempty, hat.target.trans hkept,
      (congrArg List.length hat.calls).trans hcalls⟩
  · have hrun := wp_duplicateQueue limit t .never w hne
    rw [ht] at hrun
    obtain ⟨n, s, hr, ⟨hsource, hall⟩, hat⟩ := hrun.of_unstopped Stops.not_halts_never
    obtain ⟨htarget, rfl, hcalls⟩ := hall hlength
    exact ⟨hr, hat.source.trans hsource, hat.target.trans htarget,
      (congrArg List.length hat.calls).trans hcalls⟩

/-- Two queues. -/
def twoQueues : World Nat where
  queues := ((∅ : Shelf (Base (List Nat))).put 0 { content := [1, 2, 3] }).put 1 { content := [9] }

theorem unplanned_twoQueues : twoQueues.Unplanned := by
  intro site
  cases site with
  | queue n =>
    simp only [World.plan, World.around, twoQueues, Shelf.nth, Shelf.put,
      Std.ExtTreeMap.getD_insert]
    split
    · rfl
    · split
      · rfl
      · rw [Std.ExtTreeMap.getD_empty]
        rfl
  | map n | set n | setMap n =>
    simp only [World.plan, World.around, twoQueues, Shelf.nth]
    rw [Std.ExtTreeMap.getD_empty]
    rfl

/-- Three items are moved behind one, and three take the place of one. -/
theorem transfers_completely_twoQueues :
    let moved := twoQueues.run (moveQueue 1000 0 1 none).run
    let duplicated := twoQueues.run (duplicateQueue 1000 0 1 none).run
    twoQueues.Unplanned ∧ twoQueues.isCancelled none = false ∧
      moved.1 = .ok { written := 3, removed := 0, timedOut := false } ∧
      moved.2.items 0 = [] ∧ moved.2.items 1 = [9, 1, 2, 3] ∧
      duplicated.1 = .ok { written := 3, removed := 1, timedOut := false } ∧
      duplicated.2.items 0 = [1, 2, 3] ∧ duplicated.2.items 1 = [1, 2, 3] := by
  intro moved duplicated
  have hsource : twoQueues.items 0 = [1, 2, 3] := by decide +kernel
  have htarget : twoQueues.items 1 = [9] := by decide +kernel
  obtain ⟨hmove, hduplicate⟩ :=
    transfers_completely 1000 none (show 0 ≠ 1 by decide) unplanned_twoQueues rfl
  rw [hsource, htarget] at hmove hduplicate
  obtain ⟨hr, hleft, hmoved, -⟩ := hmove (by decide)
  obtain ⟨hr', hkept, hcopied, -⟩ := hduplicate (by decide)
  exact ⟨unplanned_twoQueues, rfl, hr, hleft, hmoved, hr', hkept, hcopied⟩

/-- A run that a call may stop anywhere keeps all items together in their order, if it moves them,
or turns the source round, if it duplicates them: unless it came to its end, but for what the
pending call was to put into the target, or back into the source. -/
theorem stopped_transfer_keeps_items (limit : Nat) (t : Token) (stops : Stops V) (w : World V)
    {i j : Nat} (hne : i ≠ j) :
    let moved := stops.regime.act w (moveQueue limit i j t)
    let duplicated := stops.regime.act w (duplicateQueue limit i j t)
    (Report.Stopped moved.1 →
      moved.2.items j ++ lastBrought j (moved.2.callsAfter w.visits.length) ++ moved.2.items i =
        w.items j ++ w.items i) ∧
    (Report.Stopped duplicated.1 →
      (duplicated.2.items i ++ lastBrought i (duplicated.2.callsAfter w.visits.length)) ~r
        (w.items i)) := by
  intro moved duplicated
  refine ⟨fun hstopped => ?_, fun hstopped => ?_⟩
  · obtain ⟨s, hkept, hat⟩ := (wp_moveQueue limit t stops w hne).of_stopped hstopped
    rw [hat.source, hat.target, hat.calls]
    exact hkept
  · obtain ⟨s, hrotated, hat⟩ := (wp_duplicateQueue limit t stops w hne).of_stopped hstopped
    rw [hat.source, hat.calls]
    exact hrotated

/-- A duplication that is cut short while an item is to be put back, and a removal that is cut short
while an item is to be put into the target. -/
theorem stopped_transfer_keeps_items_midway :
    let duplicating := Stops.regime (.hitting [(4, .cut 0)])
    let duplicated := duplicating.act twoQueues (duplicateQueue 1000 0 1 none)
    let moving := Stops.regime (.hitting [(5, .cut 0)])
    let moved := moving.act twoQueues (moveQueue 1000 0 1 none)
    duplicated.1.toOption = some { written := 0, removed := 1, timedOut := true } ∧
      duplicated.2.items 0 = [2, 3] ∧
      lastBrought 0 (duplicated.2.callsAfter twoQueues.visits.length) = [1] ∧
      (duplicated.2.items 0 ++ lastBrought 0 (duplicated.2.callsAfter twoQueues.visits.length)) ~r
        (twoQueues.items 0) ∧
      moved.1.toOption = some { written := 1, removed := 0, timedOut := true } ∧
      moved.2.items 0 = [3] ∧ moved.2.items 1 = [9, 1] ∧
      moved.2.items 1 ++ lastBrought 1 (moved.2.callsAfter twoQueues.visits.length) ++
        moved.2.items 0 = twoQueues.items 1 ++ twoQueues.items 0 := by
  intro duplicating duplicated moving moved
  have hduplicated : duplicated.1.toOption =
      some { written := 0, removed := 1, timedOut := true } := by decide +kernel
  have hmoved : moved.1.toOption = some { written := 1, removed := 0, timedOut := true } := by
    decide +kernel
  exact ⟨hduplicated, by decide +kernel, by decide +kernel,
    (stopped_transfer_keeps_items 1000 none _ twoQueues (show 0 ≠ 1 by decide)).2
      (.of_timedOut (eq_ok_of_toOption hduplicated) rfl),
    hmoved, by decide +kernel, by decide +kernel,
    (stopped_transfer_keeps_items 1000 none _ twoQueues (show 0 ≠ 1 by decide)).1
      (.of_timedOut (eq_ok_of_toOption hmoved) rfl)⟩

/-- What the pending call was to put back, or into the target, is gone: the source is no rotation of
what it was, and an item is missing from both queues. -/
theorem cut_transfer_drops_item :
    let duplicated :=
      (Stops.hitting [(4, .cut 0)]).regime.act twoQueues (duplicateQueue 1000 0 1 none)
    let moved := (Stops.hitting [(2, .cut 0)]).regime.act twoQueues (moveQueue 1000 0 1 none)
    duplicated.1.toOption = some { written := 0, removed := 1, timedOut := true } ∧
      ¬ (duplicated.2.items 0) ~r (twoQueues.items 0) ∧
      moved.1.toOption = some { written := 0, removed := 0, timedOut := true } ∧
      moved.2.items 1 ++ moved.2.items 0 ≠ twoQueues.items 1 ++ twoQueues.items 0 := by
  intro duplicated moved
  have hsource : duplicated.2.items 0 = [2, 3] := by decide +kernel
  have hitems : twoQueues.items 0 = [1, 2, 3] := by decide +kernel
  refine ⟨by decide +kernel, ?_, by decide +kernel, by decide +kernel⟩
  rw [hsource, hitems]
  exact fun h => absurd h.perm.length_eq (by decide)

end TwinStore
