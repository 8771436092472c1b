import Mathlib.Tactic.Choose
import TwinStore.Proofs.ScopeRecords

/-!
# Additions while a scope is cleared

A scope is cleared while entries are added through its decorators. Whoever is chosen goes on with
one request (`Prog.advance`), so that anything may happen between any two requests of the clearing
and of the additions (`Race.run`).

The clearing lists the recorded keys, removes them one by one and then drops the whole record
(`Stage`); an addition inserts its key and then records it (`Phase`). What a step of either does is
said once (`ScopeLayout.ClearStep`, `ScopeLayout.AddStep`). What is known of a key that has been
recorded depends on how far the clearing is (`ScopeLayout.Accounted`): while the record is being
worked off, the key is still to be removed, or is gone, or is about to be recorded again, unless it
was recorded after the record had been listed. Such a record is dropped unread.
-/

namespace TwinStore

variable {V α : Type}

/-! ## Steps of programs -/

/-- A program goes on: its next request is answered. -/
def Prog.advance (g : Regime V) (w : World V) : Prog V α → Prog V α × World V
  | ret x => (ret x, w)
  | ask r next => (next (g.answer r w).1, (g.answer r w).2)

/-- What a program has ended well with. -/
def Prog.result? : Prog V (Except Halt α) → Option α
  | ret (.ok x) => some x
  | _ => none

theorem Prog.eq_ret_of_result? {p : Prog V (Except Halt α)} {x : α} (h : p.result? = some x) :
    p = .ret (.ok x) := by
  unfold result? at h
  split at h
  · rw [Option.some.inj h]
  · cases h

namespace Faults.Spares

variable {faults : Faults V} {i : Nat} {t : Token}

/-- A program that begins with a call to a base map goes on with the answer. -/
theorem advance_onMap (h : faults.Spares (.map i)) (op : MapOp V) (f : op.Answer → Action V α)
    (w : World V) : ∃ w' : World V, w'.stand = w.stand.onMap i op ∧
      (Backend.onMap i op t >>= f).run.advance faults.regime w =
        ((f (op.apply w.stand.order w.stand.now w.stand.date (w.stand.maps i)).1).run, w') := by
  obtain ⟨w', hstand, hcall⟩ := h.call_onMap op t w
  refine ⟨w', hstand, ?_⟩
  change ((ExceptT.bindCont f (faults.regime.call w (.map i op) t).1),
    (faults.regime.call w (.map i op) t).2) = _
  rw [hcall]
  rfl

theorem advance_onSetMap (h : faults.Spares (.setMap i)) (op : SetMapOp)
    (f : op.Answer → Action V α) (w : World V) : ∃ w' : World V, w'.stand = w.stand.onSetMap i op ∧
      (Backend.onSetMap i op t >>= f).run.advance faults.regime w =
        ((f (op.apply w.stand.order w.stand.now w.stand.date (w.stand.setMaps i)).1).run, w') := by
  obtain ⟨w', hstand, hcall⟩ := h.call_onSetMap op t w
  refine ⟨w', hstand, ?_⟩
  change ((ExceptT.bindCont f (faults.regime.call w (.setMap i op) t).1),
    (faults.regime.call w (.setMap i op) t).2) = _
  rw [hcall]
  rfl

end Faults.Spares

/-! ## Races -/

/-- An entry to be added to one of a scope's maps. -/
structure ScopedAdd (V : Type) (n : Nat) where
  map : Fin n
  key : Key
  value : V
  overwrite : Bool := false
  token : Token := none

variable {n m : Nat}

/-- Add the entry through the decorator of the map. -/
def ScopedAdd.action (x : ScopedAdd V n) (L : ScopeLayout n m) : Action V Bool :=
  ((L.enrolment V (.inl x.map)).map (Backend.map (L.maps x.map).store)).add x.key x.value
    x.overwrite x.token

/-- A world, what is left of the clearing of a scope, and what is left of additions to its maps. -/
structure Race (V ι : Type) where
  world : World V
  clearing : Prog V (Except Halt Nat)
  adding : ι → Prog V (Except Halt Bool)

namespace Race

variable {ι : Type}

/-- Who goes on, unless time passes. -/
inductive Move (ι : Type) where
  | clear
  | add (i : ι)
  | wait (time : Nat)

/-- Nothing has begun. -/
def start (L : ScopeLayout n m) (t : Token) (adds : ι → ScopedAdd V n) (w : World V) :
    Race V ι where
  world := w
  clearing := ((L.scope V).clear (L.participants V) t).run
  adding i := ((adds i).action L).run

variable [DecidableEq ι] (g : Regime V)

def move (r : Race V ι) : Move ι → Race V ι
  | .clear =>
    { r with
      world := (r.clearing.advance g r.world).2
      clearing := (r.clearing.advance g r.world).1 }
  | .add i =>
    { r with
      world := ((r.adding i).advance g r.world).2
      adding := Function.update r.adding i ((r.adding i).advance g r.world).1 }
  | .wait time => { r with world := r.world.atTime (r.world.clock + time) }

/-- One move after the other. -/
def run (r : Race V ι) (moves : List (Move ι)) : Race V ι :=
  moves.foldl (move g) r

end Race

/-! ## Programs in stages -/

namespace ScopeLayout

variable (L : ScopeLayout n m)

/-- The call that lists the recorded keys. -/
def listing (V : Type) : Call V := .setMap L.members (.member (.text L.identifier) .members)

/-- The call that records a key. -/
def recording (V : Type) (text : String) : Call V :=
  .setMap L.members (.member (.text L.identifier) (.add text))

/-- The call that drops the record. -/
def dropping (V : Type) : Call V := .setMap L.members (.remove (.text L.identifier))

/-- Record a key that has been added. -/
def noting (V : Type) (text : String) (t : Token) : Action V Bool := do
  Backend.onSetMap L.members (.member (.text L.identifier) (.add text)) t
  return true

/-- The measures, once the scope has been cleared. -/
def concluding (V : Type) (removed : Nat) : Action V Nat := do
  Action.count (.scopeClears L.identifier)
  Action.count (.scopeRemovedKeys L.identifier) removed
  return removed

/-- Remove the keys that are left, and drop the record. -/
def sweeping (V : Type) (t : Token) (texts : List String) (removed : Nat) : Action V Nat := do
  let removed ← Scope.removeAll (L.participants V) t texts removed
  let _ ← Backend.onSetMap L.members (.remove (.text L.identifier)) t
  L.concluding V removed

variable {L} {q : Place n m} {k : Key} {t : Token}

/-- To reach the members of the scope is one call. -/
theorem record_eq : (L.scope V).record t =
    Backend.onSetMap L.members (.reach (.text L.identifier)) t >>= fun _ =>
      pure (Backend.setUnder L.members (.text L.identifier)) := by
  change ((Backend.onSetMap L.members (.reach (.text L.identifier)) t >>=
    fun _ => pure Route.direct) >>= fun _ => _) = _
  rw [bind_assoc]
  rfl

/-- To clear a scope is to list the recorded keys, and to sweep. -/
theorem clear_eq : (L.scope V).clear (L.participants V) t =
    Backend.onSetMap L.members (.reach (.text L.identifier)) t >>= fun _ =>
      Backend.onSetMap L.members (.member (.text L.identifier) .members) t >>= fun listing =>
        listing.collect >>= fun texts => L.sweeping V t texts 0 := by
  unfold Scope.clear
  rw [record_eq, bind_assoc]
  refine congrArg _ (funext fun _ => ?_)
  rw [pure_bind]
  unfold SetStore.collect
  rw [bind_assoc]
  rfl

/-- To add an entry through a decorator is to add it, and to record its key. -/
theorem action_eq {x : ScopedAdd V n} {raw : String}
    (hraw : (L.maps x.map).serializer.encode x.key = .ok raw) :
    x.action L = Backend.onMap (L.maps x.map).store (.add x.key x.value x.overwrite) x.token >>=
      fun added => if added then
        Backend.onSetMap L.members (.reach (.text L.identifier)) x.token >>= fun _ =>
          L.noting V (Scope.member (L.maps x.map).mapId raw) x.token
      else pure false := by
  have hwritten : (L.enrolment V (.inl x.map)).raw x.key = pure raw := congrArg Action.ofExcept hraw
  change ((L.enrolment V (.inl x.map)).raw x.key >>= fun raw => _) = _
  rw [hwritten, pure_bind]
  refine congrArg _ (funext fun added => ?_)
  cases added with
  | false => rfl
  | true =>
    change (L.scope V).addKey (L.maps x.map).mapId raw x.token >>= (fun _ => pure true) = _
    unfold Scope.addKey
    rw [record_eq, bind_assoc, bind_assoc]
    rfl

theorem sweeping_nil (removed : Nat) : L.sweeping V t [] removed =
    Backend.onSetMap L.members (.remove (.text L.identifier)) t >>= fun _ =>
      L.concluding V removed := rfl

/-- To sweep is to remove the key of the first text, and to sweep on. -/
theorem sweeping_cons (text : String) (rest : List String) (removed : Nat) :
    L.sweeping V t (text :: rest) removed =
      Scope.removeRecorded (L.participants V) t text >>= fun wasThere =>
        L.sweeping V t rest (if wasThere then removed + 1 else removed) := by
  change ((Scope.removeRecorded (L.participants V) t text >>= fun wasThere => _) >>= _) = _
  rw [bind_assoc]
  rfl

/-! ## Stages -/

/-- How far an addition is. -/
inductive Phase where
  | waiting
  /-- The key has been inserted, and is about to be recorded. -/
  | pending
  | recorded
  | refused

/-- How far a clearing is: which of the texts it has listed are left, and which calls have been made
since, as long as the record was still there. -/
inductive Stage (V : Type) where
  | fresh
  | listed (rest : List String) (since : List (Call V))
  | dropped (since : List (Call V))

/-- What is left of an addition. -/
inductive Adding (L : ScopeLayout n m) (x : ScopedAdd V n) :
    Phase → Prog V (Except Halt Bool) → Prop where
  | waiting {text : String} (ht : L.Text (.inl x.map) x.key text) :
    Adding L x .waiting (x.action L).run
  | inserted {text : String} (ht : L.Text (.inl x.map) x.key text) :
    Adding L x .pending (Backend.onSetMap L.members (.reach (.text L.identifier)) x.token >>=
      fun _ => L.noting V text x.token).run
  | reached {text : String} (ht : L.Text (.inl x.map) x.key text) :
    Adding L x .pending (L.noting V text x.token).run
  | recorded : Adding L x .recorded (.ret (.ok true))
  | refused {r : Except Halt Bool} (hr : r ≠ .ok true) : Adding L x .refused (.ret r)

/-- What is left of a clearing. -/
inductive Clearing (L : ScopeLayout n m) (t : Token) :
    Stage V → Prog V (Except Halt Nat) → Prop where
  | start : Clearing L t .fresh ((L.scope V).clear (L.participants V) t).run
  | reached : Clearing L t .fresh
      (Backend.onSetMap L.members (.member (.text L.identifier) .members) t >>= fun listing =>
        listing.collect >>= fun texts => L.sweeping V t texts 0).run
  | listed {rest : List String} {since : List (Call V)} (removed : Nat)
      (hrest : ∀ text ∈ rest, ∃ q k, L.Text q k text) :
    Clearing L t (.listed rest since) (L.sweeping V t rest removed).run
  | dropped {since : List (Call V)} (removed : Nat) :
    Clearing L t (.dropped since) (L.concluding V removed).run
  | counted {since : List (Call V)} (removed : Nat) :
    Clearing L t (.dropped since)
      (Action.count (.scopeRemovedKeys L.identifier) removed >>= fun _ => pure removed :
        Action V Nat).run
  | ended {since : List (Call V)} (removed : Nat) :
    Clearing L t (.dropped since) (.ret (.ok removed))

/-- What a step of an addition does, and the call that it makes. -/
inductive AddStep (L : ScopeLayout n m) (x : ScopedAdd V n) (s : Stand V) :
    Phase → Phase → List (Call V) → Stand V → Prop where
  | inserted {c : Call V} {s' : Stand V} (h : L.Grows (some (.inl x.map, x.key)) s s') :
    AddStep L x s .waiting .pending [c] s'
  | refused {c : Call V} {s' : Stand V} (h : L.Grows none s s') :
    AddStep L x s .waiting .refused [c] s'
  | reached {c : Call V} {s' : Stand V} (h : L.Notes (L.record s) s s') :
    AddStep L x s .pending .pending [c] s'
  | recorded {text : String} {s' : Stand V} (ht : L.Text (.inl x.map) x.key text)
      (h : L.Notes ((L.record s).insert text) s s') :
    AddStep L x s .pending .recorded [L.recording V text] s'
  | idle {phase : Phase} : AddStep L x s phase phase [] s

/-- What a step of a clearing does, and the call that it makes. -/
inductive ClearStep (L : ScopeLayout n m) (s : Stand V) :
    Stage V → Stage V → List (Call V) → Stand V → Prop where
  | reached {c : Call V} {s' : Stand V} (h : L.Notes (L.record s) s s') :
    ClearStep L s .fresh .fresh [c] s'
  | listed {rest : List String} {s' : Stand V} (h : L.Notes (L.record s) s s')
      (hrest : ∀ text ∈ L.record s, text ∈ rest) :
    ClearStep L s .fresh (.listed rest []) [L.listing V] s'
  | removed {text : String} {rest : List String} {since : List (Call V)} {q : Place n m} {k : Key}
      {c : Call V} {s' : Stand V} (ht : L.Text q k text) (h : L.Drops q k s s') :
    ClearStep L s (.listed (text :: rest) since) (.listed rest (since ++ [c])) [c] s'
  | dropped {since : List (Call V)} :
    ClearStep L s (.listed [] since) (.dropped since) [L.dropping V]
      (s.onSetMap L.members (.remove (.text L.identifier)))
  | idle {since : List (Call V)} : ClearStep L s (.dropped since) (.dropped since) [] s

/-- An addition begins, unless its key cannot be written. -/
theorem Adding.start {x : ScopedAdd V n} (hk : (L.maps x.map).keys x.key) :
    ∃ phase, phase ≠ .recorded ∧ L.Adding x phase (x.action L).run := by
  cases hraw : (L.maps x.map).serializer.encode x.key with
  | error cause =>
    have hrefused : (L.enrolment V (.inl x.map)).raw x.key = Action.fail cause :=
      congrArg Action.ofExcept hraw
    have hfails : x.action L = Action.fail cause := by
      change ((L.enrolment V (.inl x.map)).raw x.key >>= fun raw => _) = _
      rw [hrefused]
      rfl
    rw [hfails]
    exact ⟨.refused, nofun, .refused (r := .error (.failed cause)) nofun⟩
  | ok raw => exact ⟨.waiting, nofun, .waiting ⟨hk, raw, hraw, rfl⟩⟩

/-- A program that begins with a call has not returned. -/
theorem onMap_bind_ne_ret {i : Nat} (op : MapOp V) (f : op.Answer → Action V α)
    (r : Except Halt α) : (Backend.onMap i op t >>= f).run ≠ .ret r := nofun

theorem onSetMap_bind_ne_ret {i : Nat} (op : SetMapOp) (f : op.Answer → Action V α)
    (r : Except Halt α) : (Backend.onSetMap i op t >>= f).run ≠ .ret r := nofun

/-- An addition that has returned is not pending, and has recorded its key if it answers that it
has added it. -/
theorem Adding.of_ret {x : ScopedAdd V n} {phase : Phase} {p : Prog V (Except Halt Bool)}
    (h : L.Adding x phase p) {r : Except Halt Bool} (hp : p = .ret r) :
    phase ≠ .pending ∧ (r = .ok true → phase = .recorded) := by
  cases h with
  | waiting ht =>
    obtain ⟨hk, raw, hraw, rfl⟩ := ht
    rw [action_eq hraw] at hp
    exact absurd hp (onMap_bind_ne_ret _ _ r)
  | inserted ht => exact absurd hp (onSetMap_bind_ne_ret _ _ r)
  | reached ht => exact absurd hp (onSetMap_bind_ne_ret _ _ r)
  | recorded => exact ⟨nofun, fun _ => rfl⟩
  | refused hr =>
    cases hp
    exact ⟨nofun, fun h => absurd h hr⟩

/-- A clearing that has returned has dropped the record. -/
theorem Clearing.of_ret {stage : Stage V} {p : Prog V (Except Halt Nat)}
    (h : L.Clearing t stage p) {r : Except Halt Nat} (hp : p = .ret r) :
    ∃ since removed, stage = .dropped since ∧ r = .ok removed := by
  cases h with
  | start =>
    rw [clear_eq] at hp
    exact absurd hp (onSetMap_bind_ne_ret _ _ r)
  | reached => exact absurd hp (onSetMap_bind_ne_ret _ _ r)
  | @listed rest since removed hrest =>
    cases rest with
    | nil => exact absurd hp (onSetMap_bind_ne_ret _ _ r)
    | cons text rest =>
      obtain ⟨q, k, ht⟩ := hrest text List.mem_cons_self
      rw [sweeping_cons, removeRecorded_eq ht] at hp
      cases q with
      | inl i => exact absurd hp (onMap_bind_ne_ret _ _ r)
      | inr j => exact absurd hp (onSetMap_bind_ne_ret _ _ r)
  | dropped removed => cases hp
  | counted removed => cases hp
  | ended removed =>
    cases hp
    exact ⟨_, removed, rfl, rfl⟩

section Advance

variable {faults : Faults V} (hmaps : ∀ i, faults.Spares (.map (L.maps i).store))
  (hsets : ∀ j, faults.Spares (.setMap (L.sets j).store))
  (hmembers : faults.Spares (.setMap L.members))

section Adding

include hmaps hmembers

/-- An addition that goes on takes one of its steps, and its calls are noted. -/
theorem Adding.advance {x : ScopedAdd V n} {phase : Phase} {p : Prog V (Except Halt Bool)}
    (h : L.Adding x phase p) (w : World V) : ∃ phase' cs,
      L.Adding x phase' (p.advance faults.regime w).1 ∧
      L.AddStep x w.stand phase phase' cs (p.advance faults.regime w).2.stand ∧
      (p.advance faults.regime w).2.stand.calls = w.stand.calls ++ cs := by
  cases h with
  | waiting ht =>
    obtain ⟨hk, raw, hraw, rfl⟩ := ht
    rw [action_eq hraw]
    obtain ⟨w', hstand, hgoes⟩ := (hmaps x.map).advance_onMap (t := x.token)
      (.add x.key x.value x.overwrite) (fun added => if added then
        Backend.onSetMap L.members (.reach (.text L.identifier)) x.token >>= fun _ =>
          L.noting V (Scope.member (L.maps x.map).mapId raw) x.token
        else pure false) w
    have hgrows := Grows.of_map (L := L) (s := w.stand) x.map (.add x.key x.value x.overwrite)
    rw [hgoes, hstand]
    generalize (MapOp.apply w.stand.order w.stand.now w.stand.date (.add x.key x.value x.overwrite)
      (w.stand.maps (L.maps x.map).store)).1 = added at hgrows ⊢
    cases added with
    | true => exact ⟨.pending, _, .inserted ⟨hk, raw, hraw, rfl⟩, .inserted hgrows, rfl⟩
    | false => exact ⟨.refused, _, .refused (r := .ok false) nofun, .refused hgrows, rfl⟩
  | @inserted text ht =>
    obtain ⟨w', hstand, hgoes⟩ := hmembers.advance_onSetMap (t := x.token)
      (.reach (.text L.identifier)) (fun _ => L.noting V text x.token) w
    rw [hgoes, hstand]
    exact ⟨.pending, _, .reached ht, .reached .of_reach, rfl⟩
  | @reached text ht =>
    obtain ⟨w', hstand, hgoes⟩ := hmembers.advance_onSetMap (t := x.token)
      (.member (.text L.identifier) (.add text)) (fun _ => (pure true : Action V Bool)) w
    unfold noting
    rw [hgoes, hstand]
    exact ⟨.recorded, _, .recorded, .recorded ht (.of_member (.add text)), rfl⟩
  | recorded => exact ⟨_, [], .recorded, .idle, (List.append_nil _).symm⟩
  | refused hr => exact ⟨_, [], .refused hr, .idle, (List.append_nil _).symm⟩

end Adding

include hmaps hsets

/-- A key is removed from its base store. -/
theorem advance_removal (q : Place n m) (k : Key) (f : Bool → Action V α) (w : World V) :
    ∃ (w' : World V) (removed : Bool) (c : Call V), L.Drops q k w.stand w'.stand ∧
      w'.stand.calls = w.stand.calls ++ [c] ∧
      (L.removal V t q k >>= f).run.advance faults.regime w = ((f removed).run, w') := by
  cases q with
  | inl i =>
    obtain ⟨w', hstand, hgoes⟩ := (hmaps i).advance_onMap (t := t) (.remove k) f w
    refine ⟨w', _, .map (L.maps i).store (.remove k), ?_, ?_, hgoes⟩ <;> rw [hstand]
    · exact .of_map i k w.stand
    · rfl
  | inr j =>
    obtain ⟨w', hstand, hgoes⟩ := (hsets j).advance_onSetMap (t := t) (.remove k) f w
    refine ⟨w', _, .setMap (L.sets j).store (.remove k), ?_, ?_, hgoes⟩ <;> rw [hstand]
    · exact .of_setMap j k w.stand
    · rfl

include hmembers

/-- A clearing that goes on takes one of its steps, and its calls are noted. -/
theorem Clearing.advance {stage : Stage V} {p : Prog V (Except Halt Nat)}
    (h : L.Clearing t stage p) {w : World V} (hw : L.Orderly w.stand) : ∃ stage' cs,
      L.Clearing t stage' (p.advance faults.regime w).1 ∧
      L.ClearStep w.stand stage stage' cs (p.advance faults.regime w).2.stand ∧
      (p.advance faults.regime w).2.stand.calls = w.stand.calls ++ cs := by
  cases h with
  | start =>
    rw [clear_eq]
    obtain ⟨w', hstand, hgoes⟩ := hmembers.advance_onSetMap (t := t)
      (.reach (.text L.identifier)) (fun _ =>
        Backend.onSetMap L.members (.member (.text L.identifier) .members) t >>= fun listing =>
          listing.collect >>= fun texts => L.sweeping V t texts 0) w
    rw [hgoes, hstand]
    exact ⟨.fresh, _, .reached, .reached .of_reach, rfl⟩
  | reached =>
    obtain ⟨w', hstand, hgoes⟩ := hmembers.advance_onSetMap (t := t)
      (.member (.text L.identifier) .members) (fun listing =>
        listing.collect >>= fun texts => L.sweeping V t texts 0) w
    have hlisted (text : String) : text ∈ w.stand.order.members (L.record w.stand).toList ↔
        text ∈ L.record w.stand := by
      rw [(w.stand.order.members_perm _).mem_iff, Std.ExtTreeSet.mem_toList]
    have hanswer : (SetMapOp.apply w.stand.order w.stand.now w.stand.date
        (.member (.text L.identifier) .members) (w.stand.setMaps L.members)).1 =
        .full (w.stand.order.members (L.record w.stand).toList) :=
      MemberMap.applyUnder_fst .members
    rw [hgoes, hstand, hanswer]
    exact ⟨.listed _ [], _, .listed 0 fun text hmem => hw.written text ((hlisted text).1 hmem),
      .listed (.of_member .members) fun text hmem => (hlisted text).2 hmem, rfl⟩
  | @listed rest since removed hrest =>
    cases rest with
    | nil =>
      obtain ⟨w', hstand, hgoes⟩ := hmembers.advance_onSetMap (t := t)
        (.remove (.text L.identifier)) (fun _ => L.concluding V removed) w
      rw [sweeping_nil, hgoes, hstand]
      exact ⟨.dropped since, _, .dropped removed, .dropped, rfl⟩
    | cons text rest =>
      obtain ⟨q, k, ht⟩ := hrest text List.mem_cons_self
      rw [sweeping_cons, removeRecorded_eq ht]
      obtain ⟨w', wasThere, c, hdrops, hcalls, hgoes⟩ := advance_removal (t := t) hmaps hsets
        q k (fun wasThere => L.sweeping V t rest (if wasThere then removed + 1 else removed)) w
      rw [hgoes]
      exact ⟨.listed rest (since ++ [c]), [c],
        .listed _ fun text' hmem => hrest text' (List.mem_cons_of_mem _ hmem),
        .removed ht hdrops, hcalls⟩
  | dropped removed =>
    exact ⟨_, [], .counted removed, .idle, (List.append_nil _).symm⟩
  | counted removed => exact ⟨_, [], .ended removed, .idle, (List.append_nil _).symm⟩
  | ended removed => exact ⟨_, [], .ended removed, .idle, (List.append_nil _).symm⟩

end Advance

/-! ## What is known of recorded keys -/

/-- One of the calls records a key. -/
def Late (L : ScopeLayout n m) (since : List (Call V)) (q : Place n m) (k : Key) : Prop :=
  ∃ text, L.Text q k text ∧ L.recording V text ∈ since

/-- What is known of a key that has been recorded, if it may be pending again. -/
def Accounted (L : ScopeLayout n m) (s : Stand V) (pending : Prop) (q : Place n m) (k : Key) :
    Stage V → Prop
  | .fresh => L.Records s q k
  | .listed rest since => L.Records s q k ∧ ((∃ text ∈ rest, L.Text q k text) ∨
      L.there s q k = false ∨ pending ∨ L.Late since q k)
  | .dropped since => L.Records s q k ∨ L.there s q k = false ∨ pending ∨ L.Late since q k

/-- How far a clearing is once others have made some calls. -/
def Stage.after : Stage V → List (Call V) → Stage V
  | .fresh, _ => .fresh
  | .listed rest since, cs => .listed rest (since ++ cs)
  | .dropped since, _ => .dropped since

theorem Stage.after_nil (stage : Stage V) : stage.after [] = stage := by
  cases stage <;> simp [after]

/-- The calls made so far show how far the clearing is. -/
def Traces (L : ScopeLayout n m) (made : List (Call V)) : Stage V → Prop
  | .fresh => True
  | .listed _ since => ∃ pre, made = pre ++ L.listing V :: since
  | .dropped since => ∃ pre post, made = pre ++ L.listing V :: (since ++ L.dropping V :: post)

section Known

variable {s s' : Stand V} {stage stage' : Stage V} {cs made : List (Call V)}
  {pending pending' : Prop}

theorem Late.append_left {since : List (Call V)} (h : L.Late since q k) (cs : List (Call V)) :
    L.Late (since ++ cs) q k :=
  h.imp fun _ ⟨ht, hmem⟩ => ⟨ht, List.mem_append_left cs hmem⟩

theorem Late.append_right (since : List (Call V)) (h : L.Late cs q k) :
    L.Late (since ++ cs) q k :=
  h.imp fun _ ⟨ht, hmem⟩ => ⟨ht, List.mem_append_right since hmem⟩

/-- Others do not make a recorded key unaccounted for: if it appears it is pending, and if it is
pending no more it has been recorded. -/
theorem Accounted.after (h : L.Accounted s pending q k stage)
    (hrecords : L.Records s q k → L.Records s' q k)
    (hthere : L.there s' q k = true → L.there s q k = true ∨ pending')
    (hpending : pending → pending' ∨ L.Records s' q k ∧ L.Late cs q k) :
    L.Accounted s' pending' q k (stage.after cs) := by
  have hgone (hs : L.there s q k = false) : L.there s' q k = false ∨ pending' := by
    cases hs' : L.there s' q k with
    | false => exact .inl rfl
    | true => exact .inr ((hthere hs').resolve_left (by simp [hs]))
  cases stage with
  | fresh => exact hrecords h
  | listed rest since =>
    refine ⟨hrecords h.1, ?_⟩
    rcases h.2 with hleft | hs | hp | hlate
    · exact .inl hleft
    · exact .inr ((hgone hs).imp id .inl)
    · exact .inr (.inr ((hpending hp).imp id fun hnew => hnew.2.append_right since))
    · exact .inr (.inr (.inr (hlate.append_left cs)))
  | dropped since =>
    rcases h with hr | hs | hp | hlate
    · exact .inl (hrecords hr)
    · exact .inr ((hgone hs).imp id .inl)
    · exact (hpending hp).elim (fun hp => .inr (.inr (.inl hp))) fun hnew => .inl hnew.1
    · exact .inr (.inr (.inr hlate))

/-- A key that has just been recorded is accounted for. -/
theorem Accounted.of_late (hrecords : L.Records s' q k) (hlate : L.Late cs q k) :
    L.Accounted s' pending q k (stage.after cs) := by
  cases stage with
  | fresh => exact hrecords
  | listed rest since => exact ⟨hrecords, .inr (.inr (.inr (hlate.append_right since)))⟩
  | dropped since => exact .inl hrecords

theorem Traces.after (h : L.Traces made stage) (cs : List (Call V)) :
    L.Traces (made ++ cs) (stage.after cs) := by
  cases stage with
  | fresh => trivial
  | listed rest since =>
    obtain ⟨pre, rfl⟩ := h
    exact ⟨pre, by simp⟩
  | dropped since =>
    obtain ⟨pre, post, rfl⟩ := h
    exact ⟨pre, post ++ cs, by simp⟩

theorem Clearing.after {p : Prog V (Except Halt Nat)} (h : L.Clearing t stage p)
    (cs : List (Call V)) : L.Clearing t (stage.after cs) p := by
  cases h with
  | start => exact .start
  | reached => exact .reached
  | listed removed hrest => exact .listed removed hrest
  | dropped removed => exact .dropped removed
  | counted removed => exact .counted removed
  | ended removed => exact .ended removed

namespace ClearStep

variable (h : L.ClearStep s stage stage' cs s')
include h

theorem orderly (hs : L.Orderly s) : L.Orderly s' := by
  cases h with
  | reached h => exact h.orderly hs.written hs
  | listed h hrest => exact h.orderly hs.written hs
  | removed ht h => exact h.orderly hs
  | dropped =>
    refine .of_unrecorded ?_ fun j => ?_
    · rw [Stand.setMaps_onSetMap_self]
      exact Std.ExtTreeMap.getElem?_erase_self
    · rw [Stand.setMaps_onSetMap_of_ne _ _ (L.apart j)]
      exact hs.populated j
  | idle => exact hs

theorem traces (hmade : L.Traces made stage) : L.Traces (made ++ cs) stage' := by
  cases h with
  | reached h => trivial
  | listed h hrest => exact ⟨made, rfl⟩
  | removed ht h => exact hmade.after _
  | dropped =>
    obtain ⟨pre, rfl⟩ := hmade
    exact ⟨pre, [], by simp⟩
  | idle => rwa [List.append_nil]

/-- The clearing itself leaves every recorded key accounted for. -/
theorem accounted (hk : L.Accounted s pending q k stage) : L.Accounted s' pending q k stage' := by
  cases h with
  | reached h => exact h.keeps (fun _ hmem => hmem) hk
  | listed h hrest =>
    obtain ⟨text, hmem, ht⟩ := hk
    exact ⟨h.keeps (fun _ hmem => hmem) ⟨text, hmem, ht⟩, .inl ⟨text, hrest text hmem, ht⟩⟩
  | removed ht h =>
    refine ⟨h.records.2 hk.1, ?_⟩
    rcases hk.2 with ⟨text', hmem, ht'⟩ | hgone | hp | hlate
    · rcases List.mem_cons.1 hmem with rfl | hmem
      · obtain ⟨rfl, rfl⟩ := ht.inj ht'
        exact .inr (.inl (there_of_slot_none h.gone))
      · exact .inl ⟨text', hmem, ht'⟩
    · refine .inr (.inl (Bool.eq_false_iff.2 fun hthere => ?_))
      rw [h.there hthere] at hgone
      cases hgone
    · exact .inr (.inr (.inl hp))
    · exact .inr (.inr (.inr (hlate.append_left _)))
  | dropped =>
    rcases hk.2 with ⟨text, hmem, -⟩ | hgone | hrest
    · cases hmem
    · exact .inr (.inl ((there_congr (slot_onSetMap_members _ q k) rfl).trans hgone))
    · exact .inr (.inr hrest)
  | idle => exact hk

end ClearStep

namespace AddStep

variable {x : ScopedAdd V n} {phase phase' : Phase} (h : L.AddStep x s phase phase' cs s')
include h

theorem orderly (hs : L.Orderly s) : L.Orderly s' := by
  cases h with
  | inserted h | refused h => exact h.orderly hs
  | reached h => exact h.orderly hs.written hs
  | recorded ht h => exact h.orderly (hs.written_insert ht) hs
  | idle => exact hs

theorem keeps (hr : L.Records s q k) : L.Records s' q k := by
  cases h with
  | inserted h | refused h => exact h.records.2 hr
  | reached h => exact h.keeps (fun _ hmem => hmem) hr
  | recorded ht h => exact h.keeps (fun _ hmem => Members.mem_insert_iff.2 (.inr hmem)) hr
  | idle => exact hr

/-- A key that is there after a step of an addition was there before, or is its pending one. -/
theorem there (ht : L.there s' q k = true) :
    L.there s q k = true ∨ phase' = .pending ∧ q = .inl x.map ∧ k = x.key := by
  cases h with
  | inserted h =>
    refine (h.there q k ht).imp id fun heq => ?_
    cases heq
    exact ⟨rfl, rfl, rfl⟩
  | refused h => exact .inl ((h.there q k ht).resolve_right nofun)
  | reached h | recorded _ h => exact .inl (h.there q k ▸ ht)
  | idle => exact .inl ht

/-- A key that is pending no more, or recorded at last, has just been recorded. -/
theorem noted
    (hnew : phase = .pending ∧ phase' ≠ .pending ∨ phase ≠ .recorded ∧ phase' = .recorded) :
    L.Records s' (.inl x.map) x.key ∧ L.Late cs (.inl x.map) x.key := by
  cases h with
  | @recorded text _ ht h =>
    refine ⟨⟨text, ?_, ht⟩, text, ht, List.mem_singleton_self _⟩
    rw [h.record]
    exact Members.mem_insert_iff.2 (.inl rfl)
  | inserted | refused | reached => simp at hnew
  | idle =>
    rcases hnew with ⟨h, hne⟩ | ⟨hne, h⟩ <;> exact absurd h hne

end AddStep

end Known

/-! ## The invariant -/

section Race

variable {ι : Type}

/-- A key has been inserted, and is about to be recorded. -/
def Pending (adds : ι → ScopedAdd V n) (phases : ι → Phase) (i : Fin n) (k : Key) : Prop :=
  ∃ j, (adds j).map = i ∧ (adds j).key = k ∧ phases j = .pending

/-- All that is recorded is in order, and every key that has been recorded is accounted for. -/
structure Sound (L : ScopeLayout n m) (t : Token) (adds : ι → ScopedAdd V n)
    (before : List (Call V)) (phases : ι → Phase) (stage : Stage V) (r : Race V ι) : Prop where
  orderly : L.Orderly r.world.stand
  clearing : L.Clearing t stage r.clearing
  adding : ∀ i, L.Adding (adds i) (phases i) (r.adding i)
  accounted : ∀ i, phases i = .recorded → L.Accounted r.world.stand
    (Pending adds phases (adds i).map (adds i).key) (.inl (adds i).map) (adds i).key stage
  traced : ∃ made, r.world.stand.calls = before ++ made ∧ L.Traces made stage

namespace Sound

variable {adds : ι → ScopedAdd V n} {before : List (Call V)} {phases : ι → Phase}
  {stage : Stage V} {r : Race V ι}

theorem start (hadds : ∀ i, (L.maps (adds i).map).keys (adds i).key) {w : World V}
    (hw : L.Orderly w.stand) :
    ∃ phases, L.Sound t adds w.stand.calls phases .fresh (.start L t adds w) := by
  choose phases hnew hadding using fun i => Adding.start (V := V) (hadds i)
  exact ⟨phases, hw, .start, hadding, fun i hi => absurd hi (hnew i), [],
    (List.append_nil _).symm, trivial⟩

variable {faults : Faults V} (hmaps : ∀ i, faults.Spares (.map (L.maps i).store))
  (hsets : ∀ j, faults.Spares (.setMap (L.sets j).store))
  (hmembers : faults.Spares (.setMap L.members))

variable [DecidableEq ι]

include hmaps hsets hmembers in
/-- The clearing goes on. -/
theorem clear (h : L.Sound t adds before phases stage r) :
    ∃ stage', L.Sound t adds before phases stage' (r.move faults.regime .clear) := by
  obtain ⟨stage', cs, hclearing, hstep, hcalls⟩ :=
    h.clearing.advance hmaps hsets hmembers h.orderly
  obtain ⟨made, hmade, htraces⟩ := h.traced
  refine ⟨stage', hstep.orderly h.orderly, hclearing, h.adding,
    fun i hi => hstep.accounted (h.accounted i hi), made ++ cs, ?_, hstep.traces htraces⟩
  exact hcalls.trans (by rw [hmade, List.append_assoc])

include hmaps hmembers in
/-- A race stays sound when one of its additions goes on. -/
theorem add (h : L.Sound t adds before phases stage r) (i : ι) : ∃ phases' stage',
    L.Sound t adds before phases' stage' (r.move faults.regime (.add i)) := by
  obtain ⟨phase', cs, hadding, hstep, hcalls⟩ := (h.adding i).advance hmaps hmembers r.world
  obtain ⟨made, hmade, htraces⟩ := h.traced
  refine ⟨Function.update phases i phase', stage.after cs, hstep.orderly h.orderly,
    h.clearing.after cs, fun j => ?_, fun j hj => ?_, made ++ cs, ?_, htraces.after cs⟩
  · by_cases hji : j = i
    · subst hji
      change L.Adding _ _ (Function.update r.adding j _ j)
      rwa [Function.update_self, Function.update_self]
    · change L.Adding _ _ (Function.update r.adding i _ j)
      rw [Function.update_of_ne hji, Function.update_of_ne hji]
      exact h.adding j
  · by_cases hnew : j = i ∧ phases i ≠ .recorded
    · obtain ⟨rfl, hne⟩ := hnew
      rw [Function.update_self] at hj
      obtain ⟨hrecords, hlate⟩ := hstep.noted (.inr ⟨hne, hj⟩)
      exact .of_late hrecords hlate
    · have hold : phases j = .recorded := by
        by_cases hji : j = i
        · subst hji
          exact not_not.1 fun hne => hnew ⟨rfl, hne⟩
        · rwa [Function.update_of_ne hji] at hj
      refine (h.accounted j hold).after hstep.keeps (fun hthere => ?_) ?_
      · refine (hstep.there hthere).imp id ?_
        rintro ⟨hphase, hplace, hkey⟩
        refine ⟨i, (Sum.inl.inj hplace).symm, hkey.symm, ?_⟩
        rwa [Function.update_self]
      · rintro ⟨j', hmap, hkey, hpending⟩
        by_cases hdone : j' = i ∧ phase' ≠ .pending
        · obtain ⟨rfl, hne⟩ := hdone
          have hnoted := hstep.noted (.inl ⟨hpending, hne⟩)
          rw [hmap, hkey] at hnoted
          exact .inr hnoted
        · refine .inl ⟨j', hmap, hkey, ?_⟩
          by_cases hji : j' = i
          · subst hji
            rw [Function.update_self]
            exact not_not.1 fun hne => hdone ⟨rfl, hne⟩
          · rwa [Function.update_of_ne hji]
  · exact hcalls.trans (by rw [hmade, List.append_assoc])

/-- A race stays sound when time passes. -/
theorem wait (h : L.Sound t adds before phases stage r) (time : Nat) :
    L.Sound t adds before phases stage (r.move faults.regime (.wait time)) := by
  refine ⟨h.orderly.later _, h.clearing, h.adding, fun i hi => ?_, h.traced⟩
  rw [← stage.after_nil]
  refine (h.accounted i hi).after (fun hr => ?_)
    (fun hthere => .inl (there_of_later (Nat.le_add_right _ _) hthere)) .inl
  unfold Records at hr ⊢
  exact (h.orderly.record_later _).symm ▸ hr

include hmaps hsets hmembers in
/-- A race stays sound through any moves. -/
theorem run (h : L.Sound t adds before phases stage r) (moves : List (Race.Move ι)) :
    ∃ phases' stage', L.Sound t adds before phases' stage' (r.run faults.regime moves) := by
  induction moves generalizing r phases stage with
  | nil => exact ⟨phases, stage, h⟩
  | cons move rest ih =>
    cases move with
    | clear =>
      obtain ⟨_, hnext⟩ := h.clear hmaps hsets hmembers
      exact ih hnext
    | add i =>
      obtain ⟨_, _, hnext⟩ := h.add hmaps hmembers i
      exact ih hnext
    | wait time => exact ih (h.wait time)

end Sound

end Race

end ScopeLayout

/-- **A clearing that runs while entries are added forgets no key but those recorded while it is at
work.** No call fails; a scope is cleared while entries are added through its decorators, in
whatever order they take turns. Once all have returned, the clearing has ended well, and a key that
has been added is gone, or is recorded, or was recorded after the clearing had listed the record and
before it dropped it. -/
theorem concurrent_adds_cleared_or_recorded {ι : Type} [DecidableEq ι] (L : ScopeLayout n m)
    (faults : Faults V) (hmaps : ∀ i, faults.Spares (.map (L.maps i).store))
    (hsets : ∀ j, faults.Spares (.setMap (L.sets j).store))
    (hmembers : faults.Spares (.setMap L.members)) (w : World V) (hw : L.Orderly w.stand) (t : Token)
    (adds : ι → ScopedAdd V n) (hadds : ∀ i, (L.maps (adds i).map).keys (adds i).key)
    (moves : List (Race.Move ι)) :
    let after := (Race.start L t adds w).run faults.regime moves
    (∃ r, after.clearing = .ret r) → (∀ i, ∃ r, after.adding i = .ret r) →
    (∃ removed, after.clearing = .ret (.ok removed)) ∧
    ∀ i, after.adding i = .ret (.ok true) →
      L.there after.world.stand (.inl (adds i).map) (adds i).key = false ∨
      L.Records after.world.stand (.inl (adds i).map) (adds i).key ∨
      ∃ pre since post, after.world.stand.calls = w.stand.calls ++
          (pre ++ L.listing V :: (since ++ L.dropping V :: post)) ∧
        L.Late since (.inl (adds i).map) (adds i).key := by
  intro after hcleared hadded
  obtain ⟨phases, hstart⟩ := ScopeLayout.Sound.start (t := t) hadds hw
  obtain ⟨phases, stage, hsound⟩ := hstart.run hmaps hsets hmembers moves
  obtain ⟨r, hr⟩ := hcleared
  obtain ⟨since, removed, rfl, rfl⟩ := hsound.clearing.of_ret hr
  refine ⟨⟨removed, hr⟩, fun i hi => ?_⟩
  have hnothing : ¬ ScopeLayout.Pending adds phases (adds i).map (adds i).key := by
    rintro ⟨j, -, -, hpending⟩
    obtain ⟨a, ha⟩ := hadded j
    exact ((hsound.adding j).of_ret ha).1 hpending
  obtain ⟨made, hmade, pre, post, rfl⟩ := hsound.traced
  rcases hsound.accounted i (((hsound.adding i).of_ret hi).2 rfl) with
    hrecords | hgone | hpending | hlate
  · exact .inr (.inl hrecords)
  · exact .inl hgone
  · exact absurd hpending hnothing
  · exact .inr (.inr ⟨pre, since, post, hmade, hlate⟩)

/-- One user is recorded before the record is listed, the other after it has been dropped. -/
theorem concurrent_adds_cleared_or_recorded_twice :
    let L := ScopeLayout.sample
    let adds : Bool → ScopedAdd Nat 1 := fun i =>
      { map := 0, key := .text (if i then "ada" else "bob"), value := 1 }
    let moves : List (Race.Move Bool) :=
      [.add true, .add true, .add true, .clear, .clear, .add false, .clear, .clear, .wait 5,
        .add false, .add false, .clear, .clear]
    let after := (Race.start L none adds {}).run (Faults.hitting []).regime moves
    after.clearing.result? = some 1 ∧ (after.adding false).result? = some true ∧
      L.there after.world.stand (.inl 0) (.text "ada") = false ∧
      L.there after.world.stand (.inl 0) (.text "bob") = true ∧
      (L.Records after.world.stand (.inl 0) (.text "bob") ∨
        ∃ pre since post, after.world.stand.calls =
            pre ++ L.listing Nat :: (since ++ L.dropping Nat :: post) ∧
          L.Late since (.inl 0) (.text "bob")) := by
  intro L adds moves after
  have hspared : ∀ site, (Faults.hitting [] : Faults Nat).Spares site := Faults.spares_hitting_nil
  have hcleared : after.clearing.result? = some 1 := by decide +kernel
  have hadded : ∀ i, (after.adding i).result? = some true := by decide +kernel
  have hthere : L.there after.world.stand (.inl 0) (.text "bob") = true := by decide +kernel
  obtain ⟨-, hkeys⟩ := concurrent_adds_cleared_or_recorded L (Faults.hitting [])
    (fun _ => hspared _) (fun _ => hspared _) (hspared _) {}
    (.of_unrecorded (by decide +kernel) fun _ => MemberMap.populated_empty) none adds
    (fun _ => ⟨_, rfl⟩) moves ⟨_, Prog.eq_ret_of_result? hcleared⟩
    fun i => ⟨_, Prog.eq_ret_of_result? (hadded i)⟩
  refine ⟨hcleared, hadded false, by decide +kernel, hthere, ?_⟩
  rcases hkeys false (Prog.eq_ret_of_result? (hadded false)) with hgone | hkept
  · exact absurd (hthere.symm.trans hgone) (by decide)
  · exact hkept

/-- A user that is added while the scope is cleared is there and not recorded: its record was made
after the record had been listed, and dropped with it. -/
theorem clearing_forgets_concurrent_add :
    let L := ScopeLayout.sample
    let adds : Unit → ScopedAdd Nat 1 := fun _ => { map := 0, key := .text "ada", value := 1 }
    let moves : List (Race.Move Unit) :=
      [.clear, .clear, .add (), .add (), .add (), .clear, .clear, .clear]
    let after := (Race.start L none adds {}).run (Faults.hitting []).regime moves
    (∀ site, (Faults.hitting [] : Faults Nat).Spares site) ∧
      after.clearing.result? = some 0 ∧ (after.adding ()).result? = some true ∧
      L.there after.world.stand (.inl 0) (.text "ada") = true ∧
      ¬ L.Records after.world.stand (.inl 0) (.text "ada") := by
  intro L adds moves after
  have hempty : (L.record after.world.stand).toList = [] := by decide +kernel
  refine ⟨Faults.spares_hitting_nil, by decide +kernel, by decide +kernel, by decide +kernel, ?_⟩
  rintro ⟨text, hmem, -⟩
  rw [← Std.ExtTreeSet.mem_toList, hempty] at hmem
  cases hmem

end TwinStore
