import Mathlib.Logic.Function.Basic
import TwinStore.Program.Backend
import TwinStore.Proofs.Marked

/-!
# Programs that no failure disturbs

Where no call fails, what a program answers and leaves depends on little: on the time, on what the
base stores hold and grant, and on the order in which they enumerate. A `Stand` is all that, with
the calls made so far. `a.ends g post s` says that the action `a` ends well whenever things stand as
in `s`, and that `post` holds of its answer and of how things stand then: total correctness, with
one rule for each way to put actions together, and one for each kind of call (`Faults.ends_onMap`,
`Faults.ends_onSetMap`).
-/

namespace TwinStore

variable {V α β : Type}

/-! ## How things stand -/

/-- The time, what base maps and base maps of sets hold, what base stores grant and in which order
they enumerate, and the calls made so far. -/
structure Stand (V : Type) where
  now : Nat
  date : Nat
  order : Arrangement
  grants : Site → Grants
  maps : Nat → EntryMap V
  setMaps : Nat → MemberMap
  calls : List (Call V)

/-- How things stand in a world. -/
def World.stand (w : World V) : Stand V where
  now := w.clock
  date := w.date
  order := w.arrangement
  grants := w.grants
  maps i := (w.maps.nth i).content
  setMaps i := (w.setMaps.nth i).content
  calls := w.visits.map Visit.call

namespace Stand

/-- A base map of sets holds something else. -/
def putSets (s : Stand V) (i : Nat) (m : MemberMap) : Stand V :=
  { s with setMaps := Function.update s.setMaps i m }

/-- A call to a base map has been carried out. -/
def onMap (s : Stand V) (i : Nat) (op : MapOp V) : Stand V :=
  { s with
    maps := Function.update s.maps i (op.apply s.order s.now s.date (s.maps i)).2
    calls := s.calls ++ [.map i op] }

/-- A call to a base map of sets has been carried out. -/
def onSetMap (s : Stand V) (i : Nat) (op : SetMapOp) : Stand V :=
  { s.putSets i (op.apply s.order s.now s.date (s.setMaps i)).2 with
    calls := s.calls ++ [.setMap i op] }

variable (s : Stand V) (i : Nat)

@[simp] theorem maps_onMap_self (op : MapOp V) :
    (s.onMap i op).maps i = (op.apply s.order s.now s.date (s.maps i)).2 :=
  Function.update_self ..

theorem maps_onMap_of_ne {i j : Nat} (op : MapOp V) (h : j ≠ i) :
    (s.onMap i op).maps j = s.maps j :=
  Function.update_of_ne h ..

@[simp] theorem setMaps_putSets_self (m : MemberMap) : (s.putSets i m).setMaps i = m :=
  Function.update_self ..

theorem setMaps_putSets_of_ne {i j : Nat} (m : MemberMap) (h : j ≠ i) :
    (s.putSets i m).setMaps j = s.setMaps j :=
  Function.update_of_ne h ..

@[simp] theorem setMaps_onSetMap_self (op : SetMapOp) :
    (s.onSetMap i op).setMaps i = (op.apply s.order s.now s.date (s.setMaps i)).2 :=
  s.setMaps_putSets_self i _

theorem setMaps_onSetMap_of_ne {i j : Nat} (op : SetMapOp) (h : j ≠ i) :
    (s.onSetMap i op).setMaps j = s.setMaps j :=
  s.setMaps_putSets_of_ne _ h

end Stand

namespace Shelf

variable {σ : Type} [Inhabited σ] (s : Shelf (Base σ)) (i : Nat) (m : σ)

/-- What the stores of a shelf hold once one of them holds something else. -/
theorem content_put_content :
    (fun j => ((s.put i { s.nth i with content := m }).nth j).content) =
      Function.update (fun j => (s.nth j).content) i m := by
  funext j
  by_cases h : i = j
  · subst h
    simp
  · rw [nth_put_of_ne _ _ h, Function.update_of_ne (Ne.symm h)]

theorem grants_put_content (j : Nat) :
    ((s.put i { s.nth i with content := m }).nth j).grants = (s.nth j).grants := by
  by_cases h : i = j
  · subst h
    simp
  · rw [nth_put_of_ne _ _ h]

end Shelf

namespace World

variable (w : World V) (i : Nat)

theorem stand_visit (v : Visit V) :
    (w.visit v).stand = { w.stand with calls := w.stand.calls ++ [v.call] } := by
  unfold stand visit
  simp only [List.map_append, List.map_cons, List.map_nil]
  rfl

/-- What is put in the place of what a base map holds is all that changes. -/
theorem stand_put_map (m : EntryMap V) :
    { w with maps := w.maps.put i { w.maps.nth i with content := m } }.stand =
      { w.stand with maps := Function.update w.stand.maps i m } := by
  have hgrants : { w with maps := w.maps.put i { w.maps.nth i with content := m } }.grants =
      w.grants := by
    funext site
    cases site with
    | map j => exact w.maps.grants_put_content i m j
    | _ => rfl
  unfold stand
  rw [hgrants]
  exact congrArg (fun maps => { w.stand with maps }) (w.maps.content_put_content i m)

theorem stand_put_sets (m : MemberMap) :
    { w with setMaps := w.setMaps.put i { w.setMaps.nth i with content := m } }.stand =
      w.stand.putSets i m := by
  have hgrants : { w with setMaps := w.setMaps.put i { w.setMaps.nth i with content := m } }.grants
      = w.grants := by
    funext site
    cases site with
    | setMap j => exact w.setMaps.grants_put_content i m j
    | _ => rfl
  unfold stand
  rw [hgrants]
  exact congrArg (fun setMaps => { w.stand with setMaps }) (w.setMaps.content_put_content i m)

end World

/-! ## Total correctness -/

/-- Whenever things stand as in `s`, the action ends well, and `post` holds of its answer and of how
things stand then. -/
def Action.ends (g : Regime V) (a : Action V α) (post : α → Stand V → Prop) (s : Stand V) : Prop :=
  ∀ w : World V, w.stand = s → a.wp g (fun r w' => ∃ x, r = .ok x ∧ post x w'.stand) w

namespace Action

variable {g : Regime V} {s : Stand V} {post post' : α → Stand V → Prop}

theorem ends_mono {a : Action V α} (h : a.ends g post s) (hp : ∀ x s', post x s' → post' x s') :
    a.ends g post' s := by
  intro w hw
  obtain ⟨x, hx, hpost⟩ := h w hw
  exact ⟨x, hx, hp x _ hpost⟩

/-- What an action ends with, run in a world that stands so. -/
theorem ends_act {a : Action V α} {w : World V} (h : a.ends g post w.stand) :
    ∃ x, (g.act w a).1 = .ok x ∧ post x (g.act w a).2.stand :=
  h w rfl

/-- What holds if an action ends well, and it does, holds. -/
theorem wp_of_ends {a : Action V α} {P : Except Halt α → Stand V → Prop} {w : World V}
    (h : a.ends g (fun x s' => P (.ok x) s') w.stand) : a.wp g (fun r w' => P r w'.stand) w := by
  refine wp_mono (h w rfl) ?_
  rintro _ w' ⟨x, rfl, hx⟩
  exact hx

theorem ends_pure {x : α} (h : post x s) : (pure x : Action V α).ends g post s := by
  rintro w rfl
  exact ⟨x, rfl, h⟩

theorem ends_bind {a : Action V β} {f : β → Action V α}
    (h : a.ends g (fun x s' => (f x).ends g post s') s) : (a >>= f).ends g post s := by
  intro w hw
  rw [wp_bind]
  refine wp_mono (h w hw) ?_
  rintro _ w' ⟨x, rfl, hx⟩
  exact hx w' rfl

theorem ends_attempt {a : Action V β} {post : Except StoreError β → Stand V → Prop}
    (h : a.ends g (fun x s' => post (.ok x) s') s) : a.attempt.ends g post s := by
  intro w hw
  rw [wp_attempt]
  refine wp_mono (h w hw) ?_
  rintro _ w' ⟨x, rfl, hx⟩
  exact ⟨.ok x, rfl, hx⟩

theorem ends_locked {lock : Lock} {a : Action V α} (h : a.ends g post s) :
    (locked lock a).ends g post s := by
  intro w hw
  rw [wp_locked]
  exact h w hw

/-- What is asked besides the base stores changes nothing in how they stand. -/
theorem ends_ask {r : Request V} {post : r.Answer → Stand V → Prop}
    (hquiet : ∀ w : World V, (g.answer r w).2.stand = w.stand) (h : ∀ a, post a s) :
    (ask r).ends g post s := by
  rintro w rfl
  rw [wp_ask, hquiet]
  exact ⟨_, rfl, h _⟩

theorem ends_count {m : Measure} {n : Nat} {post : Unit → Stand V → Prop} (h : post () s) :
    (count m n : Action V Unit).ends g post s :=
  ends_ask (fun _ => rfl) fun _ => h

/-- What a base store grants is read off how things stand. -/
theorem ends_grants {site : Site} {f : Grants → α} (h : post (f (s.grants site)) s) :
    (liftM (f <$> Backend.grants (V := V) site) : Action V α).ends g post s := by
  rintro w rfl
  exact ⟨_, rfl, h⟩

/-- A set is put under a key of a base map of sets. -/
theorem ends_storeSet {i : Nat} {k : Key} {xs : List String} {post : Unit → Stand V → Prop}
    (h : post () (s.putSets i (MemberMap.store (s.setMaps i) k (Std.ExtTreeSet.ofList xs)))) :
    (ask (.storeSet i k xs)).ends g post s := by
  rintro w rfl
  rw [wp_ask]
  refine ⟨(), rfl, ?_⟩
  rwa [show (g.answer (.storeSet i k xs) w).2.stand = _ from w.stand_put_sets i _]

end Action

/-! ## Walks -/

/-- Whenever things stand as in `s`, the walk ends well, whatever its tally is, and `post` holds of
its answer and of how things stand then. -/
def Walk.ends (g : Regime V) (a : Walk V α) (post : α → Stand V → Prop) (s : Stand V) : Prop :=
  ∀ n (w : World V), w.stand = s → a.wp g (fun r _ w' => ∃ x, r = .ok x ∧ post x w'.stand) n w

namespace Walk

variable {g : Regime V} {s : Stand V} {post post' : α → Stand V → Prop}

theorem ends_mono {a : Walk V α} (h : a.ends g post s) (hp : ∀ x s', post x s' → post' x s') :
    a.ends g post' s := by
  intro n w hw
  obtain ⟨x, hx, hpost⟩ := h n w hw
  exact ⟨x, hx, hp x _ hpost⟩

theorem ends_pure {x : α} (h : post x s) : (pure x : Walk V α).ends g post s := by
  rintro n w rfl
  exact ⟨x, rfl, h⟩

theorem ends_bind {a : Walk V β} {f : β → Walk V α}
    (h : a.ends g (fun x s' => (f x).ends g post s') s) : (a >>= f).ends g post s := by
  intro n w hw
  rw [wp_bind]
  refine wp_mono (h n w hw) ?_
  rintro _ n' w' ⟨x, rfl, hx⟩
  exact hx n' w' rfl

theorem ends_lift {a : Action V α} (h : a.ends g post s) : (liftM a : Walk V α).ends g post s := by
  intro n w hw
  rw [wp_lift]
  exact h w hw

theorem ends_wrote {post : Unit → Stand V → Prop} (h : post () s) :
    (wrote : Walk V Unit).ends g post s := by
  rintro n w rfl
  exact ⟨(), rfl, h⟩

theorem ends_removing {a : Action V Bool} {post : Unit → Stand V → Prop}
    (h : a.ends g (fun _ s' => post () s') s) : (removing a).ends g post s := by
  intro n w hw
  rw [wp_removing]
  refine Action.wp_mono (h w hw) ?_
  rintro _ w' ⟨found, rfl, hpost⟩
  exact ⟨(), rfl, hpost⟩

/-- What each step preserves holds in the end. -/
theorem ends_each {I : Stand V → Prop} {f : β → Walk V Unit} {items : List β}
    (hstep : ∀ a s, I s → (f a).ends g (fun _ s' => I s') s) (h : I s) :
    (each items f).ends g (fun _ s' => I s') s := by
  induction items generalizing s with
  | nil => exact ends_pure h
  | cons a rest ih => exact ends_bind (ends_mono (hstep a s h) fun _ _ => ih)

end Walk

/-- A run leaves what its walk leaves, or nothing has changed because its caller has cancelled. -/
theorem ends_drive {g : Regime V} {s : Stand V} {post : Stand V → Prop} {walk : Walk V Unit}
    (name : String) (limit : Nat) (t : Token) (hcancelled : post s)
    (h : walk.ends g (fun _ s' => post s') s) :
    (drive name limit t walk).ends g (fun _ s' => post s') s := by
  have hconclude {s : Stand V} (hs : post s) (tally : Tally) (timedOut : Bool) :
      (Report.conclude name tally timedOut).ends g (fun _ s' => post s') s :=
    Action.ends_bind (Action.ends_count (Action.ends_bind (Action.ends_count (Action.ends_bind
      (Action.ends_count (Action.ends_bind (Action.ends_count (Action.ends_pure hs))))))))
  unfold drive
  refine Action.ends_bind (Action.ends_ask (fun _ => rfl) fun cancelled => ?_)
  cases cancelled with
  | true => exact hconclude hcancelled _ _
  | false =>
    refine Action.ends_bind (Action.ends_ask (fun _ => rfl) fun run => Action.ends_bind ?_)
    intro w hw
    rw [Action.wp_lift]
    have hwalk := h {} w hw
    unfold Walk.wp at hwalk
    generalize g.run w (walk.run.run {}) = out at hwalk ⊢
    obtain ⟨⟨b, n⟩, w'⟩ := out
    obtain ⟨_, rfl, hpost⟩ := hwalk
    exact ⟨_, rfl, Action.ends_bind (Action.ends_ask (fun _ => rfl) fun _ => hconclude hpost _ _)⟩

/-! ## Calls -/

namespace Faults

variable {faults : Faults V} {s : Stand V} {i : Nat} {t : Token}

/-- A call that does not fail is carried out. -/
theorem Spares.call_eq {c : Call V} (h : faults.Spares c.site) (w : World V) (t : Token) :
    ∃ v : Visit V, v.call = c ∧ faults.regime.call w c t =
      (.ok ((w.visit v).perform c).1, ((w.visit v).perform c).2) := by
  unfold regime World.callUnder
  dsimp only
  rw [h _ c rfl]
  exact ⟨_, rfl, rfl⟩

/-- A call to a base map that never fails is answered and leaves what the operation does. -/
theorem Spares.call_onMap (h : faults.Spares (.map i)) (op : MapOp V) (t : Token) (w : World V) :
    ∃ w' : World V, w'.stand = w.stand.onMap i op ∧ faults.regime.call w (.map i op) t =
      (.ok (op.apply w.stand.order w.stand.now w.stand.date (w.stand.maps i)).1, w') := by
  obtain ⟨v, hv, hcall⟩ := Spares.call_eq (c := .map i op) h w t
  refine ⟨_, ?_, hcall⟩
  refine ((w.visit v).stand_put_map i _).trans ?_
  rw [w.stand_visit, hv]
  rfl

/-- A call to a base map of sets that never fails is answered and leaves what the operation does. -/
theorem Spares.call_onSetMap (h : faults.Spares (.setMap i)) (op : SetMapOp) (t : Token)
    (w : World V) :
    ∃ w' : World V, w'.stand = w.stand.onSetMap i op ∧ faults.regime.call w (.setMap i op) t =
      (.ok (op.apply w.stand.order w.stand.now w.stand.date (w.stand.setMaps i)).1, w') := by
  obtain ⟨v, hv, hcall⟩ := Spares.call_eq (c := .setMap i op) h w t
  refine ⟨_, ?_, hcall⟩
  refine ((w.visit v).stand_put_sets i _).trans ?_
  rw [w.stand_visit, hv]
  rfl

theorem Spares.ends_onMap (h : faults.Spares (.map i)) (op : MapOp V)
    {post : op.Answer → Stand V → Prop}
    (hpost : post (op.apply s.order s.now s.date (s.maps i)).1 (s.onMap i op)) :
    (Backend.onMap i op t).ends faults.regime post s := by
  rintro w rfl
  obtain ⟨w', hstand, hcall⟩ := h.call_onMap op t w
  unfold Backend.onMap
  rw [Action.wp_call, hcall]
  refine ⟨_, rfl, ?_⟩
  rwa [hstand]

theorem Spares.ends_onSetMap (h : faults.Spares (.setMap i)) (op : SetMapOp)
    {post : op.Answer → Stand V → Prop}
    (hpost : post (op.apply s.order s.now s.date (s.setMaps i)).1 (s.onSetMap i op)) :
    (Backend.onSetMap i op t).ends faults.regime post s := by
  rintro w rfl
  obtain ⟨w', hstand, hcall⟩ := h.call_onSetMap op t w
  unfold Backend.onSetMap
  rw [Action.wp_call, hcall]
  refine ⟨_, rfl, ?_⟩
  rwa [hstand]

end Faults

end TwinStore
