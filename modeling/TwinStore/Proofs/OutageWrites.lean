import TwinStore.Proofs.Agreement
import TwinStore.Proofs.Moments
import TwinStore.Proofs.Outages

/-!
# Writes that an outage leaves to the secondary

While the primary of a replicated map is out, callers are served by the secondary: a turn of an
outage does to the secondary's map what was asked for, runs nothing, and takes the pair down if it
is the first (`Diverted`). An entry that the secondary accepts has no deadline, so it is there until
somebody removes it (`EntryMap.Lasts`, `outage_keeps`).

The first turn in which no store fails ends the outage by one recovery. Whatever the strategy, that
carries to the primary what the secondary accepted (`recovery_carries_outage_writes`) — except that
a refresh of the primary's own keys adds none, so it carries only those that the primary has.

Entries may expire at any time: nothing is asked of the times of the turns.
-/

namespace TwinStore

variable {V α : Type}

/-! ## Entries that last -/

namespace EntryMap

/-- There is an entry without a deadline under a key. -/
def Lasts (m : EntryMap V) (k : Key) : Prop :=
  ∃ v, m.slots[k]? = some { value := v }

theorem Lasts.live? {m : EntryMap V} {k : Key} (h : m.Lasts k) (now : Nat) :
    (m.live? now k).isSome := by
  obtain ⟨v, hv⟩ := h
  rw [live?_of_lasting hv now]
  rfl

theorem Lasts.evict {m : EntryMap V} {k : Key} (h : m.Lasts k) (now : Nat) (k' : Key) :
    (m.evict now k').Lasts k := by
  obtain ⟨v, hv⟩ := h
  unfold EntryMap.evict
  split
  · rename_i slot hslot
    split
    · rename_i hexpired
      by_cases hk : k' = k
      · subst hk
        rw [hv] at hslot
        cases hslot
        cases hexpired
      · exact ⟨v, by simp [Std.ExtTreeMap.getElem?_erase, hk, hv]⟩
    · exact ⟨v, hv⟩
  · exact ⟨v, hv⟩

theorem lasts_put (m : EntryMap V) (k : Key) (v : V) : (m.put k v).Lasts k :=
  ⟨v, by simp [EntryMap.put]⟩

theorem Lasts.put {m : EntryMap V} {k : Key} (h : m.Lasts k) (k' : Key) (v : V) :
    (m.put k' v).Lasts k := by
  by_cases hk : k' = k
  · subst hk
    exact m.lasts_put k' v
  · obtain ⟨x, hx⟩ := h
    exact ⟨x, by simp [EntryMap.put, Std.ExtTreeMap.getElem?_insert, hk, hx]⟩

theorem Lasts.add {m : EntryMap V} {k : Key} (h : m.Lasts k) (now : Nat) (k' : Key) (v : V)
    (overwrite : Bool) : (m.add now k' v overwrite).2.Lasts k := by
  unfold EntryMap.add
  split
  · exact h
  · exact h.put k' v

/-- An entry that is accepted has no deadline. -/
theorem lasts_add {m : EntryMap V} {now : Nat} {k : Key} {v : V} {overwrite : Bool}
    (h : (m.add now k v overwrite).1 = true) : (m.add now k v overwrite).2.Lasts k := by
  unfold EntryMap.add at h ⊢
  by_cases hthere : (!overwrite && (m.live? now k).isSome) = true
  · rw [if_pos hthere] at h
    cases h
  · rw [if_neg hthere]
    exact m.lasts_put k v

theorem Lasts.erase {m : EntryMap V} {k k' : Key} (h : m.Lasts k) (hk : k' ≠ k) :
    (EntryMap.mk (m.slots.erase k')).Lasts k := by
  obtain ⟨v, hv⟩ := h
  exact ⟨v, by simp [Std.ExtTreeMap.getElem?_erase, hk, hv]⟩

end EntryMap

namespace PlainOp

/-- What an operation does not remove is there after it. -/
theorem isSome_after {c : Entries V} {k : Key} (op : PlainOp V) (hop : op ≠ .remove k)
    (h : (c k).isSome) : (op.after c k).isSome := by
  cases op with
  | add k' v overwrite =>
    unfold after Entries.adding
    dsimp only
    split
    · exact h
    · by_cases hk : k' = k
      · subst hk
        simp
      · rwa [Entries.set_of_ne _ _ hk]
  | remove k' =>
    have hk : k' ≠ k := fun hk => hop (congrArg _ hk)
    change (c.set k' none k).isSome
    rwa [Entries.set_of_ne _ _ hk]
  | _ => exact h

/-- After an addition there is an entry under its key, an old one or a new one. -/
theorem isSome_after_add (c : Entries V) (k : Key) (v : V) (overwrite : Bool) :
    ((add k v overwrite).after c k).isSome := by
  unfold after Entries.adding
  dsimp only
  split
  · rename_i hthere
    exact (Bool.and_eq_true_iff.1 hthere).2
  · simp

end PlainOp

/-! ## Turns of an outage -/

/-- While the primary is out, an operation fails there and leaves the secondary's map alone; on the
secondary `R` tells what its map held, what the operation answers, and what the map holds then. -/
structure Diverts (p : BasePair) (g : Regime V) (op : MapStore V → Action V α)
    (R : EntryMap V → Except StoreError α → EntryMap V → Prop) : Prop where
  apart : ∀ i, (op (Backend.map i)).Avoids p.core
  primary : ∀ w, (op (Backend.map p.primary)).wp g (fun r w' =>
    (∃ cause, r = .error (.failed cause)) ∧ w'.maps.nth p.secondary = w.maps.nth p.secondary) w
  secondary : ∀ w, (op (Backend.map p.secondary)).wp g (fun r w' =>
    ∃ r' : Except StoreError α, r = r'.mapError Halt.failed ∧
      R (w.maps.nth p.secondary).content r' (w'.maps.nth p.secondary).content) w

/-- What a turn of an outage leaves: the secondary has done what was asked for, and the pair is
down. -/
structure Diverted (p : BasePair) (o : Outlook)
    (R : EntryMap V → Except StoreError α → EntryMap V → Prop) (w : World V) (r : Except Halt α)
    (js : List (Span (World V))) (w' : World V) : Prop where
  journal : js = []
  record : ∃ cause, w'.Records p.core (o.struck cause)
  secondary : ∃ r' : Except StoreError α, r = r'.mapError Halt.failed ∧
    R (w.maps.nth p.secondary).content r' (w'.maps.nth p.secondary).content

/-- The replicated pair of two base maps, whatever brings one to the other. -/
def BasePair.mapEngine (V : Type) (p : BasePair) (name : String)
    (synchronizer : Synchronizer V (MapStore V)) : Engine V (MapStore V) :=
  .root p.core name (Backend.map p.primary) (Backend.map p.secondary) synchronizer

section Outage

variable {p : BasePair} {outage : Faults V} {o : Outlook} {w : World V} {name : String}
  {synchronizer : Synchronizer V (MapStore V)} {op : MapStore V → Action V α}
  {R : EntryMap V → Except StoreError α → EntryMap V → Prop}

theorem Diverts.wp_markedFallback (h : Diverts p outage.regime op R) (hw : w.Records p.core o) :
    ((p.mapEngine V name synchronizer).markedFallback fun m => liftM (op m)).wp outage.regime
      (Diverted p o R w) w := by
  obtain ⟨⟨cause, hfailed⟩, hkept⟩ := h.primary w
  have hrecord := (hw.wp outage.leavesRecords (h.apart p.primary)).struck cause
  have hafter := hrecord.wp outage.leavesRecords (h.apart p.secondary)
  have hsecond := h.secondary
    ((outage.regime.act w (op (Backend.map p.primary))).2.struck p.core cause)
  rw [World.maps_struck, hkept] at hsecond
  refine Engine.wp_markedFallback_of_failed (Prod.ext hfailed rfl) ?_
  exact ⟨rfl, ⟨cause, hafter⟩, hsecond⟩

theorem Diverts.wp_markedReplicate (h : Diverts p outage.regime op R) (hw : w.Records p.core o) :
    ((p.mapEngine V name synchronizer).markedReplicate fun m => liftM (op m)).wp outage.regime
      (Diverted p o R w) w := by
  obtain ⟨⟨cause, hfailed⟩, hkept⟩ := h.primary w
  have hrecord := hw.wp outage.leavesRecords (h.apart p.primary)
  have hafter := (hrecord.wp outage.leavesRecords (h.apart p.secondary)).struck cause
  have hsecond := h.secondary (outage.regime.act w (op (Backend.map p.primary))).2
  rw [hkept] at hsecond
  refine Engine.wp_markedReplicate_of_failed (Prod.ext hfailed rfl) ?_
  obtain ⟨r, hr, hR⟩ := hsecond
  exact ⟨r, hr, rfl, ⟨cause, hafter⟩, r, hr, by rw [World.maps_struck]; exact hR⟩

end Outage

/-! ## What operations do in an outage -/

section Calls

variable {faults : Faults V} {w : World V} {i j : Nat} {op : MapOp V} {t : Token}

theorem Faults.wp_onMap (post : Except Halt op.Answer → World V → Prop) :
    (Backend.onMap i op t).wp faults.regime post w ↔
      post (w.callUnder (faults w.visits.length (.map i op)) (.map i op) t).1
        (w.callUnder (faults w.visits.length (.map i op)) (.map i op) t).2 := Iff.rfl

/-- A call to a map that is out fails without effect. -/
theorem Faults.Fells.wp_onMap (h : faults.Fells (.map i))
    (hwhole : ∀ n cause a, (Call.map i op).failAfter n cause a = none) :
    (Backend.onMap i op t).wp faults.regime (fun r w' => (∃ cause, r = .error (.failed cause)) ∧
      w'.maps = w.maps) w := by
  rw [Faults.wp_onMap]
  unfold World.callUnder
  cases hf : faults w.visits.length (.map i op) with
  | none => exact absurd hf (h _ _ rfl)
  | some f =>
    obtain ⟨cause, after⟩ := f
    cases after with
    | none => exact ⟨⟨cause, rfl⟩, rfl⟩
    | some n =>
      simp only [Option.map_some, Failure.strike, World.settle, hwhole]
      exact ⟨⟨cause, rfl⟩, rfl⟩

/-- A call to a map that never fails is carried out. -/
theorem Faults.Spares.wp_onMap (h : faults.Spares (.map i)) :
    (Backend.onMap i op t).wp faults.regime (fun r w' =>
      let out := op.apply w.arrangement w.clock w.date (w.maps.nth i).content
      r = .ok out.1 ∧ (w'.maps.nth i).content = out.2) w := by
  rw [Faults.wp_onMap, h _ _ rfl]
  exact ⟨rfl, congrArg Base.content (Shelf.nth_put_self _ _ _)⟩

/-- Listing the keys of a map that is out fails, even if some of them come through. -/
theorem Faults.Fells.wp_collectKeys (h : faults.Fells (.map i)) (hne : i ≠ j) (role : String) :
    ((Backend.map i).collectKeys role t).wp faults.regime (fun r w' =>
      (∃ cause, r = .error (.failed cause)) ∧ w'.maps.nth j = w.maps.nth j) w := by
  unfold KeyedStore.collectKeys KeyedStore.listAs
  rw [Action.wp_bind, Action.wp_bind, wp_requireKeys_map]
  split
  · rw [Action.andThen_ok]
    change (Backend.onMap i .keys t).wp faults.regime _ w
    rw [Faults.wp_onMap]
    unfold World.callUnder
    cases hf : faults w.visits.length (.map i .keys) with
    | none => exact absurd hf (h _ _ rfl)
    | some f =>
      obtain ⟨cause, after⟩ := f
      cases after with
      | none => exact ⟨⟨cause, rfl⟩, rfl⟩
      | some n => exact ⟨⟨cause, rfl⟩, Shelf.nth_put_of_ne _ _ hne⟩
  · exact ⟨⟨_, rfl⟩, rfl⟩

/-- Listing the keys of a map that never fails leaves it as it is. -/
theorem Faults.Spares.wp_collectKeys (h : faults.Spares (.map i)) (role : String) :
    ((Backend.map i).collectKeys role t).wp faults.regime (fun r w' =>
      ∃ r' : Except StoreError (List Key), r = r'.mapError Halt.failed ∧
        (w'.maps.nth i).content = (w.maps.nth i).content) w := by
  unfold KeyedStore.collectKeys KeyedStore.listAs
  rw [Action.wp_bind, Action.wp_bind, wp_requireKeys_map]
  split
  · rw [Action.andThen_ok]
    have hcall : (Backend.onMap i .keys t).wp faults.regime _ w := h.wp_onMap
    refine Action.wp_mono hcall ?_
    rintro _ w' ⟨rfl, hcontent⟩
    exact ⟨.ok _, rfl, hcontent⟩
  · exact ⟨.error _, rfl, rfl⟩

end Calls

section Operations

variable {p : BasePair} {outage : Faults V} (hfells : outage.Fells (.map p.primary))
  (hspares : outage.Spares (.map p.secondary))
include hfells hspares

/-- A call fails on the primary, and is carried out by the secondary. -/
theorem diverts_call (op : MapOp V) (t : Token) {ask : MapStore V → Action V op.Answer}
    (hask : ∀ i, ask (Backend.map i) = Backend.onMap i op t)
    (hwhole : ∀ i n cause a, (Call.map i op).failAfter n cause a = none) :
    Diverts p outage.regime ask fun m r m' => ∃ arrangement now date,
      r = .ok (op.apply arrangement now date m).1 ∧ m' = (op.apply arrangement now date m).2 where
  apart i := by
    rw [hask]
    exact Action.avoids_call _ _
  primary w := by
    rw [hask]
    refine Action.wp_mono (hfells.wp_onMap (hwhole p.primary)) ?_
    rintro r w' ⟨hfailed, hmaps⟩
    exact ⟨hfailed, by rw [hmaps]⟩
  secondary w := by
    rw [hask]
    refine Action.wp_mono hspares.wp_onMap ?_
    rintro _ w' ⟨rfl, hcontent⟩
    exact ⟨.ok _, rfl, _, _, _, rfl, hcontent⟩

/-- A listing of the keys fails on the primary, and is carried out by the secondary, where it
changes nothing. -/
theorem diverts_collectKeys (role : String) (t : Token) :
    Diverts p outage.regime (fun m => m.collectKeys role t) fun m _ m' => m' = m where
  apart i := (Backend.apart_map i).collectKeys role t
  primary _ := hfells.wp_collectKeys p.ne role
  secondary _ := hspares.wp_collectKeys role

end Operations

/-- The answer to an operation tells that an entry was accepted under a key. -/
def PlainOp.Accepts : (op : PlainOp V) → Key → Except Halt op.Answer → Prop
  | .add k' _ _, k, r => k' = k ∧ r = .ok true
  | _, _, _ => False

section Outage

variable {p : BasePair} {outage : Faults V} (hfells : outage.Fells (.map p.primary))
  (hspares : outage.Spares (.map p.secondary)) (name : String)
  (synchronizer : Synchronizer V (MapStore V))
include hfells hspares

/-- A turn of an outage runs nothing and leaves the pair down. What the secondary accepts in it is
there, and so is what was there, unless it was to be removed. -/
theorem wp_outage_turn (op : PlainOp V) (t : Token) {o : Outlook} {w : World V}
    (hw : w.Records p.core o) :
    (Doubling.replicated.marked (p.mapEngine V name synchronizer) t op).wp outage.regime
      (fun r js w' => js = [] ∧ (∃ cause, w'.Records p.core (o.struck cause)) ∧
        ∀ k, op.Accepts k r ∨ op ≠ .remove k ∧ (w.maps.nth p.secondary).content.Lasts k →
          (w'.maps.nth p.secondary).content.Lasts k) w := by
  cases op with
  | add k v overwrite =>
    have hop : Diverts p outage.regime (fun m => m.add k v overwrite t) _ :=
      diverts_call hfells hspares (.add k v overwrite) t (fun _ => rfl) fun _ _ _ _ => rfl
    refine MarkedAction.wp_mono (hop.wp_markedReplicate hw) ?_
    rintro _ js w' ⟨rfl, hrecord, _, rfl, _, now, _, rfl, hcontent⟩
    refine ⟨rfl, hrecord, fun k' hk' => ?_⟩
    rw [hcontent]
    rcases hk' with ⟨rfl, haccepted⟩ | ⟨-, hlasts⟩
    · exact EntryMap.lasts_add (Except.ok.inj haccepted)
    · exact hlasts.add now k v overwrite
  | get k =>
    have hop : Diverts p outage.regime (fun m => m.get k t) _ :=
      diverts_call hfells hspares (.get k) t (fun _ => rfl) fun _ _ _ _ => rfl
    refine MarkedAction.wp_mono (hop.wp_markedFallback hw) ?_
    rintro _ js w' ⟨rfl, hrecord, _, rfl, _, now, _, rfl, hcontent⟩
    refine ⟨rfl, hrecord, fun k' hk' => ?_⟩
    rw [hcontent]
    rcases hk' with haccepted | ⟨-, hlasts⟩
    · exact haccepted.elim
    · exact hlasts.evict now k
  | remove k =>
    have hop : Diverts p outage.regime (fun m => m.remove k t) _ :=
      diverts_call hfells hspares (.remove k) t (fun _ => rfl) fun _ _ _ _ => rfl
    refine MarkedAction.wp_mono (hop.wp_markedReplicate hw) ?_
    rintro _ js w' ⟨rfl, hrecord, _, rfl, _, now, _, rfl, hcontent⟩
    refine ⟨rfl, hrecord, fun k' hk' => ?_⟩
    rw [hcontent]
    rcases hk' with haccepted | ⟨hother, hlasts⟩
    · exact haccepted.elim
    · exact hlasts.erase fun he => hother (congrArg _ he)
  | contains k =>
    have hop : Diverts p outage.regime (fun m => m.contains k t) _ :=
      diverts_call hfells hspares (.contains k) t (fun _ => rfl) fun _ _ _ _ => rfl
    refine MarkedAction.wp_mono (hop.wp_markedFallback hw) ?_
    rintro _ js w' ⟨rfl, hrecord, _, rfl, _, now, _, rfl, hcontent⟩
    refine ⟨rfl, hrecord, fun k' hk' => ?_⟩
    rw [hcontent]
    rcases hk' with haccepted | ⟨-, hlasts⟩
    · exact haccepted.elim
    · exact hlasts.evict now k
  | keys =>
    have hop := diverts_collectKeys hfells hspares "replica" t
    unfold Doubling.marked
    rw [MarkedAction.wp_bind]
    refine MarkedAction.wp_mono (hop.wp_markedFallback hw) ?_
    rintro r js w' ⟨rfl, hrecord, _, -, hcontent⟩
    have hkept : ∀ k, PlainOp.keys (V := V) ≠ .remove k ∧
        (w.maps.nth p.secondary).content.Lasts k → (w'.maps.nth p.secondary).content.Lasts k := by
      rw [hcontent]
      exact fun k hk => hk.2
    cases r with
    | ok ks => exact ⟨rfl, hrecord, fun k hk => hkept k (hk.resolve_left id)⟩
    | error halt => exact ⟨rfl, hrecord, fun k hk => hkept k (hk.resolve_left id)⟩

/-- An outage: nothing is run, the first turn takes the pair down, and what lasts stays. -/
theorem outage_run (turns : List (Turn (PlainOp V))) {o : Outlook} {w : World V}
    (hw : w.Records p.core o) :
    let out := performAll outage.regime
      (fun op t => Doubling.replicated.marked (p.mapEngine V name synchronizer) t op) w turns
    out.1 = [] ∧
    (turns = [] ∧ out.2.Records p.core o ∨ ∃ cause, out.2.Records p.core (o.struck cause)) ∧
    ∀ k, (∀ turn ∈ turns, turn.op ≠ .remove k) → (w.maps.nth p.secondary).content.Lasts k →
      (out.2.maps.nth p.secondary).content.Lasts k := by
  induction turns generalizing w o with
  | nil => exact ⟨rfl, .inl ⟨rfl, hw⟩, fun k _ hk => hk⟩
  | cons turn rest ih =>
    have hnow : (w.atTime turn.time).Records p.core o := ⟨hw.known, hw.record⟩
    obtain ⟨hjs, ⟨cause, hrecord⟩, hkept⟩ :=
      wp_outage_turn hfells hspares name synchronizer turn.op turn.token hnow
    obtain ⟨hrest, hrecords, hlasts⟩ := ih hrecord
    refine ⟨List.append_eq_nil_iff.2 ⟨hjs, hrest⟩, .inr ⟨cause, ?_⟩, fun k hturns hk => ?_⟩
    · rcases hrecords with ⟨-, hend⟩ | ⟨cause', hend⟩
      · exact hend
      · rwa [Outlook.struck_of_down (o.health_struck cause)] at hend
    · refine hlasts k (fun later hmem => hturns later (List.mem_cons_of_mem _ hmem)) ?_
      exact hkept k (.inr ⟨hturns turn List.mem_cons_self, hk⟩)

end Outage

/-- In one of the turns an entry was accepted under a key, and none of the later turns removes it.
-/
def Doubling.AcceptedIn (d : Doubling) (faults : Faults V) (e : Engine V (MapStore V))
    (w : World V) (turns : List (Turn (PlainOp V))) (k : Key) : Prop :=
  ∃ before turn after, turns = before ++ turn :: after ∧
    turn.op.Accepts k (faults.regime.act ((d.serve faults e w before).atTime turn.time)
      (turn.op.on (d.store e) turn.token)).1 ∧
    ∀ later ∈ after, later.op ≠ .remove k

/-- What the secondary accepted in an outage is there at its end. -/
theorem outage_keeps {p : BasePair} {outage : Faults V} (hfells : outage.Fells (.map p.primary))
    (hspares : outage.Spares (.map p.secondary)) (name : String)
    (synchronizer : Synchronizer V (MapStore V)) {turns : List (Turn (PlainOp V))} {o : Outlook}
    {w : World V} (hw : w.Records p.core o) {k : Key}
    (hk : Doubling.replicated.AcceptedIn outage (p.mapEngine V name synchronizer) w turns k) :
    ((Doubling.replicated.serve outage (p.mapEngine V name synchronizer) w turns).maps.nth
      p.secondary).content.Lasts k := by
  obtain ⟨before, turn, after, rfl, haccepts, hafter⟩ := hk
  have hrun := fun turns {o w} =>
    outage_run hfells hspares name synchronizer turns (o := o) (w := w)
  simp only [Doubling.performAll_snd] at hrun
  have hbefore : ∃ o', World.Records p.core o' (Doubling.replicated.serve outage
      (p.mapEngine V name synchronizer) w before) := by
    rcases (hrun before hw).2.1 with ⟨-, h⟩ | ⟨cause, h⟩
    · exact ⟨_, h⟩
    · exact ⟨_, h⟩
  obtain ⟨o', hbefore⟩ := hbefore
  have hnow : World.Records p.core o' ((Doubling.replicated.serve outage
      (p.mapEngine V name synchronizer) w before).atTime turn.time) :=
    ⟨hbefore.known, hbefore.record⟩
  obtain ⟨-, ⟨cause, hrecord⟩, hkept⟩ :=
    wp_outage_turn hfells hspares name synchronizer turn.op turn.token hnow
  rw [← Doubling.erase_marked, MarkedAction.act_erase] at haccepts
  have hthere := hkept k (.inl haccepts)
  have hend := (hrun after hrecord).2.2 k hafter hthere
  unfold Doubling.serve at hend ⊢
  rw [serveAll_append]
  unfold serveAll
  rw [← Doubling.erase_marked, MarkedAction.act_erase]
  exact hend

/-! ## The turn that ends an outage -/

/-- Two base maps that list their keys, at a moment. -/
def BasePair.listed (p : BasePair) : MapMoment :=
  { p with listing := fun _ => True, lasting := fun _ => False }

section Recovery

open Converge

variable {p : BasePair} {calm : Faults V}
  (hcalm : ∀ side, calm.Spares (.map (p.index side))) {w : World V}
include hcalm

/-- A recovery in which no store fails carries over what the secondary has; a refresh of the
primary's own keys carries over only what the primary has too. -/
theorem wp_recovery_run (s : Strategy) (limit : Nat) (hw : (p.listed.view V).Fit w) :
    ((s.synchronizer limit).run (Backend.map p.secondary) (Backend.map p.primary) none).wp
      calm.regime (fun r w' => (∃ report, r = .ok report) ∧
        ∀ k, (((p.listed.view V).scene w).contents .secondary k).isSome →
          (s = .intersection → (((p.listed.view V).scene w).contents .primary k).isSome) →
          (((p.listed.view V).scene w').contents .primary k).isSome) w := by
  have hfrail : ∀ side, ¬ (p.listed.hazard calm).frail side := fun side h => h (hcalm side)
  cases s with
  | copy =>
    have hkeyed : (p.listed.view V).Keyed calm.regime (p.listed.hazard calm) (p.listed.base V) _ :=
      p.listed.keyed fun _ => trivial
    have hrun := hkeyed.converges_copy (fun _ _ _ h => h) limit .secondary .primary (by decide) w hw
    refine Action.wp_mono hrun ?_
    rintro r w' ⟨-, hwrote⟩
    cases hwrote with
    | failed cause side c _ frail _ => exact absurd frail (hfrail side)
    | done report c hc eq =>
      refine ⟨⟨report, rfl⟩, fun k hk _ => ?_⟩
      rw [eq, Scene.contents_put_self, hc]
      exact hk
  | differential =>
    have hsupplies : (p.listed.view V).Supplies calm.regime _ .secondary .primary _ _ _ :=
      MapMoment.supplies (by decide) trivial
    refine Action.wp_mono (hsupplies.wp_run limit hw rfl rfl) ?_
    rintro r w' ⟨-, hwrote⟩
    cases hwrote with
    | failed cause side c _ frail _ => exact absurd frail (hfrail side)
    | done report c hc eq =>
      refine ⟨⟨report, rfl⟩, fun k hk _ => ?_⟩
      rw [eq, Scene.contents_put_self, hc, Option.isSome_or, hk, Bool.or_true]
  | intersection =>
    have hrefreshes : (p.listed.view V).Refreshes calm.regime _ .secondary .primary _ _ _ :=
      MapMoment.refreshes (by decide) trivial
    refine Action.wp_mono (hrefreshes.wp_run limit hw rfl rfl) ?_
    rintro r w' ⟨-, hwrote⟩
    cases hwrote with
    | failed cause side c _ frail _ => exact absurd frail (hfrail side)
    | done report c hc eq =>
      refine ⟨⟨report, rfl⟩, fun k hk hthere => ?_⟩
      rw [eq, Scene.contents_put_self, hc, if_pos (hthere rfl)]
      exact hk

end Recovery

/-- How an outage ends: by one recovery that went well, after which the pair is up and the primary
has what the secondary had of `secondary`, given what it had itself. -/
structure Carried (p : BasePair) (s : Converge.Strategy) (o : Outlook)
    (primary secondary : Entries V) (js : List (Span (World V))) (w : World V) : Prop where
  journal : ∃ start report finish, js = [⟨.recovery, start, .ok report, finish⟩]
  record : w.Records p.core o.recover
  carried : ∀ k, (secondary k).isSome → (s = .intersection → (primary k).isSome) →
    (((p.listed.view V).scene w).contents .primary k).isSome

section LastTurn

open Converge

variable {p : BasePair} {calm : Faults V}
  (hcalm : ∀ side, calm.Spares (.map (p.index side))) {w : World V} {o : Outlook}
  (s : Strategy) (limit : Nat) (name : String)
include hcalm

theorem wp_recovering_carries (hw : (p.listed.view V).Fit w) (hrecord : w.Records p.core o)
    (hdown : o.health = .down) (a : α) :
    MarkedAction.wp calm.regime
      (do (p.mapEngine V name (s.synchronizer limit)).markedRecoverIfDown; return a)
      (fun _ js w' => Carried p s o (((p.listed.view V).scene w).contents .primary)
        (((p.listed.view V).scene w).contents .secondary) js w') w := by
  have hkin : (p.mapEngine V name (s.synchronizer limit)).Kin
      (p.mapEngine V name (s.synchronizer limit)) :=
    .root (Engine.runsApart_maps p.core name p.primary p.secondary s limit)
  have hkept := hrecord.wp calm.leavesRecords (hkin.root_runsApart none).2
  have hrun := wp_recovery_run hcalm s limit hw
  rw [MarkedAction.wp_bind,
    Engine.wp_markedRecoverIfDown_iff Engine.isRoot_root hkin hrecord hdown]
  refine Action.wp_mono (Action.wp_and hrun hkept) ?_
  rintro _ finish ⟨⟨⟨report, rfl⟩, hcarried⟩, hafter⟩
  exact ⟨⟨w, report, finish, rfl⟩, hafter.markUp, hcarried⟩

variable (op : MapStore V → Action V α) {eff : Effect (Entries V) α}
  (hop : (p.listed.view V).Carries calm.regime (p.listed.hazard calm)
    (fun side => op (p.listed.base V side)) eff)
  (hapart : ∀ i, (op (Backend.map i)).Avoids p.core)

include hop hapart

/-- Where no store fails, an operation is carried out. -/
theorem wp_side (side : Side) (hw : (p.listed.view V).Fit w) (hrecord : w.Records p.core o) :
    (op (p.listed.base V side)).wp calm.regime (fun r w' => (p.listed.view V).Fit w' ∧
      w'.Records p.core o ∧ (∃ a, r = .ok a) ∧ (p.listed.view V).scene w' =
        ((p.listed.view V).scene w).put side
          (eff.after (((p.listed.view V).scene w).contents side))) w := by
  have hkept := hrecord.wp calm.leavesRecords (hapart (p.index side))
  refine Action.wp_mono (Action.wp_and (hop side w hw) hkept) ?_
  rintro r w' ⟨⟨hw', htried⟩, hafter⟩
  obtain ⟨hok, hscene⟩ := htried.done_of_not_frail fun h => h (hcalm side)
  exact ⟨hw', hafter, hok, hscene⟩

theorem wp_markedFallback_carries (hid : eff.after = id) (hw : (p.listed.view V).Fit w)
    (hrecord : w.Records p.core o) (hdown : o.health = .down) :
    ((p.mapEngine V name (s.synchronizer limit)).markedFallback fun m => liftM (op m)).wp
      calm.regime (fun _ js w' => Carried p s o
        (eff.after (((p.listed.view V).scene w).contents .primary))
        (eff.after (((p.listed.view V).scene w).contents .secondary)) js w') w := by
  unfold Engine.markedFallback
  rw [MarkedAction.wp_bind, MarkedAction.wp_attempt, MarkedAction.wp_lift]
  refine Action.wp_mono (wp_side hcalm op hop hapart .primary hw hrecord) ?_
  rintro _ w₁ ⟨hw₁, hrecord₁, ⟨a, rfl⟩, hscene⟩
  have hend := wp_recovering_carries hcalm s limit name hw₁ hrecord₁ hdown a
  rw [hscene, hid, id, Scene.put_contents] at hend
  rw [hid]
  exact hend

theorem wp_markedReplicate_carries (hw : (p.listed.view V).Fit w) (hrecord : w.Records p.core o)
    (hdown : o.health = .down) :
    ((p.mapEngine V name (s.synchronizer limit)).markedReplicate fun m => liftM (op m)).wp
      calm.regime (fun _ js w' => Carried p s o
        (eff.after (((p.listed.view V).scene w).contents .primary))
        (eff.after (((p.listed.view V).scene w).contents .secondary)) js w') w := by
  unfold Engine.markedReplicate
  rw [MarkedAction.wp_bind, MarkedAction.wp_attempt, MarkedAction.wp_lift]
  refine Action.wp_mono (wp_side hcalm op hop hapart .primary hw hrecord) ?_
  rintro _ w₁ ⟨hw₁, hrecord₁, ⟨a, rfl⟩, hscene₁⟩
  rw [MarkedAction.attempted, MarkedAction.andThen_ok, MarkedAction.wp_bind,
    MarkedAction.wp_attempt, MarkedAction.wp_lift]
  refine Action.wp_mono (wp_side hcalm op hop hapart .secondary hw₁ hrecord₁) ?_
  rintro _ w₂ ⟨hw₂, hrecord₂, ⟨b, rfl⟩, hscene₂⟩
  have hend := wp_recovering_carries hcalm s limit name hw₂ hrecord₂ hdown a
  rw [hscene₂, hscene₁, Scene.contents_put_self, Scene.primary_put_secondary,
    Scene.contents_put_self, Scene.secondary_put_primary] at hend
  exact hend

end LastTurn

/-- The first turn in which no store fails ends the outage. -/
theorem wp_last_turn {p : BasePair} {calm : Faults V}
    (hcalm : ∀ side, calm.Spares (.map (p.index side))) {w : World V} {o : Outlook}
    (s : Converge.Strategy) (limit : Nat) (name : String) (op : PlainOp V) (t : Token)
    (hw : (p.listed.view V).Fit w) (hrecord : w.Records p.core o) (hdown : o.health = .down) :
    (Doubling.replicated.marked (p.mapEngine V name (s.synchronizer limit)) t op).wp calm.regime
      (fun _ js w' => Carried p s o
        (op.after (((p.listed.view V).scene w).contents .primary))
        (op.after (((p.listed.view V).scene w).contents .secondary)) js w') w := by
  cases op with
  | add k v overwrite =>
    exact wp_markedReplicate_carries hcalm s limit name (fun m => m.add k v overwrite t)
      (MapMoment.carries_add k v overwrite t) (fun i => (Backend.apart_map i).add k v overwrite t)
      hw hrecord hdown
  | get k =>
    exact wp_markedFallback_carries hcalm s limit name (fun m => m.get k t)
      (MapMoment.carries_get k t) (fun i => (Backend.apart_map i).get k t) rfl hw hrecord hdown
  | remove k =>
    exact wp_markedReplicate_carries hcalm s limit name (fun m => m.remove k t)
      (MapMoment.carries_remove k t) (fun i => (Backend.apart_map i).remove k t) hw hrecord hdown
  | contains k =>
    exact wp_markedFallback_carries hcalm s limit name (fun m => m.contains k t)
      (MapMoment.carries_contains k t) (fun _ => Action.avoids_call _ _) rfl hw hrecord hdown
  | keys =>
    have hkeyed : (p.listed.view V).Keyed calm.regime (p.listed.hazard calm) (p.listed.base V) _ :=
      p.listed.keyed fun _ => trivial
    have hread := wp_markedFallback_carries hcalm s limit name (fun m => m.collectKeys "replica" t)
      (hkeyed.carries_collectKeys "replica" t) (fun i => (Backend.apart_map i).collectKeys _ t) rfl
      hw hrecord hdown
    unfold Doubling.marked
    rw [MarkedAction.wp_bind]
    refine MarkedAction.wp_mono hread ?_
    intro r js w' hend
    cases r with
    | error halt => exact hend
    | ok ks =>
      rw [MarkedAction.andThen_ok, MarkedAction.wp_pure, List.append_nil]
      exact hend

/-- **Recovery carries the outage writes**, whatever the strategy, the operations and their times:
after an outage of a replicated pair in which the secondary never fails, the first turn in which
neither store fails runs one recovery, the outage has been announced once and its end once, and the
primary has every key that the secondary accepted during the outage and that nobody removed since.
A pair that recovers by refreshing the primary's own keys is left with those of these keys that the
primary has when the last turn comes, or that the last turn adds. -/
theorem recovery_carries_outage_writes {p : BasePair} {outage calm : Faults V}
    (hfells : outage.Fells (.map p.primary)) (hspares : outage.Spares (.map p.secondary))
    (hcalm : ∀ side, calm.Spares (.map (p.index side))) (s : Converge.Strategy) (limit : Nat)
    (name : String) {w : World V} {o : Outlook}
    (hlists : ∀ side, (w.maps.nth (p.index side)).grants.keys = true)
    (hrecord : w.Records p.core o) (hup : o.health = .up) (turns : List (Turn (PlainOp V)))
    (hne : turns ≠ []) (last : Turn (PlainOp V)) :
    let e := p.mapEngine V name (s.synchronizer limit)
    let middle := Doubling.replicated.serve outage e w turns
    let after := Doubling.replicated.serve calm e middle [last]
    Doubling.replicated.journal outage e w turns = [] ∧
    (∃ start report finish, Doubling.replicated.journal calm e middle [last] =
      [⟨.recovery, start, .ok report, finish⟩]) ∧
    (∃ cause, after.Records p.core (o.fail cause).recover) ∧
    ∀ k, Doubling.replicated.AcceptedIn outage e w turns k → last.op ≠ .remove k →
      (s = .intersection → ((middle.maps.nth p.primary).content.live? last.time k).isSome ∨
        ∃ v overwrite, last.op = .add k v overwrite) →
      ((after.maps.nth p.primary).content.live? after.clock k).isSome := by
  intro e middle after
  have hrun := outage_run hfells hspares name (s.synchronizer limit) turns hrecord
  have hmiddle : ∃ cause, middle.Records p.core (o.fail cause) := by
    rcases hrun.2.1 with ⟨hnil, -⟩ | ⟨cause, h⟩
    · exact absurd hnil hne
    · rw [Doubling.performAll_snd] at h
      unfold Outlook.struck at h
      rw [if_pos hup] at h
      exact ⟨cause, h⟩
  obtain ⟨cause, hdown⟩ := hmiddle
  have hfit : (p.listed.view V).Fit (middle.atTime last.time) := by
    refine fun side => ⟨fun h => h.elim, fun _ => ?_⟩
    exact (congrArg Grants.keys (serveAll_grants outage _ w turns (p.index side))).trans
      (hlists side)
  have hnow : (middle.atTime last.time).Records p.core (o.fail cause) :=
    ⟨hdown.known, hdown.record⟩
  have hlast := wp_last_turn hcalm s limit name last.op last.token hfit hnow rfl
  have hafter : after = (MarkedAction.perform calm.regime (middle.atTime last.time)
      (Doubling.replicated.marked e last.token last.op)).2.2 :=
    (Doubling.replicated.performAll_snd calm e middle [last]).symm
  have hjournal : Doubling.replicated.journal calm e middle [last] = (MarkedAction.perform
      calm.regime (middle.atTime last.time)
      (Doubling.replicated.marked e last.token last.op)).2.1 :=
    List.append_nil _
  rw [hafter, hjournal]
  refine ⟨hrun.1, hlast.journal, ⟨cause, hlast.record⟩, fun k hk hremains hthere => ?_⟩
  have hlasts := outage_keeps hfells hspares name (s.synchronizer limit) hrecord hk
  refine hlast.carried k ?_ fun hs => ?_
  · exact last.op.isSome_after hremains (hlasts.live? last.time)
  · rcases hthere hs with hheld | ⟨v, overwrite, hadd⟩
    · exact last.op.isSome_after hremains hheld
    · rw [hadd]
      exact PlainOp.isSome_after_add _ k v overwrite

/-- During the outage one entry is added, replaced and kept, another removed again; the pair
recovers by adding what the primary lacks. -/
theorem recovery_carries_after_mixed_outage :
    let p := (MapPair.twins 0).toBasePair
    let e := p.mapEngine Nat "pair" (Converge.Strategy.differential.synchronizer 1000)
    let w := World.twinMaps [(.number 1, 10)]
    let turns : List (Turn (PlainOp Nat)) :=
      [{ op := .add (.number 2) 7 false }, { op := .add (.number 3) 9 false },
        { op := .add (.number 2) 8 true, time := 5 }, { op := .remove (.number 3) },
        { op := .keys }]
    let middle := Doubling.replicated.serve (Faults.felling (.map 0)) e w turns
    let after := Doubling.replicated.serve (Faults.hitting []) e middle [{ op := .get (.number 1) }]
    (after.engines.nth 0).health = .up ∧ (after.engines.nth 0).events.length = 3 ∧
      ((after.maps.nth 0).content.live? after.clock (.number 2)).isSome := by
  intro p e w turns middle after
  have h := recovery_carries_outage_writes (p := p) (Faults.fells_felling (.map 0))
    (Faults.spares_felling (by decide)) (fun side => Faults.spares_hitting_nil _) .differential 1000
    "pair" (fun side => by cases side <;> rfl) (⟨by decide, rfl⟩ : w.Records 0 (w.engines.nth 0))
    rfl turns (by simp [turns]) { op := .get (.number 1) }
  obtain ⟨-, -, ⟨cause, hrecord⟩, hcarried⟩ := h
  have haccepted : Doubling.replicated.AcceptedIn (Faults.felling (.map 0)) e w turns
      (.number 2) := by
    exact ⟨[], { op := .add (.number 2) 7 false }, _, rfl, ⟨rfl, rfl⟩, by simp⟩
  have hend : after.engines.nth 0 = ((w.engines.nth 0).fail cause).recover := hrecord.record
  rw [hend]
  refine ⟨rfl, rfl, ?_⟩
  exact hcarried (.number 2) haccepted (by simp) (by simp)

/-- A recovery that refreshes the primary's own keys leaves out an entry that the secondary
accepted. -/
theorem refresh_leaves_outage_write :
    let p := (MapPair.twins 0).toBasePair
    let e := p.mapEngine Nat "pair" (Converge.Strategy.intersection.synchronizer 1000)
    let w := World.twinMaps [(.number 1, 10)]
    let turns : List (Turn (PlainOp Nat)) := [{ op := .add (.number 2) 7 false }]
    let middle := Doubling.replicated.serve (Faults.felling (.map 0)) e w turns
    let after := Doubling.replicated.serve (Faults.hitting []) e middle [{ op := .get (.number 1) }]
    Doubling.replicated.AcceptedIn (Faults.felling (.map 0)) e w turns (.number 2) ∧
      (after.engines.nth 0).health = .up ∧
      (after.maps.nth 0).content.live? after.clock (.number 2) = none := by
  intro p e w turns middle after
  refine ⟨⟨[], { op := .add (.number 2) 7 false }, [], rfl, ⟨rfl, rfl⟩, by simp⟩, ?_⟩
  decide +kernel

end TwinStore
