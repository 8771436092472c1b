import TwinStore.Proofs.Refreshing
import TwinStore.Proofs.Turns

/-!
# Pairs of base maps at a moment

Where entries may expire, what a map holds depends on the time. A `MapMoment` is a pair of base maps
seen by what they hold at the moment (`MapMoment.view`), with no horizon: while a program runs alone
no time passes (`Faults.act_clock`), so its calls do to what is there what their effects say
(`MapMoment.wp_op`), and all three ways to bring a map to a map can be run between the two
(`keyed`, `refreshes`, `supplies`). Between programs time may pass: entries without a deadline stay
(`contents_atTime_of_lasting`), and what is there was there before (`contents_of_atTime`).

Which of the two maps list their keys, and which hold nothing that expires, is left to the moment.
-/

namespace TwinStore

variable {V α : Type}

/-! ## No time passes -/

/-- While a program runs alone no time passes. -/
theorem Faults.act_clock (faults : Faults V) (w : World V) (a : Action V α) :
    (faults.regime.act w a).2.clock = w.clock := by
  refine Regime.run_frame World.clock (fun r w => ?_) w a.run
  cases r with
  | call c t =>
    exact World.callUnder_frame World.clock (fun _ _ => rfl) c (fun _ => by cases c <;> rfl) w
      (faults w.visits.length c) t
  | _ => rfl

/-- What base maps grant stays as it is. -/
theorem Faults.act_grants (faults : Faults V) (w : World V) (a : Action V α) (i : Nat) :
    ((faults.regime.act w a).2.maps.nth i).grants = (w.maps.nth i).grants := by
  have hperform : ∀ (c : Call V) (w : World V),
      ((w.perform c).2.maps.nth i).grants = (w.maps.nth i).grants := by
    intro c w
    cases c with
    | map j op =>
      by_cases hj : j = i
      · subst hj
        simp [World.perform]
      · simp [World.perform, Shelf.nth_put_of_ne _ _ hj]
    | _ => rfl
  refine Regime.run_frame (fun w : World V => (w.maps.nth i).grants) (fun r w => ?_) w a.run
  cases r with
  | call c t =>
    exact World.callUnder_frame (fun w : World V => (w.maps.nth i).grants) (fun _ _ => rfl) c
      (hperform c) w (faults w.visits.length c) t
  | _ => rfl

theorem serveAll_grants {Op : Type} {A : Op → Type} (faults : Faults V)
    (serve : (op : Op) → Token → Action V (A op)) (w : World V) (turns : List (Turn Op)) (i : Nat) :
    ((serveAll faults.regime serve w turns).maps.nth i).grants = (w.maps.nth i).grants := by
  induction turns generalizing w with
  | nil => rfl
  | cons turn rest ih =>
    unfold serveAll
    rw [ih, faults.act_grants]
    rfl

/-- A base store lists its keys if it grants that. -/
theorem wp_requireKeys {g : Regime V} {w : World V} {m : KeyedStore V α} {site : Site}
    (hm : m.canList = Grants.keys <$> Backend.grants site) (role : String)
    (post : Except Halt Unit → World V → Prop) :
    (m.requireKeys role).wp g post w ↔
      if (w.grants site).keys then post (.ok ()) w
      else post (.error (.failed (.missingCapability role "KeysMap"))) w := by
  unfold KeyedStore.requireKeys
  rw [Action.wp_bind, hm]
  change Action.wp g (ExceptT.lift (Grants.keys <$> Backend.grants site)) _ w ↔ _
  rw [Action.wp_lift]
  change Action.wp g (if !(w.grants site).keys then _ else _) post w ↔ _
  cases (w.grants site).keys <;> exact Iff.rfl

theorem wp_requireKeys_map {g : Regime V} {w : World V} {i : Nat} (role : String)
    (post : Except Halt Unit → World V → Prop) :
    ((Backend.map i).requireKeys role).wp g post w ↔
      if (w.maps.nth i).grants.keys then post (.ok ()) w
      else post (.error (.failed (.missingCapability role "KeysMap"))) w :=
  wp_requireKeys (show (Backend.map i).canList = Grants.keys <$> Backend.grants (.map i) from rfl)
    role post

namespace EntryMap

/-- A slot without a deadline is there at any time. -/
theorem live?_of_lasting {m : EntryMap V} {k : Key} {v : V} (h : m.slots[k]? = some { value := v })
    (now : Nat) : m.live? now k = some v := by
  simp [EntryMap.live?, h, Slot.isExpired]

/-- Where no slot has a deadline, time changes nothing. -/
theorem Every.live?_eq {m : EntryMap V} (h : m.Every (·.deadline = none)) (now later : Nat) :
    m.live? later = m.live? now := by
  funext k
  cases hs : m.slots[k]? with
  | none => simp [EntryMap.live?, hs]
  | some slot =>
    have hd := h k slot hs
    simp [EntryMap.live?, hs, Slot.isExpired, hd]

/-- What is live at a later time was live before. -/
theorem live?_of_later {m : EntryMap V} {now later : Nat} (hle : now ≤ later) {k : Key} {v : V}
    (h : m.live? later k = some v) : m.live? now k = some v := by
  rw [live?_eq_some_iff] at h ⊢
  obtain ⟨slot, hs, hx, hv⟩ := h
  refine ⟨slot, hs, ?_, hv⟩
  unfold Slot.isExpired at hx ⊢
  cases hd : slot.deadline with
  | none => rfl
  | some d =>
    rw [hd] at hx
    simp only [Option.any_some, decide_eq_false_iff_not] at hx ⊢
    omega

/-- A deadline that has come already removes the entry. -/
theorem live?_expireAt_now (m : EntryMap V) (now : Nat) (k : Key) :
    (m.expireAt now k now).2.live? now = Entries.set (m.live? now) k none := by
  funext k'
  unfold expireAt
  split
  · rw [live?_insert]
    by_cases hk : k = k'
    · subst hk
      simp [Slot.isExpired]
    · rw [if_neg hk, Entries.set_of_ne _ _ hk]
  · rename_i hnone
    by_cases hk : k = k'
    · subst hk
      rw [Entries.set_self, hnone]
    · rw [Entries.set_of_ne _ _ hk]

end EntryMap

/-- Let an entry expire after some time: with no time left it is gone at once. -/
def Entries.expiring (k : Key) (ttl : Nat) : Effect (Entries V) Bool where
  after c := if ttl = 0 then c.set k none else c
  answers c a := a = (c k).isSome

/-! ## The view -/

/-- Two base maps and a health record; which of the maps list their keys, and which hold nothing
that expires. -/
structure MapMoment extends BasePair where
  listing : Side → Prop
  lasting : Side → Prop

namespace MapMoment

variable (p : MapMoment)

/-- The map on a side is as it should be. -/
structure Holds (w : World V) (side : Side) : Prop where
  lasts : p.lasting side → (w.maps.nth (p.index side)).content.Every (·.deadline = none)
  lists : p.listing side → (w.maps.nth (p.index side)).grants.keys = true

/-- Two base maps, seen by what they hold at the moment. -/
def view (V : Type) : View V (Entries V) where
  core := p.core
  site side := .map (p.index side)
  contents w side := (w.maps.nth (p.index side)).content.live? w.clock
  Fit w := ∀ side, p.Holds w side
  contents_congr := by
    intro w w' h
    simp only [World.stores, Prod.mk.injEq] at h
    rw [h.1, h.2.1]
  fit_congr := by
    intro w w' h
    simp only [World.stores, Prod.mk.injEq] at h
    rintro hholds side
    refine ⟨?_, ?_⟩
    · rw [h.2.1]
      exact (hholds side).lasts
    · rw [h.2.1]
      exact (hholds side).lists
  site_injective h := p.index_injective (Site.map.inj h)

/-- What may go wrong with the two maps. -/
def hazard (faults : Faults V) : Hazard (Entries V) :=
  (p.view V).hazard faults Entries.Mixed

/-- The base map on a side. -/
def base (V : Type) (p : MapMoment) (side : Side) : MapStore V :=
  Backend.map (p.index side)

variable {p} {w : World V} {side : Side} {faults : Faults V}

/-! ## Time -/

theorem fit_atTime (hw : (p.view V).Fit w) (time : Nat) : (p.view V).Fit (w.atTime time) :=
  fun side => ⟨(hw side).lasts, (hw side).lists⟩

/-- Where nothing expires, time changes nothing. -/
theorem contents_atTime_of_lasting (hw : (p.view V).Fit w) (hside : p.lasting side) (time : Nat) :
    ((p.view V).scene (w.atTime time)).contents side = ((p.view V).scene w).contents side :=
  ((hw side).lasts hside).live?_eq w.clock time

/-- What a store contains at a later time it contained before. -/
theorem contents_of_atTime {time : Nat} (hle : w.clock ≤ time) {k : Key} {x : V}
    (h : ((p.view V).scene (w.atTime time)).contents side k = some x) :
    ((p.view V).scene w).contents side k = some x :=
  EntryMap.live?_of_later hle h

/-! ## Calls -/

theorem scene_perform (side : Side) (op : MapOp V) :
    (p.view V).scene (w.perform (.map (p.index side) op)).2 =
      ((p.view V).scene w).put side
        ((op.apply w.arrangement w.clock w.date (w.maps.nth (p.index side)).content).2.live?
          w.clock) :=
  MapPair.scene_perform (p := { p.toBasePair with horizon := 0 }) side op

theorem fit_perform (hw : (p.view V).Fit w) (side : Side) (op : MapOp V)
    (h : p.lasting side → (op.apply w.arrangement w.clock w.date
      (w.maps.nth (p.index side)).content).2.Every (·.deadline = none)) :
    (p.view V).Fit (w.perform (.map (p.index side) op)).2 := by
  intro side'
  by_cases he : side' = side
  · subst he
    refine ⟨?_, ?_⟩
    · simpa [World.perform] using h
    · simpa [World.perform] using (hw side').lists
  · have hne : p.index side ≠ p.index side' := fun h => he (p.index_injective h).symm
    refine ⟨?_, ?_⟩
    · simpa [World.perform, Shelf.nth_put_of_ne _ _ hne] using (hw side').lasts
    · simpa [World.perform, Shelf.nth_put_of_ne _ _ hne] using (hw side').lists

/-- A call does to what its map holds what the operation does to the map, or fails. -/
theorem wp_op (side : Side) (op : MapOp V) {eff : Effect (Entries V) op.Answer} (t : Token)
    (hwhole : ∀ i n cause a, (Call.map i op).failAfter n cause a = none)
    (hlasts : p.lasting side → ∀ arrangement now date (m : EntryMap V),
      m.Every (·.deadline = none) → (op.apply arrangement now date m).2.Every (·.deadline = none))
    (happly : ∀ arrangement now date (m : EntryMap V),
      (op.apply arrangement now date m).2.live? now = eff.after (m.live? now) ∧
        eff.answers (m.live? now) (op.apply arrangement now date m).1)
    (hw : (p.view V).Fit w) :
    (Backend.onMap (p.index side) op t).wp faults.regime (fun r w' => (p.view V).Fit w' ∧
      Scene.Tried (p.hazard faults) eff side ((p.view V).scene w) ((p.view V).scene w') r) w := by
  refine View.wp_call (v := p.view V) rfl hw ?_ ?_ ?_
  · intro w' hw' hsame
    obtain ⟨hafter, hanswer⟩ := happly w'.arrangement w'.clock w'.date
      (w'.maps.nth (p.index side)).content
    have hfit := fit_perform hw' side op fun hside =>
      hlasts hside w'.arrangement w'.clock w'.date _ ((hw' side).lasts hside)
    refine ⟨hfit, .done _ ?_ ?_⟩
    · rw [← hsame]
      exact hanswer
    · rw [← hsame, scene_perform, hafter]
      rfl
  · intro cause w' hfrail hw' hblame
    exact ⟨hw', .failed cause hfrail hblame⟩
  · intro cause n a w' _ _ _ ha
    rw [hwhole] at ha
    cases ha

theorem carries_add (k : Key) (x : V) (overwrite : Bool) (t : Token) :
    (p.view V).Carries faults.regime (p.hazard faults)
      (fun side => (p.base V side).add k x overwrite t) (Entries.adding k x overwrite) := by
  intro side w hw
  refine wp_op side (.add k x overwrite) t (fun _ _ _ _ => rfl) ?_ ?_ hw
  · intro _ _ now _ m hm
    simp only [MapOp.apply, EntryMap.add]
    split
    · exact hm
    · exact EntryMap.Every.insert hm k rfl
  · intro _ now _ m
    simp only [MapOp.apply, EntryMap.add, Entries.adding]
    split
    · simp [*]
    · refine ⟨?_, by simp [*]⟩
      funext k'
      exact m.live?_put now k k' x

theorem carries_get (k : Key) (t : Token) :
    (p.view V).Carries faults.regime (p.hazard faults)
      (fun side => (p.base V side).get k t) (Entries.reading k) := by
  intro side w hw
  refine wp_op side (.get k) t (fun _ _ _ _ => rfl) (fun _ _ _ _ _ hm => hm.evict k) ?_ hw
  exact fun _ now _ m => ⟨funext fun k' => m.live?_get now k k', rfl⟩

theorem carries_remove (k : Key) (t : Token) :
    (p.view V).Carries faults.regime (p.hazard faults)
      (fun side => (p.base V side).remove k t) (Entries.removing k) := by
  intro side w hw
  refine wp_op side (.remove k) t (fun _ _ _ _ => rfl) (fun _ _ _ _ _ hm => hm.erase k) ?_ hw
  exact fun _ now _ m => ⟨funext fun k' => m.live?_remove now k k', rfl⟩

theorem carries_contains (k : Key) (t : Token) :
    (p.view V).Carries faults.regime (p.hazard faults)
      (fun side => (p.base V side).contains k t) (Entries.finding k) := by
  intro side w hw
  refine wp_op side (.contains k) t (fun _ _ _ _ => rfl) (fun _ _ _ _ _ hm => hm.evict k) ?_ hw
  exact fun _ now _ m => ⟨funext fun k' => m.live?_contains now k k', rfl⟩

/-- Where entries may expire, they can be made to. -/
theorem wp_expire (hside : ¬ p.lasting side) (k : Key) (ttl : Nat) (t : Token)
    (hw : (p.view V).Fit w) :
    ((p.base V side).expire k ttl t).wp faults.regime (fun r w' => (p.view V).Fit w' ∧
      Scene.Tried (p.hazard faults) (Entries.expiring k ttl) side ((p.view V).scene w)
        ((p.view V).scene w') r) w := by
  refine wp_op side (.expire k ttl) t (fun _ _ _ _ => rfl) (fun h => absurd h hside) ?_ hw
  intro _ now _ m
  refine ⟨?_, ?_⟩
  · unfold Entries.expiring
    dsimp only
    split
    · rename_i hzero
      subst hzero
      exact m.live?_expireAt_now now k
    · funext k'
      exact m.live?_expireAt_of_lt now k k' (by omega)
  · change (m.expireAt now k (now + ttl)).1 = (m.live? now k).isSome
    unfold EntryMap.expireAt
    split <;> simp [*]

/-- Putting the expiry of an entry off removes the entry, if no time is left, or changes nothing
that can be seen. -/
theorem wp_touch (hside : ¬ p.lasting side) (k : Key) (ttl : Nat) (t : Token)
    (hw : (p.view V).Fit w) :
    ((p.base V side).touch k ttl t).wp faults.regime (fun r w' => (p.view V).Fit w' ∧
      (∃ r', r = Except.mapError Halt.failed r') ∧
        (((p.view V).scene w').contents = ((p.view V).scene w).contents ∨
          ((p.view V).scene w').contents = (((p.view V).scene w).put side
            ((((p.view V).scene w).contents side).set k none)).contents)) w := by
  unfold KeyedStore.touch
  rw [Action.wp_bind]
  change Action.wp _ (ExceptT.lift (p.base V side).canExpire) _ w
  rw [Action.wp_lift, Action.andThen_ok]
  change Action.wp _ (if (w.maps.nth (p.index side)).grants.expiry then _ else _) _ w
  split
  · refine Action.wp_mono (wp_expire hside k ttl t hw) ?_
    rintro r w' ⟨hw', hexpired⟩
    cases hexpired with
    | failed cause frail eq =>
      exact ⟨hw', ⟨.error cause, rfl⟩, .inl (by rw [eq, Scene.contents_blame])⟩
    | done found answers eq =>
      refine ⟨hw', ⟨.ok found, rfl⟩, ?_⟩
      dsimp only [Entries.expiring] at eq
      by_cases hnow : ttl = 0
      · rw [if_pos hnow] at eq
        exact .inr (congrArg Scene.contents eq)
      · rw [if_neg hnow, Scene.put_contents] at eq
        exact .inl (congrArg Scene.contents eq)
  · exact ⟨hw, ⟨.ok false, rfl⟩, .inl rfl⟩

/-! ## Listings and runs -/

/-- The keys of a map, whether it grants to list them or not. -/
theorem wp_keys (side : Side) (t : Token) (hw : (p.view V).Fit w) :
    ((p.base V side).keys t).wp faults.regime (fun r w' => (p.view V).Fit w' ∧
      Scene.Listed (p.hazard faults) side ((p.view V).scene w) ((p.view V).scene w') r) w := by
  -- Listing puts back what the map holds.
  have hback : ∀ w', (p.view V).scene (w'.perform (.map (p.index side) .keys)).2 =
      (p.view V).scene w' := by
    intro w'
    rw [scene_perform]
    exact Scene.put_contents _ side
  have hmem : ∀ w' k, k ∈ w'.arrangement.keys ((w'.maps.nth (p.index side)).content.keys
      w'.clock) ↔ (((p.view V).scene w').contents side k).isSome := fun w' k =>
    MapPair.mem_listed (p := { p.toBasePair with horizon := 0 }) w' side k
  have hlists := View.wp_listing (v := p.view V) (c := .map (p.index side) .keys)
    (t := t) faults Entries.Mixed rfl id
    (fun w' hw' => ⟨fit_perform hw' side .keys (hw' side).lasts, hback w', _, rfl, hmem w'⟩)
    (fun _ _ _ _ h => (Option.some.inj h).symm) hw
  refine Action.wp_mono hlists ?_
  rintro (halt | l) w' hlisted <;> exact hlisted

theorem lists (hside : p.listing side) :
    (p.view V).Lists faults.regime (p.hazard faults) side (p.base V side) where
  canList w hw := by
    change ((w.maps.nth (p.index side)).grants.keys, w) = (true, w)
    rw [(hw side).lists hside]
  keys t w hw := wp_keys side t hw

/-- A value that is read stands for itself. -/
theorem wp_get (side : Side) (k : Key) (t : Token) (hw : (p.view V).Fit w) :
    ((p.base V side).get k t).wp faults.regime (fun r w' => (p.view V).Fit w' ∧
      Scene.Tried (p.hazard faults) (Entries.fetching k (· = ·)) side ((p.view V).scene w)
        ((p.view V).scene w') r) w := by
  refine Action.wp_mono (carries_get k t side w hw) ?_
  rintro r w' ⟨hw', htried⟩
  refine ⟨hw', ?_⟩
  cases htried with
  | failed cause frail eq => exact .failed cause frail eq
  | done a answers eq =>
    refine .done a ?_ eq
    cases hx : ((p.view V).scene w).contents side k with
    | none => exact .inl ⟨hx, (answers : a = _).trans hx⟩
    | some x => exact .inr ⟨x, x, hx, (answers : a = _).trans hx, rfl⟩

/-- An addition to one map is a write of its contents. -/
theorem wp_add (target : Side) (k : Key) (x : V) (overwrite : Bool) (t : Token)
    (hw : (p.view V).Fit w) :
    ((p.base V target).add k x overwrite t).wp faults.regime (fun r w' => (p.view V).Fit w' ∧
      Scene.Wrote (p.hazard faults)
        (fun _ c => c = (Entries.adding k x overwrite).after
          (((p.view V).scene w).contents target))
        (· = ((p.view V).scene w).contents target) target ((p.view V).scene w)
        ((p.view V).scene w') r) w := by
  refine Action.wp_mono (carries_add k x overwrite t target w hw) ?_
  rintro r w' ⟨hw', htried⟩
  refine ⟨hw', ?_⟩
  cases htried with
  | failed cause frail eq => exact .of_blame cause rfl rfl frail eq
  | done a _ eq => exact .done a _ rfl eq

theorem keyed (hlists : ∀ side, p.listing side) :
    (p.view V).Keyed faults.regime (p.hazard faults) (p.base V) fun _ _ x y => x = y where
  canList side w hw := (lists (hlists side)).canList w hw
  keys side t w hw := (lists (hlists side)).keys t w hw
  get side k t w hw := wp_get side k t hw
  add source target k x y t w _ hstands hw _ := by
    cases hstands
    exact wp_add target k x true t hw
  remove k t := carries_remove k t

theorem refreshes {source target : Side} (hne : source ≠ target) (hlists : p.listing target) :
    (p.view V).Refreshes faults.regime (p.hazard faults) source target (p.base V source)
      (p.base V target) fun _ x y => x = y where
  ne := hne
  lists := lists hlists
  get k t w hw := wp_get source k t hw
  add k x y t w hstands hw _ := by
    cases hstands
    exact wp_add target k x true t hw
  remove k t w hw := carries_remove k t target w hw

theorem supplies {source target : Side} (hne : source ≠ target) (hlists : p.listing source) :
    (p.view V).Supplies faults.regime (p.hazard faults) source target (p.base V source)
      (p.base V target) fun _ x y => x = y where
  ne := hne
  lists := lists hlists
  get k t w hw := wp_get source k t hw
  add k x y t w hstands hw _ := by
    cases hstands
    exact wp_add target k x false t hw

end MapMoment

end TwinStore
