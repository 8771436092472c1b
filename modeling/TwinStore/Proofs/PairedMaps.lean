import TwinStore.Program.Backend
import TwinStore.Proofs.Copying

/-!
# Pairs of base maps

What a map holds is a function from keys to values. `MapPair.view` is the view of two base maps that
grant the listing of their keys and of which no entry expires before a horizon. Under any faults
each operation does to what a map holds what its `Effect` says, or fails (`MapPair.carries_add` and
its likes), and a copy makes its target equal to its source, or fails on the way and leaves under
every key what the target had or what the source has (`MapPair.converges_copy`).
-/

namespace TwinStore

variable {V : Type}

/-! ## The view -/

/-- Two base maps and a health record, up to a horizon. -/
structure MapPair extends BasePair where
  horizon : Nat

namespace MapPair

variable (p : MapPair)

/-- The map on a side lists its keys, and none of its entries expires before the horizon. -/
structure Holds (w : World V) (side : Side) : Prop where
  outlasts : (w.maps.nth (p.index side)).content.Outlasts p.horizon
  lists : (w.maps.nth (p.index side)).grants.keys = true

/-- Two base maps, seen by what they hold. -/
def view (V : Type) : View V (Entries V) where
  core := p.core
  site side := .map (p.index side)
  contents w side := (w.maps.nth (p.index side)).content.live? w.clock
  Fit w := w.clock ≤ p.horizon ∧ ∀ side, p.Holds w side
  contents_congr := by
    intro w w' h
    simp only [World.stores, Prod.mk.injEq] at h
    rw [h.1, h.2.1]
  fit_congr := by
    intro w w' h
    simp only [World.stores, Prod.mk.injEq] at h
    rintro ⟨hclock, hholds⟩
    refine ⟨h.1 ▸ hclock, fun side => ⟨?_, ?_⟩⟩
    · rw [h.2.1]
      exact (hholds side).outlasts
    · rw [h.2.1]
      exact (hholds side).lists
  site_injective h := p.index_injective (Site.map.inj h)

/-- What may go wrong with two base maps. -/
def hazard (faults : Faults V) : Hazard (Entries V) :=
  (p.view V).hazard faults Entries.Mixed

/-! ## Calls -/

variable {p} {w : World V} {side : Side} {faults : Faults V}

theorem scene_perform (side : Side) (op : MapOp V) :
    (p.view V).scene (w.perform (.map (p.index side) op)).2 =
      ((p.view V).scene w).put side
        ((op.apply w.arrangement w.clock w.date (w.maps.nth (p.index side)).content).2.live?
          w.clock) := by
  ext side'
  · by_cases he : side' = side
    · subst he
      rw [Scene.contents_put_self]
      simp [View.scene, view, World.perform]
    · have hne : p.index side ≠ p.index side' := fun h => he (p.index_injective h).symm
      rw [Scene.contents_put_of_ne _ _ he]
      simp [View.scene, view, World.perform, Shelf.nth_put_of_ne _ _ hne]
  · rfl
  · rfl

theorem fit_perform (hw : (p.view V).Fit w) (side : Side) (op : MapOp V)
    (h : (op.apply w.arrangement w.clock w.date
      (w.maps.nth (p.index side)).content).2.Outlasts p.horizon) :
    (p.view V).Fit (w.perform (.map (p.index side) op)).2 := by
  refine ⟨hw.1, fun side' => ?_⟩
  by_cases he : side' = side
  · subst he
    refine ⟨?_, ?_⟩
    · simpa [World.perform] using h
    · simpa [World.perform] using (hw.2 side').lists
  · have hne : p.index side ≠ p.index side' := fun h => he (p.index_injective h).symm
    refine ⟨?_, ?_⟩
    · simpa [World.perform, Shelf.nth_put_of_ne _ _ hne] using (hw.2 side').outlasts
    · simpa [World.perform, Shelf.nth_put_of_ne _ _ hne] using (hw.2 side').lists

/-- A call does to what its map holds what the operation does to the map, or fails. -/
theorem carries_call (op : MapOp V) {eff : Effect (Entries V) op.Answer} (t : Token)
    (hwhole : ∀ i n cause a, (Call.map i op).failAfter n cause a = none)
    (happly : ∀ (arrangement : Arrangement) (now date : Nat) (m : EntryMap V),
      m.Outlasts p.horizon →
      (op.apply arrangement now date m).2.Outlasts p.horizon ∧
        (op.apply arrangement now date m).2.live? now = eff.after (m.live? now) ∧
        eff.answers (m.live? now) (op.apply arrangement now date m).1) :
    (p.view V).Carries faults.regime (p.hazard faults)
      (fun side => Backend.onMap (p.index side) op t) eff := by
  intro side w hw
  refine View.wp_call (v := p.view V) rfl hw ?_ ?_ ?_
  · intro w' hw' hsame
    obtain ⟨hout, hafter, hanswer⟩ := happly w'.arrangement w'.clock w'.date _ (hw'.2 side).outlasts
    refine ⟨fit_perform hw' side op hout, .done _ ?_ ?_⟩
    · rw [← hsame]
      exact hanswer
    · rw [← hsame, scene_perform, hafter]
      rfl
  · intro cause w' hfrail hw' hblame
    exact ⟨hw', .failed cause hfrail hblame⟩
  · intro cause n a w' _ _ _ ha
    rw [hwhole] at ha
    cases ha

/-- The base map on a side. -/
def base (V : Type) (p : MapPair) (side : Side) : MapStore V :=
  Backend.map (p.index side)

theorem carries_add (k : Key) (x : V) (overwrite : Bool) (t : Token) :
    (p.view V).Carries faults.regime (p.hazard faults)
      (fun side => (p.base V side).add k x overwrite t) (Entries.adding k x overwrite) := by
  refine carries_call (.add k x overwrite) t (fun _ _ _ _ => rfl) ?_
  intro _ now _ m hm
  refine ⟨hm.add k x overwrite, ?_, ?_⟩
  · simp only [MapOp.apply, EntryMap.add, Entries.adding]
    split
    · rfl
    · funext k'
      exact m.live?_put now k k' x
  · simp only [MapOp.apply, EntryMap.add, Entries.adding]
    split <;> simp [*]

theorem carries_get (k : Key) (t : Token) :
    (p.view V).Carries faults.regime (p.hazard faults)
      (fun side => (p.base V side).get k t) (Entries.reading k) := by
  refine carries_call (.get k) t (fun _ _ _ _ => rfl) ?_
  intro _ now _ m hm
  exact ⟨hm.evict k, funext fun k' => m.live?_get now k k', rfl⟩

theorem carries_remove (k : Key) (t : Token) :
    (p.view V).Carries faults.regime (p.hazard faults)
      (fun side => (p.base V side).remove k t) (Entries.removing k) := by
  refine carries_call (.remove k) t (fun _ _ _ _ => rfl) ?_
  intro _ now _ m hm
  exact ⟨hm.erase k, funext fun k' => m.live?_remove now k k', rfl⟩

theorem carries_contains (k : Key) (t : Token) :
    (p.view V).Carries faults.regime (p.hazard faults)
      (fun side => (p.base V side).contains k t) (Entries.finding k) := by
  refine carries_call (.contains k) t (fun _ _ _ _ => rfl) ?_
  intro _ now _ m hm
  exact ⟨hm.evict k, funext fun k' => m.live?_contains now k k', rfl⟩

/-! ## Listings and copies -/

/-- The keys that a map lists are those of its entries. -/
theorem mem_listed (w : World V) (side : Side) (k : Key) :
    k ∈ w.arrangement.keys ((w.maps.nth (p.index side)).content.keys w.clock) ↔
      (((p.view V).scene w).contents side k).isSome := by
  rw [(w.arrangement.keys_perm _).mem_iff, EntryMap.mem_keys_iff]
  rfl

theorem wp_keys (t : Token) (hw : (p.view V).Fit w) (side : Side) :
    ((p.base V side).keys t).wp faults.regime (fun r w' => (p.view V).Fit w' ∧
      Scene.Listed (p.hazard faults) side ((p.view V).scene w) ((p.view V).scene w') r) w := by
  -- Listing puts back what the map holds.
  have hback : ∀ w', (p.view V).scene (w'.perform (.map (p.index side) .keys)).2 =
      (p.view V).scene w' := by
    intro w'
    rw [scene_perform]
    exact Scene.put_contents _ side
  have hlists := View.wp_listing (v := p.view V) (c := .map (p.index side) .keys)
    (t := t) faults Entries.Mixed rfl id
    (fun w' hw' => ⟨fit_perform hw' side .keys (hw'.2 side).outlasts, hback w', _, rfl,
      mem_listed w' side⟩)
    (fun _ _ _ _ h => (Option.some.inj h).symm) hw
  refine Action.wp_mono hlists ?_
  rintro (halt | l) w' hlisted <;> exact hlisted

/-- A value that is read stands for itself. -/
theorem keyed (p : MapPair) (faults : Faults V) :
    (p.view V).Keyed faults.regime (p.hazard faults) (p.base V) fun _ _ x y => x = y where
  canList side w hw := by
    change ((w.maps.nth (p.index side)).grants.keys, w) = (true, w)
    rw [(hw.2 side).lists]
  keys side t w hw := wp_keys t hw side
  get side k t w hw := by
    refine Action.wp_mono (carries_get k t side w hw) ?_
    rintro r w' ⟨hw', htried⟩
    refine ⟨hw', ?_⟩
    cases htried with
    | failed cause frail eq => exact .failed cause frail eq
    | done a answers eq =>
      refine .done a ?_ eq
      cases hx : ((p.view V).scene w).contents side k with
      | none => exact .inl ⟨hx, (answers : a = _).trans hx⟩
      | some x => exact .inr ⟨x, x, hx, (answers : a = _).trans hx, rfl⟩
  add source target k x y t w hne hstands hw hx := by
    cases hstands
    refine Action.wp_mono (carries_add k x true t target w hw) ?_
    rintro r w' ⟨hw', htried⟩
    refine ⟨hw', ?_⟩
    cases htried with
    | failed cause frail eq => exact .of_blame cause rfl rfl frail eq
    | done a _ eq => exact .done a _ rfl eq
  remove k t := carries_remove k t

theorem carries_collectKeys (role : String) (t : Token) :
    (p.view V).Carries faults.regime (p.hazard faults)
      (fun side => (p.base V side).collectKeys role t) Entries.listing :=
  (keyed p faults).carries_collectKeys role t

/-- Copies between the two maps converge. -/
theorem converges_copy (faults : Faults V) (limit : Nat) :
    (p.view V).Converges faults.regime (p.hazard faults) fun source target =>
      (Converge.Strategy.copy.synchronizer limit).run (p.base V source) (p.base V target) none :=
  (keyed p faults).converges_copy (fun _ _ _ h => h) limit

/-- The engine of two base maps that converge by copies. -/
def engine (V : Type) (p : MapPair) (name : String) (limit : Nat) : Engine V (MapStore V) :=
  .root p.core name (p.base V .primary) (p.base V .secondary)
    (Converge.Strategy.copy.synchronizer limit)

theorem runs_engine (name : String) (limit : Nat) :
    (p.view V).Runs faults.regime (p.hazard faults) (p.engine V name limit) where
  core := rfl
  recovery := rfl
  converges source target hne := by
    have h := converges_copy (V := V) (p := p) faults limit source target hne
    cases source <;> cases target <;> exact h

end MapPair

end TwinStore
