import TwinStore.Proofs.CachedMaps
import TwinStore.Proofs.Stands

/-!
# When cached entries expire

With a time to live in effect, a cached map gives each entry that it puts into its cache a deadline,
and an entry that is overwritten gets a new one: `CacheMap.put` adds and then touches. A refresh
overwrites as well, but does not touch: what it has brought up to date has no deadline any more.

All that a call may do to the cache is said by `Stand.Stamps`: an entry either has not been written,
and then it is as it was or gone, or it has been, and then it has the deadline that goes with the
call, none for a refresh. So the deadline of an entry tells when it was last written
(`cached_entries_expire`), unless that was by a refresh.
-/

namespace TwinStore

variable {V : Type}

/-! ## Writes -/

/-- The call writes an entry under a key of a map. -/
def Call.Writes (i : Nat) (k : Key) : Call V → Prop
  | .map j (.add k' _ _) => j = i ∧ k' = k
  | _ => False

instance (i : Nat) (k : Key) : DecidablePred (Call.Writes (V := V) i k) := fun c => by
  unfold Call.Writes
  split <;> infer_instance

namespace EntryMap

variable {α : Type} {m : EntryMap α} {now : Nat} {k k' : Key} {slot : Slot α}

theorem slots_of_erase (h : (m.slots.erase k)[k']? = some slot) : m.slots[k']? = some slot := by
  rw [Std.ExtTreeMap.getElem?_erase] at h
  split at h
  · cases h
  · exact h

theorem slots_of_evict (h : (m.evict now k).slots[k']? = some slot) : m.slots[k']? = some slot := by
  unfold evict at h
  split at h
  · split at h
    · exact slots_of_erase h
    · exact h
  · exact h

/-- What is inserted is the slot under its key, and the others are as they were. -/
theorem slots_of_insert {slot' : Slot α} (h : (m.slots.insert k slot')[k']? = some slot) :
    k = k' ∧ slot' = slot ∨ k ≠ k' ∧ m.slots[k']? = some slot := by
  rw [Std.ExtTreeMap.getElem?_insert] at h
  by_cases hk : k = k'
  · left
    simpa [hk] using h
  · right
    simpa [hk] using h

end EntryMap

namespace Stand

variable {i : Nat} {deadline : Option Nat} {s s' s'' : Stand V}

/-- Entries of a map have been written, all with the same deadline or none, or not; those that have
not been are as they were or gone. -/
structure Stamps (i : Nat) (deadline : Option Nat) (s s' : Stand V) : Prop where
  now : s'.now = s.now
  grants : s'.grants = s.grants
  slots : ∃ made, s'.calls = s.calls ++ made ∧
    ∀ k slot, (s'.maps i).slots[k]? = some slot →
      (∃ c ∈ made, c.Writes i k) ∧ slot.deadline = deadline ∨
        (∀ c ∈ made, ¬ c.Writes i k) ∧ (s.maps i).slots[k]? = some slot

namespace Stamps

theorem refl (s : Stand V) : Stamps i deadline s s :=
  ⟨rfl, rfl, [], by simp, fun _ _ h => .inr ⟨by simp, h⟩⟩

theorem trans (h : Stamps i deadline s s') (h' : Stamps i deadline s' s'') :
    Stamps i deadline s s'' := by
  obtain ⟨made, hmade, hslots⟩ := h.slots
  obtain ⟨made', hmade', hslots'⟩ := h'.slots
  refine ⟨h'.now.trans h.now, h'.grants.trans h.grants, made ++ made', ?_, fun k slot hs => ?_⟩
  · rw [hmade', hmade, List.append_assoc]
  · rcases hslots' k slot hs with ⟨⟨c, hc, hw⟩, hd⟩ | ⟨hnone', hs'⟩
    · exact .inl ⟨⟨c, List.mem_append_right _ hc, hw⟩, hd⟩
    · rcases hslots k slot hs' with ⟨⟨c, hc, hw⟩, hd⟩ | ⟨hnone, hs₀⟩
      · exact .inl ⟨⟨c, List.mem_append_left _ hc, hw⟩, hd⟩
      · refine .inr ⟨fun c hc => ?_, hs₀⟩
        exact (List.mem_append.1 hc).elim (hnone c) (hnone' c)

/-- A call to another map stamps no entry of this one. -/
theorem of_other {j : Nat} (hj : i ≠ j) (op : MapOp V) : Stamps i deadline s (s.onMap j op) := by
  refine ⟨rfl, rfl, [.map j op], rfl, fun k slot hs => .inr ⟨?_, ?_⟩⟩
  · intro c hc
    rw [List.mem_singleton.1 hc]
    cases op with
    | add => exact fun hw => hj hw.1.symm
    | _ => exact id
  · rwa [maps_onMap_of_ne s op hj] at hs

/-- A call to the map that adds nothing and moves no deadline. -/
theorem of_quiet (op : MapOp V) (hop : ∀ k, ¬ (Call.map i op).Writes i k)
    (hslots : ∀ (k : Key) (slot : Slot V),
      (op.apply s.order s.now s.date (s.maps i)).2.slots[k]? = some slot →
        (s.maps i).slots[k]? = some slot) : Stamps i deadline s (s.onMap i op) := by
  refine ⟨rfl, rfl, [.map i op], rfl, fun k slot hs => .inr ⟨?_, ?_⟩⟩
  · intro c hc
    rw [List.mem_singleton.1 hc]
    exact hop k
  · rw [maps_onMap_self] at hs
    exact hslots k slot hs

/-- An entry that is added has no deadline. -/
theorem of_add (k : Key) (v : V) : Stamps i none s (s.onMap i (.add k v true)) := by
  refine ⟨rfl, rfl, [.map i (.add k v true)], rfl, fun k' slot hs => ?_⟩
  rw [maps_onMap_self] at hs
  have hs' : ((s.maps i).slots.insert k { value := v })[k']? = some slot := hs
  rcases EntryMap.slots_of_insert hs' with ⟨rfl, rfl⟩ | ⟨hk, hs'⟩
  · exact .inl ⟨⟨_, List.mem_singleton_self _, rfl, rfl⟩, rfl⟩
  · refine .inr ⟨fun c hc hw => ?_, hs'⟩
    rw [List.mem_singleton.1 hc] at hw
    exact hk hw.2

/-- An entry that is added and then given some time has a deadline. -/
theorem of_add_expire (k : Key) (v : V) (ttl : Nat) :
    Stamps i (some (s.now + ttl)) s ((s.onMap i (.add k v true)).onMap i (.expire k ttl)) := by
  refine ⟨rfl, rfl, [.map i (.add k v true), .map i (.expire k ttl)], ?_, fun k' slot hs => ?_⟩
  · exact List.append_assoc s.calls _ _
  · have hlive : ((s.maps i).put k v).live? s.now k = some v := by simp
    have hafter : (((s.onMap i (.add k v true)).onMap i (.expire k ttl)).maps i) =
        ⟨((s.maps i).put k v).slots.insert k { value := v, deadline := some (s.now + ttl) }⟩ := by
      rw [maps_onMap_self]
      change (((s.onMap i (.add k v true)).maps i).expireAt s.now k (s.now + ttl)).2 = _
      rw [maps_onMap_self]
      change (((s.maps i).put k v).expireAt s.now k (s.now + ttl)).2 = _
      unfold EntryMap.expireAt
      rw [hlive]
    rw [hafter] at hs
    rcases EntryMap.slots_of_insert hs with ⟨rfl, rfl⟩ | ⟨hk, hs'⟩
    · exact .inl ⟨⟨_, List.mem_cons_self, rfl, rfl⟩, rfl⟩
    · rcases EntryMap.slots_of_insert hs' with ⟨hk', -⟩ | ⟨-, hs₀⟩
      · exact absurd hk' hk
      · refine .inr ⟨fun c hc hw => ?_, hs₀⟩
        rcases List.mem_cons.1 hc with rfl | hc
        · exact hk hw.2
        · rw [List.mem_singleton.1 hc] at hw
          exact hw

end Stamps

end Stand

/-! ## Calls of a cached map -/

/-- What callers ask of a cached map. -/
inductive CachedMapOp (V : Type) where
  | ask (op : PlainOp V)
  | refresh

namespace CachedMapOp

/-- What a call answers. -/
@[reducible] def Answer : CachedMapOp V → Type
  | ask op => op.Answer
  | refresh => Report

/-- Make the call. -/
def on (c : CacheMap V) (t : Token) : (op : CachedMapOp V) → Action V op.Answer
  | ask op => op.on c.store t
  | refresh => c.tier.refresh t

/-- Whether the call is a refresh. -/
def isRefresh : CachedMapOp V → Bool
  | ask _ => false
  | refresh => true

/-- The deadline that goes with an entry that the call writes to the cache. -/
def deadline (op : CachedMapOp V) (time ttl : Nat) : Option Nat :=
  if op.isRefresh then none else some (time + ttl)

end CachedMapOp

namespace CacheMap

section Calls

variable {source cache limit ttl : Nat} {c : CacheMap V} {faults : Faults V} {s : Stand V}
  {deadline : Option Nat} {k : Key} {v : V} {t : Token}

section Cache

variable (hcache : faults.Spares (.map cache))
include hcache

/-- What is put into the cache gets a deadline. -/
theorem ends_put (httl : c.ttl = some ttl) (hexpiry : (s.grants (.map cache)).expiry = true) :
    (c.put (Backend.map cache) k v t).ends faults.regime (fun stored s' =>
      stored = true ∧ s.Stamps cache (some (s.now + ttl)) s') s := by
  unfold put
  refine Action.ends_bind (hcache.ends_onMap (.add k v true) ?_)
  rw [httl]
  refine Action.ends_bind (Action.ends_bind (Action.ends_grants ?_))
  rw [show ((s.onMap cache (.add k v true)).grants (.map cache)).expiry = true from hexpiry]
  refine hcache.ends_onMap (.expire k ttl) (Action.ends_pure ⟨rfl, ?_⟩)
  exact .of_add_expire k v ttl

theorem ends_drop :
    (drop (Backend.map cache) k t).ends faults.regime (fun dropped s' =>
      dropped = true ∧ s.Stamps cache deadline s') s := by
  unfold drop
  refine Action.ends_bind (hcache.ends_onMap (.remove k) (Action.ends_pure ⟨rfl, ?_⟩))
  exact .of_quiet (.remove k) (fun _ => id) fun _ _ => EntryMap.slots_of_erase

end Cache

variable (h : c.Over source cache limit) (ne : source ≠ cache)
  (hsource : faults.Spares (.map source)) (hcache : faults.Spares (.map cache))
  (httl : c.ttl = some ttl) (hexpiry : (s.grants (.map cache)).expiry = true)
include h ne hsource hcache httl hexpiry

/-- A call that is not a refresh, nor lists the keys, gives what it writes a deadline. -/
theorem ends_ask {op : PlainOp V} (hkeys : op ≠ .keys) :
    (op.on c.store t).ends faults.regime
      (fun _ s' => s.Stamps cache (some (s.now + ttl)) s') s := by
  have hne : cache ≠ source := ne.symm
  have hput (k : Key) (v : V) (s₁ : Stand V) (hs : s.Stamps cache (some (s.now + ttl)) s₁) :
      (c.put (Backend.map cache) k v t).ends faults.regime (fun stored s₂ => stored = true ∧
        s.Stamps cache (some (s.now + ttl)) s₂) s₁ := by
    refine Action.ends_mono (ends_put hcache httl (hs.grants ▸ hexpiry)) ?_
    rintro stored s₂ ⟨hstored, hput⟩
    rw [hs.now] at hput
    exact ⟨hstored, hs.trans hput⟩
  have hdrop (k : Key) (s₁ : Stand V) (hs : s.Stamps cache (some (s.now + ttl)) s₁) :
      (drop (Backend.map cache) k t).ends faults.regime (fun dropped s₂ => dropped = true ∧
        s.Stamps cache (some (s.now + ttl)) s₂) s₁ :=
    Action.ends_mono (ends_drop hcache) fun _ _ ⟨hdropped, hs'⟩ => ⟨hdropped, hs.trans hs'⟩
  cases op with
  | add k v overwrite =>
    change (c.tier.write (fun m => m.add k v overwrite t) (c.updateOf k v t)).ends _ _ _
    refine CacheTier.ends_write ?_
    rw [h.source, h.cache]
    refine hsource.ends_onMap (.add k v overwrite) ?_
    have hs : s.Stamps cache (some (s.now + ttl)) (s.onMap source (.add k v overwrite)) :=
      .of_other hne _
    unfold updateOf
    cases ((MapOp.add k v overwrite).apply s.order s.now s.date (s.maps source)).1 with
    | false => exact hs
    | true =>
      cases c.cachesWrites with
      | true => exact hput k v _ hs
      | false => exact hdrop k _ hs
  | get k =>
    change (c.tier.read (fun m => m.get k t) (c.backfill k t)).ends _ _ _
    refine CacheTier.ends_read ?_
    rw [h.source, h.cache]
    have hs : s.Stamps cache (some (s.now + ttl)) (s.onMap cache (.get k)) :=
      .of_quiet (.get k) (fun _ => id) fun _ _ => EntryMap.slots_of_evict
    refine hcache.ends_onMap (.get k) ?_
    split
    · exact hs
    · refine hsource.ends_onMap (.get k) ?_
      have hs' := hs.trans (.of_other hne (.get k))
      unfold backfill
      generalize ((MapOp.get k).apply _ _ _ ((s.onMap cache (.get k)).maps source)).1 = found
      cases found with
      | none => exact hs'
      | some v =>
        refine Action.ends_bind (Action.ends_mono (hput k v _ hs') ?_)
        exact fun _ _ ⟨_, hs''⟩ => Action.ends_pure hs''
  | remove k =>
    change (c.tier.write (fun m => m.remove k t) fun cache _ => some (drop cache k t)).ends _ _ _
    refine CacheTier.ends_write ?_
    rw [h.source, h.cache]
    exact hsource.ends_onMap (.remove k) (hdrop k _ (.of_other hne _))
  | contains k =>
    change (c.tier.readThrough fun m => m.contains k t).ends _ _ _
    refine CacheTier.ends_readThrough ?_
    rw [h.source, h.cache]
    have hs : s.Stamps cache (some (s.now + ttl)) (s.onMap cache (.contains k)) :=
      .of_quiet (.contains k) (fun _ => id) fun _ _ => EntryMap.slots_of_evict
    refine hcache.ends_onMap (.contains k) ?_
    split
    · exact hs
    · exact hsource.ends_onMap (.contains k) (hs.trans (.of_other hne (.contains k)))
  | keys => exact absurd rfl hkeys

omit httl hexpiry

/-- A refresh takes the deadline of all that it writes. -/
theorem ends_refresh (hlists : (s.grants (.map cache)).keys = true) :
    (c.tier.refresh t).ends faults.regime (fun _ s' => s.Stamps cache none s') s := by
  have hne : cache ≠ source := ne.symm
  have hrequire : ((Backend.map cache).requireKeys "target").ends faults.regime
      (fun _ s' => s' = s) s := by
    unfold KeyedStore.requireKeys
    refine Action.ends_bind (Action.ends_grants ?_)
    rw [hlists]
    exact Action.ends_pure rfl
  have hstep (k : Key) (s₁ : Stand V) (hs : s.Stamps cache none s₁) :
      (Converge.refreshKey (Backend.map source) (Backend.map cache) t k).ends faults.regime
        (fun _ s₂ => s.Stamps cache none s₂) s₁ := by
    unfold Converge.refreshKey
    refine Walk.ends_bind (Walk.ends_lift (hsource.ends_onMap (.get k) ?_))
    have hs' := hs.trans (.of_other hne (.get k))
    generalize ((MapOp.get k).apply _ _ _ (s₁.maps source)).1 = found
    cases found with
    | none =>
      refine Walk.ends_removing (hcache.ends_onMap (.remove k) (hs'.trans ?_))
      exact .of_quiet (.remove k) (fun _ => id) fun _ _ => EntryMap.slots_of_erase
    | some v =>
      refine Walk.ends_bind (Walk.ends_lift (hcache.ends_onMap (.add k v true) ?_))
      exact Walk.ends_wrote (hs'.trans (.of_add k v))
  unfold CacheTier.refresh Synchronizer.run
  rw [h.source, h.cache, h.synchronizer]
  refine Action.ends_bind (Action.ends_mono hrequire ?_)
  rintro _ _ rfl
  refine ends_drive _ _ _ (.refl _) ?_
  change (Converge.intersectionWalk (Backend.map source) (Backend.map cache) t).ends _ _ _
  unfold Converge.intersectionWalk
  refine Walk.ends_bind (Walk.ends_lift ?_)
  refine Action.ends_bind (Action.ends_bind (Action.ends_mono hrequire ?_))
  rintro _ _ rfl
  refine hcache.ends_onMap .keys (Action.ends_pure (Walk.ends_each hstep ?_))
  exact .of_quiet .keys (fun _ => id) fun _ _ => id

include httl

/-- Whatever a call does to the cache, it gives what it writes the deadline that goes with it. -/
theorem wp_stamps {w : World V} (hgrants : (w.grants (.map cache)).keys = true ∧
      (w.grants (.map cache)).expiry = true) (op : CachedMapOp V) :
    (op.on c t).wp faults.regime (fun _ w' =>
      w.stand.Stamps cache (op.deadline w.clock ttl) w'.stand) w := by
  cases op with
  | refresh =>
    obtain ⟨_, _, hs⟩ := ends_refresh (t := t) (s := w.stand) h ne hsource hcache hgrants.1 w rfl
    exact hs
  | ask op =>
    by_cases hkeys : op = .keys
    · subst hkeys
      change Action.wp _ (c.tier.source.listAs "source" t) _ w
      rw [h.source]
      unfold KeyedStore.listAs
      rw [Action.wp_bind, wp_requireKeys_map]
      split
      · have hread : (Backend.onMap source .keys t).ends faults.regime (fun _ s' =>
            w.stand.Stamps cache (some (w.clock + ttl)) s') w.stand :=
          hsource.ends_onMap .keys (.of_other ne.symm .keys)
        obtain ⟨_, _, hs⟩ := hread w rfl
        exact hs
      · exact .refl w.stand
    · obtain ⟨_, _, hs⟩ := ends_ask (t := t) (s := w.stand) h ne hsource hcache httl hgrants.2
        hkeys w rfl
      exact hs

end Calls

end CacheMap

/-! ## Runs -/

/-- A world, and when each entry of a map has last been written and whether by a refresh. -/
structure Stamped (V : Type) where
  world : World V
  written : Key → Option (Nat × Bool) := fun _ => none

/-- A caller of a cached map is served. -/
def Stamped.serve (faults : Faults V) (c : CacheMap V) (cache : Nat) (h : Stamped V)
    (turn : Turn (CachedMapOp V)) : Stamped V :=
  let after := (faults.regime.act (h.world.atTime turn.time) (turn.op.on c turn.token)).2
  { world := after
    written := fun k =>
      if ∃ c ∈ (after.stand.calls.drop h.world.stand.calls.length), c.Writes cache k then
        some (turn.time, turn.op.isRefresh)
      else h.written k }

/-- Callers of a cached map are served in turn. -/
def Stamped.serveAll (faults : Faults V) (c : CacheMap V) (cache : Nat) (h : Stamped V)
    (turns : List (Turn (CachedMapOp V))) : Stamped V :=
  turns.foldl (serve faults c cache) h

namespace Stamped

variable {source cache limit ttl : Nat} {c : CacheMap V} {faults : Faults V} {h : Stamped V}

/-- Every entry of the cache has the deadline that its last write gave it. -/
structure Sound (cache ttl : Nat) (h : Stamped V) : Prop where
  keys : (h.world.grants (.map cache)).keys = true
  expiry : (h.world.grants (.map cache)).expiry = true
  slots : ∀ (k : Key) (slot : Slot V), (h.world.maps.nth cache).content.slots[k]? = some slot →
    ∃ time refreshed, h.written k = some (time, refreshed) ∧
      slot.deadline = if refreshed then none else some (time + ttl)

theorem Sound.serve (hover : c.Over source cache limit) (ne : source ≠ cache)
    (hsource : faults.Spares (.map source)) (hcache : faults.Spares (.map cache))
    (httl : c.ttl = some ttl) (hh : h.Sound cache ttl) (turn : Turn (CachedMapOp V)) :
    (h.serve faults c cache turn).Sound cache ttl := by
  have hstamps : (h.world.atTime turn.time).stand.Stamps cache (turn.op.deadline turn.time ttl)
      (h.serve faults c cache turn).world.stand :=
    CacheMap.wp_stamps (t := turn.token) (w := h.world.atTime turn.time) hover ne hsource hcache
      httl ⟨hh.keys, hh.expiry⟩ turn.op
  obtain ⟨made, hmade, hslots⟩ := hstamps.slots
  have hgrants : (h.serve faults c cache turn).world.grants = h.world.grants := hstamps.grants
  have hnew : (h.serve faults c cache turn).world.stand.calls.drop h.world.stand.calls.length =
      made := by
    rw [hmade]
    exact List.drop_left
  refine ⟨hgrants ▸ hh.keys, hgrants ▸ hh.expiry, fun k slot hs => ?_⟩
  have hwritten : (h.serve faults c cache turn).written k =
      if ∃ c ∈ made, c.Writes cache k then some (turn.time, turn.op.isRefresh)
      else h.written k := by
    rw [← hnew]
    rfl
  rw [hwritten]
  rcases hslots k slot hs with ⟨hwrites, hdeadline⟩ | ⟨hnone, hs⟩
  · rw [if_pos hwrites]
    exact ⟨_, _, rfl, hdeadline⟩
  · rw [if_neg fun ⟨c, hc, hw⟩ => hnone c hc hw]
    exact hh.slots k slot hs

theorem Sound.serveAll (hover : c.Over source cache limit) (ne : source ≠ cache)
    (hsource : faults.Spares (.map source)) (hcache : faults.Spares (.map cache))
    (httl : c.ttl = some ttl) (hh : h.Sound cache ttl) (turns : List (Turn (CachedMapOp V))) :
    (h.serveAll faults c cache turns).Sound cache ttl := by
  induction turns generalizing h with
  | nil => exact hh
  | cons turn rest ih => exact ih (hh.serve hover ne hsource hcache httl turn)

end Stamped

/-- The time to live is in effect only if the cache expires its keys. -/
theorem CacheMap.wp_make_ttl {g : Regime V} {w : World V} {source cache : Nat} {name : String}
    (settings : Settings) :
    (make name (Backend.map source) (Backend.map cache) (refresher settings.runLimit)
      settings).wp g (fun r w' => ∀ c, r = .ok c → c.ttl.isSome →
        (w'.grants (.map cache)).expiry = true) w := by
  have hmade : ∀ ttl, (ttl.isSome → (w.grants (.map cache)).expiry = true) → Action.wp g (do
      let tier ← CacheTier.make name (Backend.map source) (Backend.map cache)
        (refresher settings.runLimit)
      return { tier, ttl, cachesWrites := settings.cachesWrites }) (fun r w' =>
        ∀ c : CacheMap V, r = .ok c → c.ttl.isSome → (w'.grants (.map cache)).expiry = true) w := by
    intro ttl httl
    unfold CacheTier.make
    rw [Action.wp_bind, Action.wp_bind]
    change Action.wp g ((Backend.map cache).requireKeys "target") _ w
    rw [wp_requireKeys_map]
    split
    · rintro _ ⟨⟩ h
      exact httl h
    · exact fun _ h => nomatch h
  unfold make KeyedStore.effectiveTtl
  rw [Action.wp_bind, Action.wp_bind]
  change Action.wp g (ExceptT.lift (Backend.map cache).canExpire) _ w
  rw [Action.wp_lift, Action.andThen_ok]
  split
  · rename_i hexpiry
    exact hmade settings.cacheTtl fun _ => hexpiry
  · exact hmade none nofun

/-- **Cached entries expire**, unless a refresh has written them: where no call fails, a time to
live is in effect and the cache begins empty, an entry of the cache has a deadline, and that is the
time to live after its last write. An entry that a refresh was the last to write has none. -/
theorem cached_entries_expire {source cache : Nat} (ne : source ≠ cache) (name : String)
    (settings : Settings) {ttl : Nat} (faults : Faults V) (hsource : faults.Spares (.map source))
    (hcache : faults.Spares (.map cache)) {w₀ w : World V} {c : CacheMap V}
    (hmake : faults.regime.act w₀ (CacheMap.make name (Backend.map source) (Backend.map cache)
      (CacheMap.refresher settings.runLimit) settings) = (.ok c, w))
    (httl : c.ttl = some ttl) (hempty : (w.maps.nth cache).content = {})
    (turns : List (Turn (CachedMapOp V))) :
    let after := Stamped.serveAll faults c cache { world := w } turns
    ∀ (k : Key) (slot : Slot V), (after.world.maps.nth cache).content.slots[k]? = some slot →
      ∃ time refreshed, after.written k = some (time, refreshed) ∧
        slot.deadline = if refreshed then none else some (time + ttl) := by
  intro after
  have hmade : (CacheMap.make name (Backend.map source) (Backend.map cache)
      (CacheMap.refresher settings.runLimit) settings).wp faults.regime _ w₀ :=
    Action.wp_and (CacheMap.wp_make settings) (CacheMap.wp_make_ttl settings)
  unfold Action.wp at hmade
  rw [hmake] at hmade
  obtain ⟨⟨rfl, hover⟩, hexpiry⟩ := hmade
  obtain ⟨hlists, hover⟩ := hover c rfl
  have hstart : Stamped.Sound cache ttl { world := w } := by
    refine ⟨hlists, hexpiry c rfl (by rw [httl]; rfl), fun k slot hs => ?_⟩
    rw [hempty] at hs
    exact absurd hs (by simp)
  exact (hstart.serveAll hover ne hsource hcache httl turns).slots

/-- A map with an entry, and an empty one. -/
def World.sourceMap (V : Type) (entries : List (Key × V)) : World V :=
  { maps := (∅ : Shelf (Base (EntryMap V))).put 0 { content := .ofList entries } }

/-- A cached map with a time to live. -/
def CacheMap.expiring (V : Type) (ttl : Nat) : CacheMap V where
  tier := { name := "cache", source := Backend.map 0, cache := Backend.map 1
            synchronizer := refresher 1000 }
  ttl := some ttl
  cachesWrites := true

/-- An entry is read and refreshed, another is added: that has a deadline. -/
theorem cached_entries_expire_after_add :
    let faults : Faults Nat := Faults.hitting []
    let turns : List (Turn (CachedMapOp Nat)) :=
      [{ op := .ask (.get (.number 1)), time := 5 }, { op := .refresh, time := 7 },
        { op := .ask (.add (.number 2) 20 false), time := 10 }]
    let after := Stamped.serveAll faults (.expiring Nat 30) 1
      { world := .sourceMap Nat [(.number 1, 10)] } turns
    ∃ slot : Slot Nat, (after.world.maps.nth 1).content.slots[Key.number 2]? = some slot ∧
      after.written (.number 2) = some (10, false) ∧ slot.deadline = some 40 := by
  intro faults turns after
  have hmake : faults.regime.act (.sourceMap Nat [(.number 1, 10)]) (CacheMap.make "cache"
      (Backend.map 0) (Backend.map 1) (CacheMap.refresher 1000)
      { cacheTtl := some 30, runLimit := 1000 }) =
        (.ok (.expiring Nat 30), .sourceMap Nat [(.number 1, 10)]) := rfl
  have hadded : ((after.world.maps.nth 1).content.slots[Key.number 2]?).isSome := by
    decide +kernel
  have hwritten : after.written (.number 2) = some (10, false) := by decide +kernel
  obtain ⟨slot, hs⟩ := Option.isSome_iff_exists.1 hadded
  simp only [after] at hs hwritten ⊢
  obtain ⟨time, refreshed, hlast, hdeadline⟩ := cached_entries_expire (by decide) "cache"
    { cacheTtl := some 30, runLimit := 1000 } faults (Faults.spares_hitting_nil _)
    (Faults.spares_hitting_nil _) hmake rfl rfl turns (.number 2) slot hs
  obtain ⟨rfl, rfl⟩ := Prod.mk.inj (Option.some.inj (hlast.symm.trans hwritten))
  exact ⟨slot, hs, hwritten, hdeadline⟩

/-- A refresh makes an entry with a deadline stay for good. -/
theorem refreshed_entry_stays :
    let faults : Faults Nat := Faults.hitting []
    let turns : List (Turn (CachedMapOp Nat)) :=
      [{ op := .ask (.get (.number 1)), time := 5 }, { op := .refresh, time := 7 }]
    let after := Stamped.serveAll faults (.expiring Nat 30) 1
      { world := .sourceMap Nat [(.number 1, 10)] } turns
    (∀ site, faults.Spares site) ∧
      ∃ slot : Slot Nat, (after.world.maps.nth 1).content.slots[Key.number 1]? = some slot ∧
        slot.deadline = none ∧
        ∀ later, (after.world.maps.nth 1).content.live? later (.number 1) = some 10 := by
  intro faults turns after
  have hslot : ((after.world.maps.nth 1).content.slots[Key.number 1]?).map (fun slot =>
      (slot.value, slot.deadline)) = some (10, none) := by decide +kernel
  have hstays : ∀ m : EntryMap Nat, (m.slots[Key.number 1]?).map (fun slot =>
      (slot.value, slot.deadline)) = some (10, none) → ∃ slot : Slot Nat,
        m.slots[Key.number 1]? = some slot ∧ slot.deadline = none ∧
          ∀ later, m.live? later (.number 1) = some 10 := by
    intro m hm
    obtain ⟨slot, hs, hslot⟩ := Option.map_eq_some_iff.1 hm
    cases slot
    cases hslot
    exact ⟨_, hs, rfl, EntryMap.live?_of_lasting hs⟩
  exact ⟨Faults.spares_hitting_nil, hstays _ hslot⟩

end TwinStore
