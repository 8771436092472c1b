import TwinStore.Proofs.Fetching

/-!
# Hits in a cached set

A set that an `OnDemandSetMap` hands out stands before a set of the source. As long as something of
it is cached, it is listed and counted from the cache alone, and so is a cached member looked for:
no call goes anywhere else (`Stand.Confined`), so that it does not matter whether the source works.
What else there is to be said of the calls to the source is how often they ask for the way to a set
(`TwinStore.Proofs.Fetching`).

Both hold of every set that was handed out with a cache, whatever was asked before and whatever
failed then (`cached_sets_spare_source`). While the cache fails, sets are handed out without one,
and these go to the source; and whoever is cut short while asking for the way leaves it to be asked
for again (`source_asked_without_failure`).
-/

namespace TwinStore

variable {V α : Type}

/-! ## Calls to one store -/

/-- Nothing has been called but one base map of sets, and no other store has changed. -/
structure Stand.Confined (i : Nat) (s s' : Stand V) : Prop where
  setting : s'.setting = s.setting
  rest : ∀ j, j ≠ i → s'.setMaps j = s.setMaps j
  calls : ∃ made, s'.calls = s.calls ++ made ∧ ∀ c ∈ made, c.site = .setMap i

namespace Stand.Confined

variable {s s' s'' : Stand V} {i : Nat}

theorem refl (s : Stand V) (i : Nat) : s.Confined i s :=
  ⟨rfl, fun _ _ => rfl, [], (List.append_nil _).symm, fun _ h => absurd h List.not_mem_nil⟩

theorem trans (h : s.Confined i s') (h' : s'.Confined i s'') : s.Confined i s'' where
  setting := h'.setting.trans h.setting
  rest j hj := (h'.rest j hj).trans (h.rest j hj)
  calls := by
    obtain ⟨made, hmade, hsite⟩ := h.calls
    obtain ⟨more, hmore, hsite'⟩ := h'.calls
    refine ⟨made ++ more, by rw [hmore, hmade, List.append_assoc], fun c hc => ?_⟩
    exact (List.mem_append.1 hc).elim (hsite c) (hsite' c)

theorem of_onSetMap (s : Stand V) (i : Nat) (op : SetMapOp) : s.Confined i (s.onSetMap i op) :=
  ⟨rfl, fun _ hj => s.setMaps_onSetMap_of_ne op hj, [.setMap i op], rfl, fun c hc => by
    rw [List.mem_singleton.1 hc]
    rfl⟩

end Stand.Confined

/-- An action that ends with each of two things ends with both. -/
theorem Action.ends_and {g : Regime V} {a : Action V α} {s : Stand V}
    {post post' : α → Stand V → Prop} (h : a.ends g post s) (h' : a.ends g post' s) :
    a.ends g (fun x s' => post x s' ∧ post' x s') s := by
  intro w hw
  obtain ⟨x, hx, hpost⟩ := h w hw
  obtain ⟨y, hy, hpost'⟩ := h' w hw
  cases hx.symm.trans hy
  exact ⟨x, hx, hpost, hpost'⟩

namespace Faults.Spares

variable {faults : Faults V} {s : Stand V} {i : Nat} {k : Key} {t : Token}
  (h : faults.Spares (.setMap i))
include h

theorem confined_onSetMap (op : SetMapOp) :
    (Backend.onSetMap i op t).ends faults.regime (fun _ s' => s.Confined i s') s :=
  h.ends_onSetMap op (.of_onSetMap s i op)

theorem confined_under (op : SetOp) :
    (op.on (Backend.setUnder i k) t).ends faults.regime (fun a s' =>
      a = (op.apply s.order (s.members i k)).1 ∧
        s.Becomes i k (op.apply s.order (s.members i k)).2 s' ∧ s.Confined i s') s := by
  have hcall : op.on (Backend.setUnder i k) t = Backend.onSetMap (V := V) i (.member k op) t := by
    cases op <;> rfl
  have hconfined : (op.on (Backend.setUnder i k) t).ends faults.regime
      (fun _ s' => s.Confined i s') s := hcall ▸ h.confined_onSetMap _
  exact Action.ends_mono (Action.ends_and (h.ends_under op) hconfined) fun _ _ ⟨⟨ha, hb⟩, hc⟩ =>
    ⟨ha, hb, hc⟩

theorem confined_collect :
    ((Backend.setUnder i k).collect t).ends faults.regime (fun xs s' =>
      xs = s.order.members (s.members i k).toList ∧ s.Confined i s') s := by
  refine Action.ends_bind (Action.ends_mono (h.confined_under .members) ?_)
  rintro _ s' ⟨rfl, -, hconfined⟩
  exact Action.ends_pure ⟨rfl, hconfined⟩

theorem confined_touch (ttl : Nat) :
    ((Backend.setMap i).touch k ttl t).ends faults.regime (fun _ s' => s.Confined i s') s := by
  unfold KeyedStore.touch
  refine Action.ends_bind (Action.ends_grants ?_)
  cases (s.grants (.setMap i)).expiry with
  | false => exact Action.ends_pure (.refl s i)
  | true => exact h.confined_onSetMap (.expire k ttl)

end Faults.Spares

/-! ## Hits -/

/-- An operation that a cached set can answer by itself, given what is cached. -/
def SetOp.Hits (cached : MemberSet) : SetOp → Prop
  | .members | .count => cached ≠ ∅
  | .contains x => x ∈ cached
  | _ => False

namespace OnDemandPair

variable {p : OnDemandPair} {faults : Faults V} {s : Stand V} {k : Key} {cell : Nat} {t : Token}
  (hcache : faults.Spares (.setMap p.cache))
include hcache

theorem confined_slide :
    ((p.filler V k cell).touch t).ends faults.regime (fun _ s' => s.Confined p.cache s') s := by
  unfold OnDemandSet.touch filler
  cases p.ttl with
  | none => exact Action.ends_pure (.refl s p.cache)
  | some ttl =>
    refine Action.ends_bind (Action.ends_mono (hcache.confined_touch ttl) ?_)
    exact fun _ _ h => Action.ends_pure h

/-- What fills the cached set has nothing to do: the cache answers. -/
theorem ends_filler_hit {op : SetOp} (hit : op.Hits (s.members p.cache k)) :
    (op.on (p.filler V k cell).store t).ends faults.regime (fun a s' =>
      a = (op.apply s.order (s.members p.cache k)).1 ∧ s.Confined p.cache s') s := by
  cases op with
  | add | remove => exact hit.elim
  | members =>
    refine Action.ends_bind (Action.ends_bind (Action.ends_mono hcache.confined_collect ?_))
    rintro xs s' ⟨rfl, hconfined⟩
    rw [Members.isEmpty_of_perm (s.order.members_perm _),
      if_neg fun h => hit (Std.ExtTreeSet.isEmpty_iff.1 h)]
    exact Action.ends_pure (Action.ends_pure ⟨rfl, hconfined⟩)
  | count =>
    refine Action.ends_bind (Action.ends_mono (hcache.confined_under .count) ?_)
    rintro n s' ⟨hn, -, hconfined⟩
    obtain rfl : n = (s.members p.cache k).size := hn
    rw [if_pos (Members.size_pos hit)]
    exact Action.ends_pure ⟨rfl, hconfined⟩
  | contains x =>
    refine Action.ends_bind (Action.ends_mono (hcache.confined_under (.contains x)) ?_)
    rintro found s₁ ⟨hfound, -, hfirst⟩
    have hthere : found = true := hfound.trans (Std.ExtTreeSet.contains_iff_mem.2 hit)
    rw [hthere, if_pos rfl]
    refine Action.ends_bind (Action.ends_mono (hcache.confined_under (.add x)) ?_)
    rintro _ s₂ ⟨-, -, hadded⟩
    refine Action.ends_bind (Action.ends_mono (confined_slide hcache) ?_)
    intro _ s₃ hslid
    exact Action.ends_pure ⟨hthere ▸ hfound, hfirst.trans (hadded.trans hslid)⟩

/-- A hit is answered by the cache, and nothing else is called. -/
theorem ends_hit {op : SetOp} (hit : op.Hits (s.members p.cache k)) :
    (op.on (p.cachedSet V k cell).store t).ends faults.regime (fun a s' =>
      a = (op.apply s.order (s.members p.cache k)).1 ∧ s.Confined p.cache s') s := by
  have hfill : (op.on (p.filler V k cell).store t).ends faults.regime (fun a s' =>
      a = (op.apply s.order (s.members p.cache k)).1 ∧ s.Confined p.cache s') s :=
    ends_filler_hit hcache hit
  cases op with
  | add | remove => exact hit.elim
  | members =>
    change ((p.cachedSet V k cell).tier.read (fun set => set.collect t)
      (fun cache xs => CacheSet.addAll cache t xs) >>= fun xs => pure (Listing.full xs)).ends _ _ _
    refine Action.ends_bind (CacheTier.ends_read (Action.ends_bind (Action.ends_mono hfill ?_)))
    rintro _ s' ⟨rfl, hconfined⟩
    have hlisted : CacheProbe.isHit (s.order.members (s.members p.cache k).toList) = true := by
      change (!(s.order.members _).isEmpty) = true
      rw [Members.isEmpty_of_perm (s.order.members_perm _), Bool.not_eq_true',
        ← Bool.not_eq_true, Std.ExtTreeSet.isEmpty_iff]
      exact hit
    refine Action.ends_pure ?_
    change if CacheProbe.isHit (s.order.members (s.members p.cache k).toList) = true then _ else _
    rw [if_pos hlisted]
    exact Action.ends_pure ⟨rfl, hconfined⟩
  | count =>
    change ((p.cachedSet V k cell).tier.readThrough fun set => set.count t).ends _ _ _
    refine CacheTier.ends_readThrough (Action.ends_mono hfill ?_)
    rintro n s' ⟨hn, hconfined⟩
    obtain rfl : n = (s.members p.cache k).size := hn
    have hcounted : CacheProbe.isHit (s.members p.cache k).size = true :=
      decide_eq_true (Members.size_pos hit)
    rw [if_pos hcounted]
    exact ⟨rfl, hconfined⟩
  | contains x =>
    change ((p.cachedSet V k cell).tier.read (fun set => set.contains x t)
      fun cache _ => cache.add x t).ends _ _ _
    refine CacheTier.ends_read (Action.ends_mono hfill ?_)
    rintro found s' ⟨hfound, hconfined⟩
    have hthere : CacheProbe.isHit found = true :=
      hfound.trans (Std.ExtTreeSet.contains_iff_mem.2 hit)
    rw [if_pos hthere]
    exact ⟨hfound, hconfined⟩

end OnDemandPair

/-! ## Sets that are handed out -/

namespace Stops

/-- A call that does not answer has been stopped. -/
theorem stopped_of_error {stops : Stops V} {w : World V} {c : Call V} {t : Token} {halt : Halt}
    (h : (stops.regime.call w c t).1 = .error halt) : stops w.visits.length c ≠ none := by
  intro hnone
  unfold regime at h
  dsimp only at h
  rw [hnone] at h
  cases h

end Stops

namespace OnDemandPair

variable {p : OnDemandPair} {stops : Stops V} {k : Key} {t : Token} {w : World V}

/-- A set is handed out with a cache, or without one if the cache did not answer. -/
inductive HandsOut (p : OnDemandPair) (stops : Stops V) (k : Key) : Route → Prop
  | cached (cell : Nat) : HandsOut p stops k (.cached .direct cell)
  | uncached (cell n : Nat) (failed : stops n (.setMap p.cache (.reach k)) ≠ none) :
      HandsOut p stops k (.uncached cell)

/-- With a cache that always answers, no set is handed out without it. -/
theorem HandsOut.cached_of_answering {route : Route} (h : p.HandsOut stops k route)
    (hanswers : ∀ n, stops n (.setMap p.cache (.reach k)) = none) :
    ∃ cell, route = .cached .direct cell := by
  cases h with
  | cached cell => exact ⟨cell, rfl⟩
  | uncached _ n failed => exact absurd (hanswers n) failed

theorem wp_route : ((p.map V).route k t).wp stops.regime
    (fun r _ => ∀ route, r = .ok route → p.HandsOut stops k route) w := by
  unfold OnDemandSetMap.route
  rw [Action.wp_bind, Action.wp_attempt]
  change Action.wp _ (Backend.onSetMap p.cache (.reach k) t >>= fun _ => pure Route.direct) _ w
  unfold Backend.onSetMap
  rw [Action.wp_bind, Action.wp_call]
  cases hr : (stops.regime.call w (.setMap p.cache (.reach k)) t).1 with
  | ok =>
    rintro _ ⟨⟩
    exact .cached _
  | error halt =>
    have hstopped := Stops.stopped_of_error hr
    cases halt with
    | failed cause =>
      rintro _ ⟨⟩
      exact .uncached _ _ hstopped
    | cut run => nofun

theorem wp_handed (use : SetUse Unit) (lent : List (Lent Unit)) :
    (use.on (fun _ => (p.map V).store) lent t).wp stops.regime (fun r _ => ∀ a, r = .ok a →
      ∀ l ∈ use.handed a, p.HandsOut stops l.key l.route) w := by
  cases use with
  | reach _ k =>
    refine Action.wp_mono wp_route fun r _ h a ha l hl => ?_
    rw [List.mem_singleton.1 hl]
    exact h a ha
  | find _ k =>
    change Action.wp _ ((p.map V).contains k t >>= fun found =>
      if found then (p.map V).route k t >>= fun route => pure (some route) else pure none) _ w
    rw [Action.wp_bind]
    refine Action.wp_mono (Action.wp_act _) fun r w₁ _ => ?_
    cases r with
    | error halt => nofun
    | ok found =>
      cases found with
      | false =>
        rintro _ ⟨⟩ l hl
        exact absurd hl List.not_mem_nil
      | true =>
        rw [Action.andThen_ok, if_pos rfl, Action.wp_bind]
        refine Action.wp_mono wp_route fun r _ h => ?_
        cases r with
        | error halt => nofun
        | ok route =>
          rintro _ ⟨⟩ l hl
          rw [List.mem_singleton.1 hl]
          exact h route rfl
  | _ => exact fun _ _ _ hl => absurd hl List.not_mem_nil

theorem handsOut_serveAll {h : Custody V Unit}
    (hh : ∀ l ∈ h.lent, p.HandsOut stops l.key l.route) (turns : List (Turn (SetUse Unit))) :
    ∀ l ∈ (h.serveAll stops.regime (fun _ => (p.map V).store) turns).lent,
      p.HandsOut stops l.key l.route := by
  induction turns generalizing h with
  | nil => exact hh
  | cons turn rest ih =>
    refine ih fun l hl => ?_
    rcases Custody.mem_lent_serve hl with hl | ⟨a, ha, hl⟩
    · exact hh l hl
    · exact wp_handed turn.op h.lent a ha l hl

end OnDemandPair

/-- **Cached sets spare the source.** Whatever has been asked of a map of sets cached on demand, and
whatever calls have failed or were cut short then: the sets that it has handed out stand before a
cache, but for those handed out while the cache did not answer. As long as no call to the cache
fails, what a set that stands before one can answer from the cache it answers so, and calls nothing
else, be it that something is cached and is to be listed or counted, or that a cached member is
looked for. And in all the turns in which a set is used, with a cache or without, the source is
asked for the way to it at most once more than it did not answer. -/
theorem cached_sets_spare_source (p : OnDemandPair) (stops : Stops V) (w : World V)
    (turns : List (Turn (SetUse Unit))) :
    let facade : Unit → SetMapStore V := fun _ => (p.map V).store
    let start : Custody V Unit := { world := w }
    let after := start.serveAll stops.regime facade turns
    (∀ l ∈ after.lent, p.HandsOut stops l.key l.route) ∧
    (∀ l ∈ after.lent, ∀ cell, l.route = .cached .direct cell →
      ∀ (faults : Faults V) (time : Nat) (op : SetOp) (t : Token),
        faults.Spares (.setMap p.cache) →
        let now := (after.world.atTime time).stand
        let out := faults.regime.act (after.world.atTime time) (op.on (l.follow facade) t)
        op.Hits (now.members p.cache l.key) →
        out.1 = .ok (op.apply now.order (now.members p.cache l.key)).1 ∧
          now.Confined p.cache out.2.stand) ∧
    (∀ place l, after.lent[place]? = some l →
      let made := start.responsesOf stops.regime facade place turns
      made.countP (Response.asksWay p.source l.key) ≤
        made.countP (Response.missesWay p.source l.key) + 1) := by
  intro facade start after
  refine ⟨?_, ?_, fun place l hl => ?_⟩
  · exact OnDemandPair.handsOut_serveAll (fun _ hl => absurd hl List.not_mem_nil) turns
  · intro l _ cell hroute faults time op t hcache now out hit
    have hends : (op.on (l.follow facade) t).ends faults.regime (fun a s' =>
        a = (op.apply now.order (now.members p.cache l.key)).1 ∧ now.Confined p.cache s') now := by
      rw [OnDemandPair.follow_of_cached hroute]
      exact OnDemandPair.ends_hit hcache hit
    obtain ⟨a, ha, rfl, hconfined⟩ := Action.ends_act hends
    exact ⟨ha, hconfined⟩
  · exact OnDemandPair.asks_once start turns hl

/-- A set is handed out and counted, which caches it; the source goes down, and the set is listed.
-/
theorem cached_sets_spare_source_down :
    let p : OnDemandPair :=
      { name := "cache", source := 0, cache := 1, ne := by decide, ttl := some 30, limit := 1000 }
    let k : Key := .text "k"
    let facade : Unit → SetMapStore Nat := fun _ => (p.map Nat).store
    let start : Custody Nat Unit := { world := .sourceSets Nat (.ofList [(k, ["a", "b"])]) }
    let turns : List (Turn (SetUse Unit)) :=
      [{ op := .reach () k }, { op := .member 0 .count, time := 5 }]
    let after := start.serveAll Stops.never.regime facade turns
    let now := (after.world.atTime 10).stand
    let made := start.responsesOf Stops.never.regime facade 0 turns
    after.lent.map Lent.key = [k] ∧
    (∀ l ∈ after.lent,
      let out := (Faults.felling (.setMap 0)).regime.act (after.world.atTime 10)
        (SetOp.members.on (l.follow facade) none)
      out.1.toOption.map Listing.items = some ["a", "b"] ∧ now.Confined 1 out.2.stand) ∧
    made.countP (Response.asksWay 0 k) ≤ made.countP (Response.missesWay 0 k) + 1 := by
  intro p k facade start turns after now made
  obtain ⟨hhanded, hhit, hasked⟩ := cached_sets_spare_source p .never start.world turns
  have hkeys : after.lent.map Lent.key = [k] := by decide +kernel
  obtain ⟨l, hone, hkey⟩ := List.map_eq_singleton_iff.1 hkeys
  have hl : l ∈ after.lent := hone ▸ List.mem_singleton_self l
  refine ⟨hkeys, fun l' hl' => ?_, ?_⟩
  · obtain rfl : l' = l := List.mem_singleton.1 (hone ▸ hl')
    obtain ⟨cell, hroute⟩ := (hhanded l' hl).cached_of_answering fun _ => rfl
    have hspared : (Faults.felling (.setMap 0) : Faults Nat).Spares (.setMap p.cache) :=
      Faults.spares_felling (by decide)
    have hcached : SetOp.members.Hits (now.members 1 l'.key) := by
      rw [hkey]
      change now.members 1 k ≠ ∅
      decide +kernel
    obtain ⟨hanswer, hconfined⟩ := hhit l' hl cell hroute (Faults.felling (.setMap 0)) 10 .members
      none hspared hcached
    refine ⟨?_, hconfined⟩
    rw [hanswer, hkey]
    decide +kernel
  · have hfetched := hasked 0 l (by rw [hone]; rfl)
    rwa [hkey] at hfetched

/-- A call has failed. -/
def Response.isFailed : Response V → Bool
  | ⟨.call _ _, .error (.failed _)⟩ => true
  | _ => false

/-- A set that is handed out while the cache does not answer is counted in the source, although the
cache could tell; and whoever is cut short while asking for the way to a set, which is no failure,
leaves it to be asked for again. -/
theorem source_asked_without_failure :
    let p : OnDemandPair :=
      { name := "cache", source := 0, cache := 1, ne := by decide, ttl := none, limit := 1000 }
    let k : Key := .text "k"
    let facade : Unit → SetMapStore Nat := fun _ => (p.map Nat).store
    let start : Custody Nat Unit := { world := .sourceSets Nat (.ofList [(k, ["a"])]) }
    let turn (op : SetUse Unit) : Turn (SetUse Unit) := { op }
    let after := start.serveAll
      (Stops.hitting [(5, .failure { cause := .backend "offline" })]).regime facade
      [turn (.reach () k), turn (.member 0 .count), turn (.reach () k)]
    let out := after.turn (Faults.hitting []).regime facade (turn (.member 1 .count))
    let made := start.responsesOf (Stops.hitting [(2, .cut 0)]).regime facade 0
      [turn (.reach () k), turn (.member 0 .count), turn (.member 0 .count)]
    (after.world.stand.members 1 k ≠ ∅ ∧ out.1.toOption = some (some 1) ∧
      (out.2.visits.drop after.world.visits.length).any (·.call.site = .setMap 0) = true) ∧
    made.countP (fun r => r.asksWay 0 k && r.isFailed) = 0 ∧
      made.countP (Response.asksWay 0 k) = 2 := by
  decide +kernel

end TwinStore
