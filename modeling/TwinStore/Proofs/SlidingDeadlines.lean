import TwinStore.Proofs.CacheDeadlines
import TwinStore.Proofs.CacheHits

/-!
# When cached sets expire

A member that is added to a set with no members starts a set without a deadline, and so does one
that is added to an expired set. In a map of sets cached on demand with a time to live, no cached
set is left so: whatever adds to a cached set, be it a filling, a member mirrored or taken over from
the source, or one confirmed, puts its expiry off before the call is over (`Stand.Refilled.expire`).
Nothing else moves a deadline (`Stand.Dated`).

Which calls these are can be told from what the two maps hold when the call comes
(`SetUse.renews`). So the deadline of a cached set tells when it was last renewed
(`cached_sets_slide`).
-/

namespace TwinStore

variable {V α : Type}

/-! ## Deadlines -/

namespace MemberMap

variable {m : MemberMap} {now : Nat} {order : Arrangement} {k k' : Key}

/-- The deadline of what is kept under a key, if anything is. -/
def deadline? (m : MemberMap) (k : Key) : Option (Option Nat) :=
  m.slots[k]?.map Slot.deadline

theorem deadline?_insert (slot : Slot MemberSet) :
    deadline? ⟨m.slots.insert k slot⟩ k' =
      if k = k' then some slot.deadline else m.deadline? k' := by
  unfold deadline?
  by_cases hk : k = k'
  · simp [hk]
  · simp [Std.ExtTreeMap.getElem?_insert, hk]

/-- What is left when some key is dropped has the deadline that it had. -/
theorem deadline?_of_erase {e : Option Nat} (h : deadline? ⟨m.slots.erase k⟩ k' = some e) :
    m.deadline? k' = some e := by
  obtain ⟨slot, hs, he⟩ := Option.map_eq_some_iff.1 h
  exact Option.map_eq_some_iff.2 ⟨slot, EntryMap.slots_of_erase hs, he⟩

theorem deadline?_of_evict {e : Option Nat} (h : deadline? (m.evict now k) k' = some e) :
    m.deadline? k' = some e := by
  obtain ⟨slot, hs, he⟩ := Option.map_eq_some_iff.1 h
  exact Option.map_eq_some_iff.2 ⟨slot, EntryMap.slots_of_evict hs, he⟩

/-- No operation on the set under a key moves a deadline, but to add. -/
theorem deadline?_of_applyUnder {op : SetOp} (hop : ∀ x, op ≠ .add x) {e : Option Nat}
    (h : deadline? (op.applyUnder order now k m).2 k' = some e) : m.deadline? k' = some e := by
  cases op with
  | add x => exact absurd rfl (hop x)
  | members | count => exact deadline?_of_evict h
  | contains x => exact h
  | remove x =>
    change deadline? (m.removeMember now k x).2 k' = some e at h
    unfold removeMember at h
    cases hs : m.slots[k]? with
    | none => rwa [hs] at h
    | some slot =>
      rw [hs] at h
      dsimp only at h
      split at h
      · exact h
      · dsimp only at h
        split at h
        · exact deadline?_of_erase h
        · rw [deadline?_insert] at h
          split at h
          · rename_i hk
            rw [← h, ← hk, deadline?, hs]
            rfl
          · exact h

/-- A member is added under its key alone, where something is live then. -/
theorem addMember_eq (m : MemberMap) (now : Nat) (k : Key) (x : String) :
    ∃ slot : Slot MemberSet, m.addMember now k x = ⟨m.slots.insert k slot⟩ ∧
      ((m.addMember now k x).live? now k).isSome = true := by
  have hmembers := m.liveMembers_addMember now k k x
  rw [if_pos rfl] at hmembers
  have hlive : ((m.addMember now k x).live? now k).isSome = true := by
    cases hl : (m.addMember now k x).live? now k with
    | some members => rfl
    | none =>
      have hnothing : (m.addMember now k x).liveMembers now k = ∅ := by
        rw [liveMembers, hl]
        rfl
      have hx : x ∈ (m.liveMembers now k).insert x := Members.mem_insert_iff.2 (.inl rfl)
      rw [← hmembers, hnothing] at hx
      exact absurd hx Std.ExtTreeSet.not_mem_empty
  refine (?_ : ∃ slot, _ = _).imp fun _ h => ⟨h, hlive⟩
  unfold addMember
  split
  · split
    · exact ⟨_, rfl⟩
    · exact ⟨_, rfl⟩
  · exact ⟨_, rfl⟩

end MemberMap

namespace Stand

variable {i : Nat} {k : Key} {d : Nat} {r : Bool} {s s' s'' : Stand V}

/-- In a base map of sets no deadline has been moved, although some keys may have been dropped. -/
structure Unmoved (i : Nat) (s s' : Stand V) : Prop where
  now : s'.now = s.now
  grants : s'.grants = s.grants
  deadlines : ∀ k e, (s'.setMaps i).deadline? k = some e → (s.setMaps i).deadline? k = some e

/-- Under one key of a base map of sets the deadline has been set, if `r`; besides, some keys may
have been dropped, but no deadline has been moved. -/
structure Dated (i : Nat) (k : Key) (d : Nat) (r : Bool) (s s' : Stand V) : Prop where
  now : s'.now = s.now
  grants : s'.grants = s.grants
  deadlines : ∀ k' e, (s'.setMaps i).deadline? k' = some e →
    if r = true ∧ k' = k then e = some d else (s.setMaps i).deadline? k' = some e

/-- Members have been added under one key of a base map of sets, whatever the deadline is there now;
besides, some keys may have been dropped, but no deadline has been moved. -/
structure Refilled (i : Nat) (k : Key) (s s' : Stand V) : Prop where
  now : s'.now = s.now
  grants : s'.grants = s.grants
  live : ((s'.setMaps i).live? s.now k).isSome = true
  deadlines : ∀ k' e, k' ≠ k → (s'.setMaps i).deadline? k' = some e →
    (s.setMaps i).deadline? k' = some e

namespace Unmoved

theorem refl (s : Stand V) (i : Nat) : s.Unmoved i s := ⟨rfl, rfl, fun _ _ h => h⟩

theorem trans (h : s.Unmoved i s') (h' : s'.Unmoved i s'') : s.Unmoved i s'' where
  now := h'.now.trans h.now
  grants := h'.grants.trans h.grants
  deadlines k e he := h.deadlines k e (h'.deadlines k e he)

/-- What is done to another map moves no deadline in this one. -/
theorem of_becomes {j : Nat} {x : MemberSet} (hj : i ≠ j) (h : s.Becomes j k x s') :
    s.Unmoved i s' where
  now := h.now_eq
  grants := congrArg (·.2.2.2.1) h.setting
  deadlines k' e he := by rwa [h.rest i hj] at he

/-- A call moves no deadline if the map has none after it that it had not before. -/
theorem of_quiet (op : SetMapOp) (hop : ∀ k e,
      MemberMap.deadline? (op.apply s.order s.now s.date (s.setMaps i)).2 k = some e →
        (s.setMaps i).deadline? k = some e) : s.Unmoved i (s.onSetMap i op) where
  now := rfl
  grants := rfl
  deadlines k e h := by
    rw [setMaps_onSetMap_self] at h
    exact hop k e h

theorem dated (h : s.Unmoved i s') : s.Dated i k d false s' where
  now := h.now
  grants := h.grants
  deadlines k' e he := by
    rw [if_neg fun h => Bool.false_ne_true h.1]
    exact h.deadlines k' e he

/-- No deadline has been moved, and then one may have been set. -/
theorem then_dated (h : s.Unmoved i s') (h' : s'.Dated i k d r s'') : s.Dated i k d r s'' where
  now := h'.now.trans h.now
  grants := h'.grants.trans h.grants
  deadlines k' e he := by
    have hlast := h'.deadlines k' e he
    split at hlast
    · rwa [if_pos ‹_›]
    · rw [if_neg ‹_›]
      exact h.deadlines k' e hlast

end Unmoved

theorem Dated.then_unmoved (h : s.Dated i k d r s') (h' : s'.Unmoved i s'') :
    s.Dated i k d r s'' where
  now := h'.now.trans h.now
  grants := h'.grants.trans h.grants
  deadlines k' e he := h.deadlines k' e (h'.deadlines k' e he)

namespace Refilled

/-- Adding a member under a key refills it. -/
theorem of_add (s : Stand V) (i : Nat) (k : Key) (x : String) :
    s.Refilled i k (s.onSetMap i (.member k (.add x))) := by
  obtain ⟨slot, hslot, hlive⟩ := (s.setMaps i).addMember_eq s.now k x
  have hafter : (s.onSetMap i (.member k (.add x))).setMaps i = (s.setMaps i).addMember s.now k x :=
    s.setMaps_onSetMap_self i _
  refine ⟨rfl, rfl, hafter ▸ hlive, fun k' e hk h => ?_⟩
  rwa [hafter, hslot, MemberMap.deadline?_insert, if_neg hk.symm] at h

theorem trans (h : s.Refilled i k s') (h' : s'.Refilled i k s'') : s.Refilled i k s'' where
  now := h'.now.trans h.now
  grants := h'.grants.trans h.grants
  live := h.now ▸ h'.live
  deadlines k' e hk he := h.deadlines k' e hk (h'.deadlines k' e hk he)

/-- Some time is given to the set that members have been added to. -/
theorem expire (h : s.Refilled i k s') (ttl : Nat) :
    s.Dated i k (s.now + ttl) true (s'.onSetMap i (.expire k ttl)) := by
  obtain ⟨members, hmembers⟩ := Option.isSome_iff_exists.1 h.live
  have hafter : (s'.onSetMap i (.expire k ttl)).setMaps i =
      ⟨(s'.setMaps i).slots.insert k { value := members, deadline := some (s.now + ttl) }⟩ := by
    rw [setMaps_onSetMap_self]
    change ((s'.setMaps i).expireAt s'.now k (s'.now + ttl)).2 = _
    unfold EntryMap.expireAt
    rw [h.now, hmembers]
  refine ⟨h.now, h.grants, fun k' e he => ?_⟩
  rw [hafter, MemberMap.deadline?_insert] at he
  by_cases hk : k = k'
  · rw [if_pos hk] at he
    rw [if_pos ⟨rfl, hk.symm⟩]
    exact (Option.some.inj he).symm
  · rw [if_neg hk] at he
    rw [if_neg fun h => hk h.2.symm]
    exact h.deadlines k' e (Ne.symm hk) he

end Refilled

end Stand

/-! ## Calls to the cache -/

namespace Faults.Spares

variable {faults : Faults V} {s : Stand V} {i : Nat} {k : Key} {t : Token}
  (h : faults.Spares (.setMap i))
include h

/-- A call after whose operation every deadline is an old one moves no deadline. -/
theorem unmoved_onSetMap (op : SetMapOp) (hop : ∀ k e,
      MemberMap.deadline? (op.apply s.order s.now s.date (s.setMaps i)).2 k = some e →
        (s.setMaps i).deadline? k = some e) :
    (Backend.onSetMap i op t).ends faults.regime (fun _ s' => s.Unmoved i s') s :=
  h.ends_onSetMap op (.of_quiet op hop)

/-- An operation on the set under a key moves no deadline, unless it adds. -/
theorem unmoved_under (op : SetOp) (hop : ∀ x, op ≠ .add x) :
    (op.on (Backend.setUnder i k) t).ends faults.regime (fun a s' =>
      (a = (op.apply s.order (s.members i k)).1 ∧
        s.Becomes i k (op.apply s.order (s.members i k)).2 s') ∧ s.Unmoved i s') s := by
  have hcall : op.on (Backend.setUnder i k) t = Backend.onSetMap (V := V) i (.member k op) t := by
    cases op <;> rfl
  have hunmoved : (op.on (Backend.setUnder i k) t).ends faults.regime
      (fun _ s' => s.Unmoved i s') s :=
    hcall ▸ h.unmoved_onSetMap _ fun _ _ => MemberMap.deadline?_of_applyUnder hop
  exact Action.ends_and (h.ends_under op) hunmoved

theorem refilled_add (x : String) :
    ((Backend.setUnder i k).add x t).ends faults.regime (fun _ s' => s.Refilled i k s') s :=
  h.ends_onSetMap (.member k (.add x)) (.of_add s i k x)

end Faults.Spares

/-! ## Renewals -/

/-- Whether an operation on a cached set renews it, given the source's members and the cached ones:
it is filled, or it has members and one is added, taken over or confirmed. -/
def SetOp.renews (source cached : MemberSet) : SetOp → Bool
  | .add _ => !cached.isEmpty
  | .remove _ => false
  | .members | .count => cached.isEmpty && !source.isEmpty
  | .contains x => !cached.isEmpty && (cached.contains x || source.contains x)

namespace OnDemandPair

variable {p : OnDemandPair} {faults : Faults V} {s s₁ s₂ : Stand V} {k : Key} {cell ttl : Nat}
  {t : Token}

section Filler

variable (hcache : faults.Spares (.setMap p.cache)) (httl : p.ttl = some ttl)
  (hexpiry : (s.grants (.setMap p.cache)).expiry = true)
include hcache httl hexpiry

/-- The expiry of a set that members have been added to is put off. -/
theorem dated_slide (h : s.Unmoved p.cache s₁)
    (hfilled : s₁.Refilled p.cache k s₂) :
    ((p.filler V k cell).touch t).ends faults.regime
      (fun _ s' => s.Dated p.cache k (s.now + ttl) true s') s₂ := by
  unfold OnDemandSet.touch filler
  rw [httl]
  refine Action.ends_bind (Action.ends_bind (Action.ends_grants ?_))
  rw [hfilled.grants, h.grants, hexpiry]
  refine hcache.ends_onSetMap (.expire k ttl) (Action.ends_pure ?_)
  exact h.then_dated (h.now ▸ hfilled.expire ttl)

/-- A member is added, and the expiry of the set put off. -/
theorem dated_addThenSlide (h : s.Unmoved p.cache s₁) (x : String) :
    ((Backend.setUnder p.cache k).add x t >>= fun _ => (p.filler V k cell).touch t).ends
      faults.regime (fun _ s' => s.Dated p.cache k (s.now + ttl) true s') s₁ :=
  Action.ends_bind (Action.ends_mono (hcache.refilled_add x) fun _ _ hadded =>
    dated_slide hcache httl hexpiry h hadded)

/-- A member is mirrored into a cached set that has members already, from a state in which nothing
has been moved. -/
theorem dated_add (h : s.Unmoved p.cache s₁) (x : String) :
    ((p.filler V k cell).add x t).ends faults.regime (fun _ s' =>
      s.Dated p.cache k (s.now + ttl) (!(s₁.members p.cache k).isEmpty) s') s₁ := by
  unfold OnDemandSet.add
  refine Action.ends_bind (Action.ends_mono
    (hcache.unmoved_under .count nofun) ?_)
  rintro n s₂ ⟨⟨hn, -⟩, hread⟩
  have hcounted := h.trans hread
  obtain rfl : n = (s₁.members p.cache k).size := hn
  rw [Std.ExtTreeSet.isEmpty_eq_size_beq_zero]
  by_cases hzero : (s₁.members p.cache k).size = 0
  · rw [if_pos hzero, beq_iff_eq.2 hzero]
    exact Action.ends_pure hcounted.dated
  · rw [if_neg hzero, beq_false_of_ne hzero]
    exact dated_addThenSlide hcache httl hexpiry hcounted x

/-- A look-up answers for the cached members, and dates their key where it finds the member. -/
theorem dated_contains (x : String) :
    ((p.filler V k cell).contains x t).ends faults.regime (fun found s' =>
      found = (s.members p.cache k).contains x ∧
        (found = false → s.Becomes p.cache k (s.members p.cache k) s' ∧ s.Unmoved p.cache s') ∧
        s.Dated p.cache k (s.now + ttl) found s') s := by
  unfold OnDemandSet.contains
  refine Action.ends_bind (Action.ends_mono
    (hcache.unmoved_under (.contains x) nofun) ?_)
  rintro found s₁ ⟨⟨hfound, hsame⟩, hasked⟩
  have hthere : found = (s.members p.cache k).contains x := hfound
  cases found with
  | false => exact Action.ends_pure ⟨hthere, fun _ => ⟨hsame, hasked⟩, hasked.dated⟩
  | true =>
    rw [if_pos rfl]
    change ((Backend.setUnder p.cache k).add x t >>= fun _ => (p.filler V k cell).touch t >>=
      fun _ => pure true).ends _ _ _
    rw [← bind_assoc]
    refine Action.ends_bind (Action.ends_mono
      (dated_addThenSlide hcache httl hexpiry hasked x) fun _ _ h => ?_)
    exact Action.ends_pure ⟨hthere, nofun, h⟩

omit httl hexpiry in
/-- More members are added to a set that members have been added to. -/
theorem refilled_addUntilError (xs : List String) (seeded : Nat) (h : s.Refilled p.cache k s₁) :
    ((p.filler V k cell).addUntilError t xs seeded).ends faults.regime (fun n s' =>
      n = seeded + xs.length ∧ s.Refilled p.cache k s') s₁ := by
  induction xs generalizing s₁ seeded with
  | nil => exact Action.ends_pure ⟨rfl, h⟩
  | cons x xs ih =>
    refine Action.ends_bind (Action.ends_attempt (Action.ends_mono (hcache.refilled_add x) ?_))
    intro _ s₂ hadded
    refine Action.ends_mono (ih (seeded + 1) (h.trans hadded)) ?_
    rintro n s' ⟨rfl, hrest⟩
    exact ⟨by simp only [List.length_cons]; omega, hrest⟩

variable (hsource : faults.Spares (.setMap p.source))
include hsource

/-- A cached set is filled with what the source has, from a state in which nothing has been moved.
-/
theorem dated_seed (h : s.Unmoved p.cache s₁)
    (hsame : s₁.members p.source k = s.members p.source k) :
    ((p.filler V k cell).seed t).ends faults.regime (fun _ s' =>
      s.Dated p.cache k (s.now + ttl) (!(s.members p.source k).isEmpty) s') s₁ := by
  unfold OnDemandSet.seed
  refine Action.ends_bind (Action.ends_mono (ends_collectSource hsource) ?_)
  rintro xs s₂ ⟨hxs, hread⟩
  have hfirst : s.Unmoved p.cache s₂ := h.trans (.of_becomes p.ne.symm hread)
  have hperm : xs.Perm (s.members p.source k).toList := by
    rw [hxs, hsame]
    exact s₁.order.members_perm _
  rw [← Members.isEmpty_of_perm hperm]
  cases xs with
  | nil => exact Action.ends_pure hfirst.dated
  | cons x xs =>
    refine Action.ends_bind (Action.ends_bind (Action.ends_attempt (Action.ends_mono
      (hcache.refilled_add x) ?_)))
    intro _ s₃ hadded
    refine Action.ends_mono (refilled_addUntilError hcache xs 1 hadded) ?_
    rintro n s₄ ⟨rfl, hfilled⟩
    rw [if_pos (by omega)]
    refine Action.ends_bind (Action.ends_attempt (Action.ends_mono
      (dated_slide hcache httl hexpiry hfirst hfilled) fun _ _ h => ?_))
    exact Action.ends_bind (Action.ends_count (Action.ends_pure h))

theorem dated_collect :
    ((p.filler V k cell).collect t).ends faults.regime (fun _ s' =>
      s.Dated p.cache k (s.now + ttl)
        ((s.members p.cache k).isEmpty && !(s.members p.source k).isEmpty) s') s := by
  unfold OnDemandSet.collect SetStore.collect
  rw [bind_assoc]
  refine Action.ends_bind (Action.ends_mono
    (hcache.unmoved_under .members nofun) ?_)
  rintro _ s₁ ⟨⟨rfl, hsame⟩, hread⟩
  refine Action.ends_bind (Action.ends_pure ?_)
  change Action.ends _
    (if (s.order.members (s.members p.cache k).toList).isEmpty = true then _ else _) _ _
  rw [Members.isEmpty_of_perm (s.order.members_perm _)]
  cases (s.members p.cache k).isEmpty with
  | false => exact Action.ends_pure hread.dated
  | true =>
    rw [if_pos rfl, Bool.true_and]
    exact dated_seed hcache httl hexpiry hsource hread (hsame.others _ _ (.inl p.ne))

theorem dated_count :
    ((p.filler V k cell).count t).ends faults.regime (fun _ s' =>
      s.Dated p.cache k (s.now + ttl)
        ((s.members p.cache k).isEmpty && !(s.members p.source k).isEmpty) s') s := by
  unfold OnDemandSet.count
  refine Action.ends_bind (Action.ends_mono
    (hcache.unmoved_under .count nofun) ?_)
  rintro n s₁ ⟨⟨hn, hsame⟩, hread⟩
  obtain rfl : n = (s.members p.cache k).size := hn
  rw [Std.ExtTreeSet.isEmpty_eq_size_beq_zero]
  by_cases hzero : (s.members p.cache k).size = 0
  · rw [if_neg (by omega), beq_iff_eq.2 hzero, Bool.true_and]
    refine Action.ends_bind (Action.ends_mono
      (dated_seed hcache httl hexpiry hsource hread (hsame.others _ _ (.inl p.ne))) fun _ _ h => ?_)
    exact Action.ends_pure h
  · rw [if_pos (by omega), beq_false_of_ne hzero]
    exact Action.ends_pure hread.dated

/-! ### The cached set -/

omit hcache httl hexpiry hsource in
/-- A read of all members: on a miss the source is read again, which moves nothing. -/
theorem dated_shown {α : Type} [CacheProbe α] (op : SetStore V → Action V α) (f : MemberSet → α)
    (hhit : ∀ c, CacheProbe.isHit (f c) = !c.isEmpty) {renewed : Bool}
    (hread : ∀ s', s'.order = s.order → (op ((p.map V).sourceSet k cell)).ends faults.regime
      (fun a s'' => a = f (s'.members p.source k) ∧
        s'.Becomes p.source k (s'.members p.source k) s'') s')
    (hfill : (op (p.filler V k cell).store).ends faults.regime (p.Shows k f s) s)
    (hdated : (op (p.filler V k cell).store).ends faults.regime
      (fun _ s' => s.Dated p.cache k (s.now + ttl) renewed s') s) :
    (op (p.filler V k cell).store).ends faults.regime (fun a s' =>
      if CacheProbe.isHit a = true then s.Dated p.cache k (s.now + ttl) renewed s' else
        (op ((p.map V).sourceSet k cell)).ends faults.regime (fun b s'' =>
          CacheProbe.isHit b = false ∧ s.Dated p.cache k (s.now + ttl) renewed s'') s') s := by
  refine Action.ends_mono (Action.ends_and (Action.ends_and hfill
    (ends_shown op f hhit hread hfill)) hdated) ?_
  rintro a s₁ ⟨⟨⟨-, y, -, hleaves⟩, hshown⟩, h⟩
  split
  · exact h
  · rename_i miss
    rw [if_neg miss] at hshown
    refine Action.ends_mono (Action.ends_and hshown (hread s₁ hleaves.order_eq)) ?_
    rintro b s₂ ⟨⟨hmiss, -⟩, -, hsame⟩
    exact ⟨hmiss, h.then_unmoved (.of_becomes p.ne.symm hsame)⟩

theorem dated_on_add (x : String) :
    ((SetOp.add x).on (p.cachedSet V k cell).store t).ends faults.regime (fun _ s' =>
      s.Dated p.cache k (s.now + ttl)
        ((SetOp.add x).renews (s.members p.source k) (s.members p.cache k)) s') s := by
  change ((p.cachedSet V k cell).tier.write (fun set => set.add x t) fun cache _ => some do
    cache.add x t
    return true).ends _ _ _
  refine CacheTier.ends_write (Action.ends_mono (ends_sourceSet hsource (.add x)) ?_)
  rintro _ s₁ ⟨-, hadded⟩
  refine Action.ends_bind (Action.ends_mono
    (dated_add hcache httl hexpiry (.of_becomes p.ne.symm hadded) x) fun _ _ h => ?_)
  rw [hadded.others _ _ (.inl p.ne.symm)] at h
  exact Action.ends_pure ⟨rfl, h⟩

omit httl hexpiry in
theorem dated_on_remove (x : String) :
    ((SetOp.remove x).on (p.cachedSet V k cell).store t).ends faults.regime (fun _ s' =>
      s.Dated p.cache k (s.now + ttl)
        ((SetOp.remove x).renews (s.members p.source k) (s.members p.cache k)) s') s := by
  change ((p.cachedSet V k cell).tier.write (fun set => set.remove x t) fun cache _ => some do
    let _ ← cache.remove x t
    return true).ends _ _ _
  refine CacheTier.ends_write (Action.ends_mono (ends_sourceSet hsource (.remove x)) ?_)
  rintro _ s₁ ⟨-, hleft⟩
  have hfirst : s.Unmoved p.cache s₁ := .of_becomes p.ne.symm hleft
  refine Action.ends_bind (Action.ends_mono
    (hcache.unmoved_under (.remove x) nofun) ?_)
  rintro _ s₂ ⟨-, hmirrored⟩
  exact Action.ends_pure ⟨rfl, (hfirst.trans hmirrored).dated⟩

theorem dated_on_members :
    (SetOp.members.on (p.cachedSet V k cell).store t).ends faults.regime (fun _ s' =>
      s.Dated p.cache k (s.now + ttl)
        (SetOp.members.renews (s.members p.source k) (s.members p.cache k)) s') s := by
  change ((p.cachedSet V k cell).tier.read (fun set => set.collect t)
    (fun cache xs => CacheSet.addAll cache t xs) >>= fun xs => pure (Listing.full xs)).ends _ _ _
  have hhit (c : MemberSet) : (!(s.order.members c.toList).isEmpty) = !c.isEmpty := by
    rw [Members.isEmpty_of_perm (s.order.members_perm _)]
  have hread (s' : Stand V) (horder : s'.order = s.order) :
      (((p.map V).sourceSet k cell).collect t).ends faults.regime (fun xs s'' =>
        xs = s.order.members (s'.members p.source k).toList ∧
          s'.Becomes p.source k (s'.members p.source k) s'') s' :=
    horder ▸ ends_collectSource hsource
  have hfilled {post : List String → Stand V → Prop}
      (h : ((p.filler V k cell).collect t).ends faults.regime post s) :
      ((p.filler V k cell).store.collect t).ends faults.regime post s :=
    Action.ends_bind (Action.ends_bind (Action.ends_mono h
      fun _ _ h => Action.ends_pure (Action.ends_pure h)))
  refine Action.ends_bind (CacheTier.ends_read (Action.ends_mono (dated_shown
    (fun set => set.collect t) (fun c => s.order.members c.toList) hhit hread
    (hfilled (ends_collect hsource hcache))
    (hfilled (dated_collect hcache httl hexpiry hsource))) ?_))
  intro xs s₁ h
  split at h
  · rename_i hit
    rw [if_pos hit]
    exact Action.ends_pure h
  · rename_i miss
    rw [if_neg miss]
    refine Action.ends_mono h ?_
    rintro ys s₂ ⟨hnone, hread⟩
    rw [if_neg (by rw [hnone]; exact Bool.false_ne_true)]
    exact Action.ends_pure hread

theorem dated_on_count :
    (SetOp.count.on (p.cachedSet V k cell).store t).ends faults.regime (fun _ s' =>
      s.Dated p.cache k (s.now + ttl)
        (SetOp.count.renews (s.members p.source k) (s.members p.cache k)) s') s := by
  change ((p.cachedSet V k cell).tier.readThrough fun set => set.count t).ends _ _ _
  refine CacheTier.ends_readThrough (Action.ends_mono (dated_shown (fun set => set.count t)
    Std.ExtTreeSet.size Members.decide_size_pos (fun _ _ => ends_sourceSet hsource .count)
    (ends_size hsource hcache) (dated_count hcache httl hexpiry hsource)) ?_)
  intro n s₁ h
  split at h
  · rename_i hit
    rw [if_pos hit]
    exact h
  · rename_i miss
    rw [if_neg miss]
    exact Action.ends_mono h fun _ _ hread => hread.2

theorem dated_on_contains (x : String) :
    ((SetOp.contains x).on (p.cachedSet V k cell).store t).ends faults.regime (fun _ s' =>
      s.Dated p.cache k (s.now + ttl)
        ((SetOp.contains x).renews (s.members p.source k) (s.members p.cache k)) s') s := by
  change ((p.cachedSet V k cell).tier.read (fun set => set.contains x t)
    fun cache _ => cache.add x t).ends _ _ _
  refine CacheTier.ends_read (Action.ends_mono (dated_contains hcache httl hexpiry x) ?_)
  rintro found s₁ ⟨hfound, hsame, hasked⟩
  have hrenews : (SetOp.contains x).renews (s.members p.source k) (s.members p.cache k) =
      (!(s.members p.cache k).isEmpty && (found || (s.members p.source k).contains x)) := by
    rw [hfound]
    rfl
  rw [hrenews]
  cases found with
  | true =>
    have hthere : (s.members p.cache k).isEmpty = false :=
      Std.ExtTreeSet.isEmpty_eq_false_iff.2
        (Std.ExtTreeSet.ne_empty_of_mem (Std.ExtTreeSet.contains_iff_mem.1 hfound.symm))
    rw [if_pos (show CacheProbe.isHit true = true from rfl), hthere]
    exact hasked
  | false =>
    obtain ⟨hkept, hunmoved⟩ := hsame rfl
    rw [if_neg (show ¬ CacheProbe.isHit false = true from Bool.false_ne_true)]
    refine Action.ends_mono (ends_sourceSet hsource (.contains x)) ?_
    rintro there s₂ ⟨hthere, hread⟩
    have hknown : there = (s.members p.source k).contains x := by
      rw [hthere, hkept.others _ _ (.inl p.ne)]
      rfl
    have hfirst : s.Unmoved p.cache s₂ := hunmoved.trans (.of_becomes p.ne.symm hread)
    rw [Bool.false_or, ← hknown]
    cases there with
    | false =>
      rw [if_neg (show ¬ CacheProbe.isHit false = true from Bool.false_ne_true), Bool.and_false]
      exact hfirst.dated
    | true =>
      rw [if_pos (show CacheProbe.isHit true = true from rfl), Bool.and_true]
      refine Action.ends_mono (dated_add hcache httl hexpiry hfirst x) fun _ _ h => ?_
      rwa [hread.others _ _ (.inl p.ne.symm), hkept.here] at h

/-- Whatever is asked of a cached set, its deadline is moved if that renews it, and no other is. -/
theorem dated_on (op : SetOp) :
    (op.on (p.cachedSet V k cell).store t).ends faults.regime (fun _ s' =>
      s.Dated p.cache k (s.now + ttl) (op.renews (s.members p.source k) (s.members p.cache k)) s')
      s := by
  cases op with
  | add x => exact dated_on_add hcache httl hexpiry hsource x
  | remove x => exact dated_on_remove hcache hsource x
  | members => exact dated_on_members hcache httl hexpiry hsource
  | contains x => exact dated_on_contains hcache httl hexpiry hsource x
  | count => exact dated_on_count hcache httl hexpiry hsource

end Filler

/-! ## Calls to the map -/

/-- The key under which a use of the map, or of a set that it has handed out, renews the cached set,
if it renews one. -/
def renewed (p : OnDemandPair) (s : Stand V) (lent : List (Lent Unit)) : SetUse Unit → Option Key
  | .member place op => (lent[place]?.map Lent.key).filter fun k =>
      op.renews (s.members p.source k) (s.members p.cache k)
  | .add _ k value overwrite =>
    -- A set that was handed out is listed when it is to be stored elsewhere.
    if (s.setMaps p.source).accepts s.now k overwrite then
      (value.keys lent).find? fun k =>
        SetOp.members.renews (s.members p.source k) (s.members p.cache k)
    else none
  | _ => none

/-- What a use of the map hands out and what it does to deadlines. -/
structure Renews (p : OnDemandPair) (ttl : Nat) (lent : List (Lent Unit)) (use : SetUse Unit)
    (s : Stand V) (b : use.Answer) (s' : Stand V) : Prop where
  found : ∀ l ∈ use.handed b, ∃ cell, l.route = .cached .direct cell
  grants : s'.grants = s.grants
  deadlines : ∀ k e, (s'.setMaps p.cache).deadline? k = some e →
    if p.renewed s lent use = some k then e = some (s.now + ttl)
    else (s.setMaps p.cache).deadline? k = some e

section Map

variable {lent : List (Lent Unit)} {use : SetUse Unit} {b : use.Answer} {s' : Stand V} {r : Bool}

theorem Renews.of_unmoved (h : s.Unmoved p.cache s') (hnone : p.renewed s lent use = none)
    (hfound : ∀ l ∈ use.handed b, ∃ cell, l.route = .cached .direct cell) :
    p.Renews ttl lent use s b s' where
  found := hfound
  grants := h.grants
  deadlines k' e he := by
    rw [hnone, if_neg nofun]
    exact h.deadlines k' e he

/-- A use that hands nothing out and renews nothing has only to leave the deadlines alone. -/
theorem Renews.of_idle (h : s.Unmoved p.cache s') (hnone : p.renewed s lent use = none)
    (hnothing : use.handed b = []) : p.Renews ttl lent use s b s' :=
  .of_unmoved h hnone fun _ hl => absurd (hnothing ▸ hl) List.not_mem_nil

theorem Renews.of_dated (h : s.Dated p.cache k (s.now + ttl) r s')
    (hrenewed : p.renewed s lent use = (some k).filter fun _ => r)
    (hnothing : use.handed b = []) : p.Renews ttl lent use s b s' where
  found l hl := absurd (hnothing ▸ hl) List.not_mem_nil
  grants := h.grants
  deadlines k' e he := by
    have hdeadline := h.deadlines k' e he
    have hiff : p.renewed s lent use = some k' ↔ r = true ∧ k' = k := by
      rw [hrenewed, Option.filter_some, Option.ite_none_right_eq_some, Option.some_inj,
        eq_comm (a := k)]
    simpa only [hiff] using hdeadline

section Cache

variable (hcache : faults.Spares (.setMap p.cache))
include hcache

theorem unmoved_invalidate :
    ((p.map V).invalidate k t).ends faults.regime (fun _ s' => s.Unmoved p.cache s') s := by
  unfold OnDemandSetMap.invalidate
  refine Action.ends_bind (Action.ends_attempt (Action.ends_mono
    (hcache.unmoved_onSetMap (.remove k) fun _ _ => MemberMap.deadline?_of_erase) ?_))
  exact fun _ _ h => Action.ends_pure h

theorem unmoved_route :
    ((p.map V).route k t).ends faults.regime (fun route s' =>
      (∃ cell, route = .cached .direct cell) ∧ s.Unmoved p.cache s') s := by
  unfold OnDemandSetMap.route
  refine Action.ends_bind (Action.ends_attempt (Action.ends_bind (Action.ends_mono
    (hcache.unmoved_onSetMap (.reach k) fun _ _ => id) ?_)))
  intro _ s' h
  exact Action.ends_pure (Action.ends_bind (Action.ends_ask (fun _ => rfl) fun cell =>
    Action.ends_pure ⟨⟨cell, rfl⟩, h⟩))

variable (hsource : faults.Spares (.setMap p.source))
include hsource

theorem unmoved_exists :
    ((p.map V).contains k t).ends faults.regime (fun _ s' => s.Unmoved p.cache s') s := by
  unfold OnDemandSetMap.contains
  refine Action.ends_bind (Action.ends_attempt (Action.ends_mono
    (hcache.unmoved_onSetMap (.contains k) fun _ _ => MemberMap.deadline?_of_evict) ?_))
  intro found s₁ hasked
  cases found with
  | true => exact Action.ends_bind (Action.ends_count (Action.ends_pure hasked))
  | false =>
    refine Action.ends_bind (Action.ends_count (Action.ends_mono hsource.ends_contains ?_))
    exact fun _ _ ⟨_, hread⟩ => hasked.trans (.of_becomes p.ne.symm hread)

theorem renews_find :
    ((SetUse.find () k).on (fun _ => (p.map V).store) lent t).ends faults.regime
      (p.Renews ttl lent (.find () k) s) s := by
  refine Action.ends_bind (Action.ends_mono (unmoved_exists hcache hsource) ?_)
  intro found s₁ hasked
  cases found with
  | false => exact Action.ends_pure (.of_idle hasked rfl rfl)
  | true =>
    refine Action.ends_bind (Action.ends_mono (unmoved_route hcache) ?_)
    rintro route s₂ ⟨hway, hreached⟩
    refine Action.ends_pure (.of_unmoved (hasked.trans hreached) rfl fun l hl => ?_)
    rw [List.mem_singleton.1 hl]
    exact hway

theorem renews_remove :
    ((SetUse.remove () k).on (fun _ => (p.map V).store) lent t).ends faults.regime
      (p.Renews ttl lent (.remove () k) s) s := by
  refine Action.ends_bind (Action.ends_mono hsource.ends_remove ?_)
  rintro removed s₁ ⟨-, hgone⟩
  have hfirst : s.Unmoved p.cache s₁ := .of_becomes p.ne.symm hgone
  refine Action.ends_bind (Action.ends_mono (unmoved_invalidate hcache) fun _ _ h => ?_)
  exact Action.ends_pure (.of_idle (hfirst.trans h) rfl rfl)

variable (httl : p.ttl = some ttl) (hexpiry : (s.grants (.setMap p.cache)).expiry = true)
  (hlent : ∀ l ∈ lent, ∃ cell, l.route = .cached .direct cell)
include httl hexpiry hlent

theorem renews_member (place : Nat) (op : SetOp) :
    ((SetUse.member place op).on (fun _ => (p.map V).store) lent t).ends faults.regime
      (p.Renews ttl lent (.member place op) s) s := by
  cases hl : lent[place]? with
  | none =>
    rw [SetUse.on_member_of_none hl]
    refine Action.ends_pure (.of_idle (.refl s _) ?_ rfl)
    simp only [renewed, hl]
    rfl
  | some l =>
    obtain ⟨cell, hroute⟩ := hlent l (List.mem_of_getElem? hl)
    rw [SetUse.on_member_of_some hl, follow_of_cached hroute]
    refine Action.ends_bind (Action.ends_mono (dated_on hcache httl hexpiry hsource op) ?_)
    intro b s' h
    refine Action.ends_pure (.of_dated h ?_ rfl)
    simp only [renewed, hl]
    rfl

/-- A whole set is listed that is the caller's own, or one that the map has handed out. -/
theorem dated_collectWhole (value : Whole) :
    ((value.set (fun _ => (p.map V).store) lent).collect t).ends faults.regime (fun _ s' =>
      ∃ k r, (value.keys lent).find? (fun k =>
          SetOp.members.renews (s.members p.source k) (s.members p.cache k)) =
          (some k).filter (fun _ => r) ∧
        s.Dated p.cache k (s.now + ttl) r s') s := by
  have hown (c : MemberSet) {keys : List Key} (hkeys : keys = []) {f : Key → Bool} :
      ((SetStore.ofMembers (V := V) c).collect t).ends faults.regime (fun _ s' => ∃ k r,
        keys.find? f = (some k).filter (fun _ => r) ∧ s.Dated p.cache k (s.now + ttl) r s') s :=
    Action.ends_bind (Action.ends_pure (Action.ends_pure
      ⟨.number 0, false, by rw [hkeys]; rfl, (Stand.Unmoved.refl s _).dated⟩))
  cases value with
  | own c => exact hown c rfl
  | lent place =>
    cases hl : lent[place]? with
    | none =>
      have hset : (Whole.lent place).set (fun _ => (p.map V).store) lent = .ofMembers ∅ := by
        simp only [Whole.set, hl]
        rfl
      rw [hset]
      exact hown ∅ (by simp only [Whole.keys, hl]; rfl)
    | some l =>
      obtain ⟨cell, hroute⟩ := hlent l (List.mem_of_getElem? hl)
      have hset : (Whole.lent place).set (fun _ => (p.map V).store) lent =
          (p.cachedSet V l.key cell).store := by
        simp only [Whole.set, hl]
        exact follow_of_cached hroute
      rw [hset]
      refine Action.ends_bind (Action.ends_mono (Action.ends_and
        (ends_on_members hsource hcache) (dated_on hcache httl hexpiry hsource .members)) ?_)
      rintro _ s' ⟨⟨rfl, -⟩, h⟩
      refine Action.ends_pure ⟨l.key, _, ?_, h⟩
      simp only [Whole.keys, hl]
      exact List.find?_singleton ..

theorem renews_add (value : Whole) (overwrite : Bool) :
    ((SetUse.add () k value overwrite).on (fun _ => (p.map V).store) lent t).ends faults.regime
      (p.Renews ttl lent (.add () k value overwrite) s) s := by
  change ((p.map V).add k _ overwrite t).ends _ _ _
  unfold OnDemandSetMap.add
  refine Action.ends_bind (hsource.ends_addSet (fun s₁ hsame hdenied => ?_)
    fun s₁ hsame haccepted => ?_)
  · refine Action.ends_pure (.of_idle (.of_becomes p.ne.symm hsame) ?_ rfl)
    rw [renewed, hdenied, if_neg Bool.false_ne_true]
  · have hfirst : s.Unmoved p.cache s₁ := .of_becomes p.ne.symm hsame
    refine Action.ends_mono (dated_collectWhole hcache hsource httl (hfirst.grants ▸ hexpiry) hlent
      value) ?_
    rintro xs s₂ ⟨k', r, hkeys, hread⟩ s₃ hstored
    rw [if_pos rfl]
    refine Action.ends_bind (Action.ends_mono (unmoved_invalidate hcache) fun _ s₄ hgone => ?_)
    have hlast := (hfirst.now ▸ hfirst.then_dated hread).then_unmoved
      ((Stand.Unmoved.of_becomes p.ne.symm hstored).trans hgone)
    refine Action.ends_pure (.of_dated hlast ?_ rfl)
    rw [renewed, haccepted, if_pos rfl, ← hkeys, funext (hsame.same p.source),
      funext (hsame.same p.cache)]

/-- Every use, but to list the keys, ends well and renews what it is to renew. -/
theorem renews_use (hkeys : use ≠ .keys ()) :
    (use.on (fun _ => (p.map V).store) lent t).ends faults.regime (p.Renews ttl lent use s) s := by
  cases use with
  | add _ k value overwrite => exact renews_add hcache hsource httl hexpiry hlent value overwrite
  | remove _ k => exact renews_remove hcache hsource
  | contains _ k =>
    exact Action.ends_mono (unmoved_exists hcache hsource) fun _ _ h =>
      .of_idle h rfl rfl
  | keys => exact absurd rfl hkeys
  | find _ k => exact renews_find hcache hsource
  | reach _ k =>
    refine Action.ends_mono (unmoved_route hcache) ?_
    rintro route s' ⟨hway, h⟩
    refine .of_unmoved h rfl fun l hl => ?_
    rw [List.mem_singleton.1 hl]
    exact hway
  | expire | expireAt =>
    exact Action.ends_pure (.of_idle (.refl s _) rfl rfl)
  | member place op => exact renews_member hcache hsource httl hexpiry hlent place op

end Cache

/-- To list the keys may fail, where the source does not grant that, but moves no deadline. -/
theorem unmoved_keys (hsource : faults.Spares (.setMap p.source)) (w : World V) :
    ((p.map V).store.keys t).wp faults.regime (fun _ w' => w.stand.Unmoved p.cache w'.stand) w := by
  change Action.wp _ ((Backend.setMap p.source).requireKeys "source" >>= fun _ =>
    Backend.onSetMap p.source .keys t) _ w
  have hlists : (Backend.setMap p.source).canList =
      Grants.keys <$> Backend.grants (V := V) (.setMap p.source) := rfl
  rw [Action.wp_bind, wp_requireKeys hlists]
  split
  · have hread : (Backend.onSetMap p.source .keys t).ends faults.regime (fun _ s' =>
        w.stand.Unmoved p.cache s') w.stand :=
      Action.ends_mono (hsource.ends_reading .keys (.number 0) (.inl rfl)) fun _ _ ⟨_, hsame⟩ =>
        .of_becomes p.ne.symm hsame
    exact Action.wp_mono (hread w rfl) fun _ _ ⟨_, _, hunmoved⟩ => hunmoved
  · exact .refl w.stand _

end Map

end OnDemandPair

/-! ## Runs -/

/-- A world and what has been handed out in it, and when each cached set has last been renewed. -/
structure Renewals (V : Type) extends Custody V Unit where
  renewed : Key → Option Nat := fun _ => none

namespace Renewals

/-- A caller of a map of sets cached on demand is served. -/
def serve (faults : Faults V) (p : OnDemandPair) (h : Renewals V) (turn : Turn (SetUse Unit)) :
    Renewals V where
  toCustody := h.toCustody.serve faults.regime (fun _ => (p.map V).store) turn
  renewed k :=
    if p.renewed (h.world.atTime turn.time).stand h.lent turn.op = some k then some turn.time
    else h.renewed k

/-- Callers are served in turn. -/
def serveAll (faults : Faults V) (p : OnDemandPair) (h : Renewals V)
    (turns : List (Turn (SetUse Unit))) : Renewals V :=
  turns.foldl (serve faults p) h

/-- Every cached set has the deadline that it was last given, and what has been handed out is found
in the cache. -/
structure Sound (p : OnDemandPair) (ttl : Nat) (h : Renewals V) : Prop where
  expiry : (h.world.grants (.setMap p.cache)).expiry = true
  found : ∀ l ∈ h.lent, ∃ cell, l.route = .cached .direct cell
  deadlines : ∀ k e, (h.world.setMaps.nth p.cache).content.deadline? k = some e →
    ∃ time, h.renewed k = some time ∧ e = some (time + ttl)

variable {p : OnDemandPair} {ttl : Nat} {faults : Faults V} {h : Renewals V}
  (hsource : faults.Spares (.setMap p.source)) (hcache : faults.Spares (.setMap p.cache))
  (httl : p.ttl = some ttl)

/-- What a turn does to deadlines is all that its use is to renew. -/
theorem Sound.of_turn (hh : h.Sound p ttl) {turn : Turn (SetUse Unit)}
    (hgrants : (h.serve faults p turn).world.grants = h.world.grants)
    (hfound : ∀ l ∈ (h.serve faults p turn).lent, ∃ cell, l.route = .cached .direct cell)
    (hdeadlines : ∀ k e,
      ((h.serve faults p turn).world.setMaps.nth p.cache).content.deadline? k = some e →
      if p.renewed (h.world.atTime turn.time).stand h.lent turn.op = some k then
        e = some (turn.time + ttl)
      else (h.world.setMaps.nth p.cache).content.deadline? k = some e) :
    (h.serve faults p turn).Sound p ttl where
  expiry := hgrants ▸ hh.expiry
  found := hfound
  deadlines k e he := by
    have hdeadline := hdeadlines k e he
    unfold serve
    dsimp only
    split at hdeadline
    · exact ⟨turn.time, if_pos ‹_›, hdeadline⟩
    · rw [if_neg ‹_›]
      exact hh.deadlines k e hdeadline

include hsource hcache httl

theorem Sound.serve (hh : h.Sound p ttl) (turn : Turn (SetUse Unit)) :
    (h.serve faults p turn).Sound p ttl := by
  by_cases hkeys : turn.op = .keys ()
  · obtain ⟨use, t, time⟩ := turn
    cases hkeys
    have hunmoved := OnDemandPair.unmoved_keys (p := p) (t := t) hsource (h.world.atTime time)
    refine hh.of_turn hunmoved.grants (fun l hl => ?_) fun k e he => ?_
    · rcases Custody.mem_lent_serve hl with hl | ⟨a, -, hl⟩
      · exact hh.found l hl
      · exact absurd hl List.not_mem_nil
    · exact hunmoved.deadlines k e he
  · obtain ⟨b, hb, hrenews⟩ := Action.ends_act (OnDemandPair.renews_use (t := turn.token)
      (s := (h.world.atTime turn.time).stand) hcache hsource httl hh.expiry hh.found hkeys)
    refine hh.of_turn hrenews.grants (fun l hl => ?_) hrenews.deadlines
    rcases Custody.mem_lent_serve hl with hl | ⟨a, ha, hl⟩
    · exact hh.found l hl
    · cases hb.symm.trans ha
      exact hrenews.found l hl

theorem Sound.serveAll (hh : h.Sound p ttl) (turns : List (Turn (SetUse Unit))) :
    (h.serveAll faults p turns).Sound p ttl := by
  induction turns generalizing h with
  | nil => exact hh
  | cons turn rest ih => exact ih (hh.serve hsource hcache httl turn)

end Renewals

/-- **Cached sets expire**, unless they are renewed: where no call fails, a time to live is in
effect and the cache begins empty, every cached set has a deadline, and that is the time to live
after the last call that filled it, or that added, took over or confirmed a member of it. No cached
set is left without a deadline. -/
theorem cached_sets_slide (p : OnDemandPair) (settings : Settings) {ttl : Nat} (faults : Faults V)
    (hsource : faults.Spares (.setMap p.source)) (hcache : faults.Spares (.setMap p.cache))
    {w₀ w : World V}
    (hmake : faults.regime.act w₀ (OnDemandSetMap.make p.name (Backend.setMap p.source)
      (Backend.setMap p.cache) settings) = (.ok (p.map V), w))
    (httl : p.ttl = some ttl) (hempty : (w.setMaps.nth p.cache).content = {})
    (turns : List (Turn (SetUse Unit))) :
    let after := Renewals.serveAll faults p { world := w } turns
    ∀ (k : Key) (slot : Slot MemberSet),
      (after.world.setMaps.nth p.cache).content.slots[k]? = some slot →
        ∃ time, after.renewed k = some time ∧ slot.deadline = some (time + ttl) := by
  intro after k slot hslot
  have hexpiry : (w.grants (.setMap p.cache)).expiry = true := by
    obtain ⟨m, hm, hstand, hmap⟩ := Action.ends_act
      (OnDemandPair.ends_make (V := V) (s := w₀.stand) (p := p) (g := faults.regime) settings)
    rw [hmake] at hm hstand
    cases hm
    have hgrants : w.grants = w₀.grants := congrArg Stand.grants hstand
    have hin : p.ttl = if (w₀.grants (.setMap p.cache)).expiry then settings.cacheTtl else none :=
      congrArg OnDemandSetMap.ttl hmap
    rw [hgrants]
    by_contra hdenied
    rw [httl, if_neg hdenied] at hin
    cases hin
  have hstart : Renewals.Sound p ttl ({ world := w } : Renewals V) := by
    refine ⟨hexpiry, nofun, fun k e he => ?_⟩
    change (w.setMaps.nth p.cache).content.deadline? k = some e at he
    rw [hempty] at he
    exact absurd he (by simp [MemberMap.deadline?])
  exact (hstart.serveAll hsource hcache httl turns).deadlines k _
    (Option.map_eq_some_iff.2 ⟨slot, hslot, rfl⟩)

/-- A set is counted, which caches it; it expires, is counted again, and one of its members is
confirmed. -/
theorem cached_sets_slide_after_confirming :
    let faults : Faults Nat := Faults.hitting []
    let p : OnDemandPair :=
      { name := "cache", source := 0, cache := 1, ne := by decide, ttl := some 30, limit := 1000 }
    let k : Key := .text "k"
    let turns : List (Turn (SetUse Unit)) :=
      [{ op := .reach () k }, { op := .member 0 .count, time := 5 },
        { op := .member 0 .count, time := 50 }, { op := .member 0 (.contains "a"), time := 60 },
        { op := .member 0 (.contains "z"), time := 70 }]
    let w : World Nat := .sourceSets Nat (.ofList [(k, ["a", "b"])])
    let after := Renewals.serveAll faults p { world := w } turns
    ∃ slot : Slot MemberSet, (after.world.setMaps.nth 1).content.slots[k]? = some slot ∧
      after.renewed k = some 60 ∧ slot.deadline = some 90 := by
  intro faults p k turns w
  have hmake : faults.regime.act w (OnDemandSetMap.make p.name (Backend.setMap p.source)
      (Backend.setMap p.cache) { cacheTtl := some 30, runLimit := 1000 }) =
        (.ok (p.map Nat), w) := rfl
  have hslide := cached_sets_slide p { cacheTtl := some 30, runLimit := 1000 } faults
    (Faults.spares_hitting_nil _) (Faults.spares_hitting_nil _) hmake rfl rfl turns k
  have hcached : (((Renewals.serveAll faults p { world := w } turns).world.setMaps.nth
      p.cache).content.slots[k]?).isSome := by decide +kernel
  have hrenewed : (Renewals.serveAll faults p { world := w } turns).renewed k = some 60 := by
    decide +kernel
  generalize Renewals.serveAll faults p { world := w } turns = after at hslide hcached hrenewed ⊢
  obtain ⟨slot, hslot⟩ := Option.isSome_iff_exists.1 hcached
  obtain ⟨time, hlast, hdeadline⟩ := hslide slot hslot
  obtain rfl := Option.some.inj (hlast.symm.trans hrenewed)
  exact ⟨slot, hslot, hrenewed, hdeadline⟩

end TwinStore
