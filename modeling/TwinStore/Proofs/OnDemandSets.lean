import TwinStore.Cache.OnDemand
import TwinStore.Proofs.CachedSets
import TwinStore.Proofs.SetUses

/-!
# Sets cached on demand are never partial

An `OnDemandSetMap` over two base maps of sets takes a cached set to be complete as soon as it has a
member. That is so if every cached set is empty or the source's (`OnDemandPair.EmptyOrWhole`), and
every call keeps it so, key by key (`OnDemandPair.Keeps`): a set is filled with all that the source
has, members are added and removed in both, a whole set that is written drops the cached one, and
expiry empties it. Three stores have a say in that: the set that a `LazySet` fetches from the source
(`ends_sourceSet`), the `OnDemandSet` that fills the cached set (`ends_collect`, `ends_count`,
`ends_add`, `ends_contains`), and the `CacheSet` before the two (`ends_on`).

Time may pass between calls. What expires in the cache does no harm; what expires in the source
while it is cached does (`lapsed_source_set_stays_cached`), so the theorem about all runs of turns,
`on_demand_sets_answer_as_source`, is about the keys to which that does not happen.
-/

namespace TwinStore

variable {V : Type}

/-! ## Members -/

namespace Members

/-- What there is to be seen of a filled set after a read: what was cached, or all of the source if
nothing was. -/
def Fills (source cache after : MemberSet) : Prop :=
  after = cache ∨ cache = ∅ ∧ after = source

/-- All members, added one by one in any order, make up the set. -/
theorem foldl_insert_empty {xs : List String} {c : MemberSet} (h : xs.Perm c.toList) :
    xs.foldl (fun c x => c.insert x) ∅ = c := by
  rw [← Std.ExtTreeSet.ofList_eq_foldl]
  refine Std.ExtTreeSet.ext_mem fun y => ?_
  rw [Std.ExtTreeSet.mem_ofList, List.contains_iff_mem, h.mem_iff, Std.ExtTreeSet.mem_toList]

theorem isEmpty_of_perm {xs : List String} {c : MemberSet} (h : xs.Perm c.toList) :
    xs.isEmpty = c.isEmpty :=
  h.isEmpty_eq.trans c.isEmpty_toList

theorem size_pos {c : MemberSet} (h : c ≠ ∅) : 0 < c.size :=
  Nat.pos_of_ne_zero fun hzero => h (Std.ExtTreeSet.eq_empty_iff_size_eq_zero.2 hzero)

theorem decide_size_pos (c : MemberSet) : decide (0 < c.size) = !c.isEmpty := by
  rw [Std.ExtTreeSet.isEmpty_eq_size_beq_zero]
  cases c.size <;> rfl

end Members

/-! ## The two maps -/

/-- Two base maps of sets, the one cached in the other on demand. -/
structure OnDemandPair where
  name : String
  source : Nat
  cache : Nat
  ne : source ≠ cache
  ttl : Option Nat
  limit : Nat

namespace OnDemandPair

/-- The source, cached on demand. -/
def map (V : Type) (p : OnDemandPair) : OnDemandSetMap V where
  name := p.name
  source := Backend.setMap p.source
  cache := Backend.setMap p.cache
  ttl := p.ttl
  limit := p.limit

/-- What fills the cached set under a key. -/
def filler (V : Type) (p : OnDemandPair) (k : Key) (cell : Nat) : OnDemandSet V where
  name := p.name
  source := (p.map V).sourceSet k cell
  cache := Backend.setUnder p.cache k
  slide := p.ttl.map fun ttl t => (Backend.setMap p.cache).touch k ttl t

/-- The cached set that is handed out under a key. -/
def cachedSet (V : Type) (p : OnDemandPair) (k : Key) (cell : Nat) : CacheSet V :=
  .make p.name ((p.map V).sourceSet k cell) (p.filler V k cell).store p.limit

variable (p : OnDemandPair)

/-- The members under a key have become these in the source and these in the cache, and no others
have changed. -/
structure Leaves (k : Key) (x y : MemberSet) (s s' : Stand V) : Prop where
  setting : s'.setting = s.setting
  source : s'.members p.source k = x
  cache : s'.members p.cache k = y
  others : ∀ j k', k' ≠ k → s'.members j k' = s.members j k'
  populated : ∀ j, (s.setMaps j).Populated → (s'.setMaps j).Populated

/-- The cached set under a key is empty, or it is the source's. -/
def EmptyOrWhole (s : Stand V) (k : Key) : Prop :=
  s.members p.cache k = ∅ ∨ s.members p.cache k = s.members p.source k

/-- No cached set that was empty or whole has become partial, and both maps are as they should
be. -/
structure Keeps (s s' : Stand V) : Prop where
  setting : s'.setting = s.setting
  whole : ∀ k, p.EmptyOrWhole s k → p.EmptyOrWhole s' k
  populated : ∀ j, (s.setMaps j).Populated → (s'.setMaps j).Populated

variable {p} {s s' s'' : Stand V} {k : Key} {x y x' y' : MemberSet} {cell : Nat} {t : Token}

namespace Leaves

theorem refl (s : Stand V) (k : Key) :
    p.Leaves k (s.members p.source k) (s.members p.cache k) s s :=
  ⟨rfl, rfl, rfl, fun _ _ _ => rfl, fun _ h => h⟩

theorem trans (h : p.Leaves k x y s s') (h' : p.Leaves k x' y' s' s'') :
    p.Leaves k x' y' s s'' where
  setting := h'.setting.trans h.setting
  source := h'.source
  cache := h'.cache
  others j k' hne := (h'.others j k' hne).trans (h.others j k' hne)
  populated j hp := h'.populated j (h.populated j hp)

theorem of_source (h : s.Becomes p.source k x s') : p.Leaves k x (s.members p.cache k) s s' where
  setting := h.setting
  source := h.here
  cache := h.others _ _ (.inl p.ne.symm)
  others j k' hne := h.others j k' (.inr hne)
  populated := h.populated

theorem of_cache (h : s.Becomes p.cache k y s') : p.Leaves k (s.members p.source k) y s s' where
  setting := h.setting
  source := h.others _ _ (.inl p.ne)
  cache := h.here
  others j k' hne := h.others j k' (.inr hne)
  populated := h.populated

/-- Once something has been left under a key, something else is put there in the cache. -/
theorem then_cache (h : p.Leaves k x y s s') (h' : s'.Becomes p.cache k y' s'') :
    p.Leaves k x y' s s'' := by
  have hlast := of_cache h'
  rw [h.source] at hlast
  exact h.trans hlast

theorem then_source (h : p.Leaves k x y s s') (h' : s'.Becomes p.source k x' s'') :
    p.Leaves k x' y s s'' := by
  have hlast := of_source h'
  rw [h.cache] at hlast
  exact h.trans hlast

theorem order_eq (h : p.Leaves k x y s s') : s'.order = s.order := congrArg (·.2.2.1) h.setting

theorem members_eq (h : p.Leaves k x y s s') :
    s'.members p.source = Function.update (s.members p.source) k x := by
  funext k'
  by_cases hk : k' = k
  · subst hk
    rw [h.source, Function.update_self]
  · rw [h.others _ _ hk, Function.update_of_ne hk]

theorem source_eq (h : p.Leaves k (s.members p.source k) y s s') :
    s'.members p.source = s.members p.source :=
  h.members_eq.trans (Function.update_eq_self ..)

/-- All cached sets stay empty or whole if the one does under whose key something has been left. -/
theorem keeps (h : p.Leaves k x y s s') (hy : p.EmptyOrWhole s k → y = ∅ ∨ y = x) :
    p.Keeps s s' where
  setting := h.setting
  populated := h.populated
  whole k' hk' := by
    unfold EmptyOrWhole
    by_cases hk : k' = k
    · subst hk
      rw [h.source, h.cache]
      exact hy hk'
    · rw [h.others _ _ hk, h.others _ _ hk]
      exact hk'

end Leaves

namespace Keeps

theorem refl (s : Stand V) : p.Keeps s s := ⟨rfl, fun _ h => h, fun _ h => h⟩

theorem trans (h : p.Keeps s s') (h' : p.Keeps s' s'') : p.Keeps s s'' where
  setting := h'.setting.trans h.setting
  whole k hk := h'.whole k (h.whole k hk)
  populated j hp := h'.populated j (h.populated j hp)

end Keeps

/-- What a read of all members answers and leaves: the answer is `f` of what there is to be shown
under the key, and the cached set may have been filled. -/
def Shows {α : Type} (p : OnDemandPair) (k : Key) (f : MemberSet → α) (s : Stand V) (a : α)
    (s' : Stand V) : Prop :=
  a = f (Members.shown (s.members p.source k) (s.members p.cache k)) ∧
    ∃ y, Members.Fills (s.members p.source k) (s.members p.cache k) y ∧
      p.Leaves k (s.members p.source k) y s s'

/-- What a use of the cached set under a key answers and leaves: the source's set has done what was
asked, and a cached set that was empty or whole is so again and has not falsified the answer. -/
def Serves (p : OnDemandPair) (k : Key) (op : SetOp) (s : Stand V) (a : op.Answer) (s' : Stand V) :
    Prop :=
  ∃ y, p.Leaves k (op.apply s.order (s.members p.source k)).2 y s s' ∧
    (p.EmptyOrWhole s k → a = (op.apply s.order (s.members p.source k)).1 ∧
      (y = ∅ ∨ y = (op.apply s.order (s.members p.source k)).2))

theorem Shows.map {α β : Type} {f : MemberSet → α} {a : α} (g : α → β) (h : p.Shows k f s a s') :
    p.Shows k (fun c => g (f c)) s (g a) s' :=
  ⟨congrArg g h.1, h.2⟩

/-- What is to be shown of a cached set that is empty or whole is what the source has. -/
theorem Shows.serves (op : SetOp) {a : op.Answer} {f : MemberSet → op.Answer}
    (h : p.Shows k f s a s') (hf : op.apply s.order (s.members p.source k) =
      (f (s.members p.source k), s.members p.source k)) : p.Serves k op s a s' := by
  obtain ⟨ha, y, hy, hleaves⟩ := h
  refine ⟨y, by rwa [hf], fun hk => ?_⟩
  rw [Members.shown_eq_iff.2 hk] at ha
  rw [hf]
  refine ⟨ha, ?_⟩
  rcases hy with hy | ⟨-, hy⟩
  · exact hk.imp hy.trans hy.trans
  · exact .inr hy

/-! ## The source's set -/

section Calls

variable {faults : Faults V} (hsource : faults.Spares (.setMap p.source))
  (hcache : faults.Spares (.setMap p.cache))

section Source

include hsource

/-- Whatever the cell holds, what is fetched is the source's set. -/
theorem ends_resolve {post : SetStore V → Stand V → Prop}
    (hpost : ∀ s', s.Becomes p.source k (s.members p.source k) s' →
      post (Backend.setUnder p.source k) s') :
    (LazySet.resolve (V := V) { map := Backend.setMap p.source, key := k, cell } t).ends
      faults.regime post s := by
  unfold LazySet.resolve
  refine Action.ends_bind (Action.ends_ask (fun _ => rfl) fun route => ?_)
  cases route with
  | some route => exact Action.ends_pure (hpost s (.refl s p.source k))
  | none =>
    refine Action.ends_locked (Action.ends_bind (Action.ends_ask (fun _ => rfl) fun route => ?_))
    cases route with
    | some route => exact Action.ends_pure (hpost s (.refl s p.source k))
    | none =>
      refine Action.ends_bind (Action.ends_mono hsource.ends_route ?_)
      rintro route s' ⟨-, hsame⟩
      exact Action.ends_bind (Action.ends_ask (fun _ => rfl) fun _ =>
        Action.ends_pure (hpost s' hsame))

theorem ends_sourceSet (op : SetOp) :
    (op.on ((p.map V).sourceSet k cell) t).ends faults.regime (fun a s' =>
      a = (op.apply s.order (s.members p.source k)).1 ∧
        s.Becomes p.source k (op.apply s.order (s.members p.source k)).2 s') s := by
  have hsteps : op.on ((p.map V).sourceSet k cell) t =
      LazySet.resolve { map := Backend.setMap p.source, key := k, cell } t >>= fun set =>
        op.on set t := by
    cases op <;> rfl
  rw [hsteps]
  refine Action.ends_bind (ends_resolve hsource fun s' hsame => ?_)
  have hunder := hsource.ends_under (t := t) (s := s') (k := k) op
  rw [hsame.here, hsame.order_eq] at hunder
  exact Action.ends_mono hunder fun a s'' ⟨ha, hafter⟩ => ⟨ha, hsame.trans hafter⟩

theorem ends_collectSource :
    (((p.map V).sourceSet k cell).collect t).ends faults.regime (fun xs s' =>
      xs = s.order.members (s.members p.source k).toList ∧
        s.Becomes p.source k (s.members p.source k) s') s := by
  refine Action.ends_bind (Action.ends_mono (ends_sourceSet hsource .members) ?_)
  rintro _ s' ⟨rfl, hsame⟩
  exact Action.ends_pure ⟨rfl, hsame⟩

end Source

/-! ## What fills the cached set -/

section Cache

include hcache

/-- To put the expiry off leaves the cached members, or none if no time is left. -/
theorem ends_slide :
    ((p.filler V k cell).touch t).ends faults.regime (fun _ s' => ∃ y,
      (y = s.members p.cache k ∨ y = ∅) ∧ s.Becomes p.cache k y s') s := by
  unfold OnDemandSet.touch filler
  cases p.ttl with
  | none => exact Action.ends_pure ⟨_, .inl rfl, .refl s p.cache k⟩
  | some ttl =>
    refine Action.ends_bind (Action.ends_mono (hcache.ends_touch ttl) ?_)
    exact fun _ _ h => Action.ends_pure h

theorem ends_addUntilError (xs : List String) (seeded : Nat) :
    ((p.filler V k cell).addUntilError t xs seeded).ends faults.regime (fun n s' =>
      n = seeded + xs.length ∧ s.Becomes p.cache k
        (xs.foldl (fun c x => c.insert x) (s.members p.cache k)) s') s := by
  induction xs generalizing s seeded with
  | nil => exact Action.ends_pure ⟨rfl, .refl s p.cache k⟩
  | cons x xs ih =>
    refine Action.ends_bind (Action.ends_attempt (Action.ends_mono (hcache.ends_under (.add x)) ?_))
    rintro _ s' ⟨-, hadded⟩
    refine Action.ends_mono (ih (seeded + 1)) ?_
    rintro n s'' ⟨rfl, hrest⟩
    rw [hadded.here] at hrest
    exact ⟨by simp only [List.length_cons]; omega, hadded.trans hrest⟩

/-- A member is mirrored into a cached set that has members already. -/
theorem ends_add (x : String) :
    ((p.filler V k cell).add x t).ends faults.regime (fun _ s' => ∃ y,
      (y = ∅ ∨ s.members p.cache k ≠ ∅ ∧ y = (s.members p.cache k).insert x) ∧
        s.Becomes p.cache k y s') s := by
  unfold OnDemandSet.add
  refine Action.ends_bind (Action.ends_mono (hcache.ends_under .count) ?_)
  rintro n s₁ ⟨hn, hsame⟩
  have hcount : n = (s.members p.cache k).size := hn
  by_cases hzero : n = 0
  · have hempty : s.members p.cache k = ∅ :=
      Std.ExtTreeSet.eq_empty_iff_size_eq_zero.2 (hcount ▸ hzero)
    rw [if_pos hzero]
    exact Action.ends_pure ⟨_, .inl hempty, hsame⟩
  · rw [if_neg hzero]
    refine Action.ends_bind (Action.ends_mono (hcache.ends_under (.add x)) ?_)
    rintro _ s₂ ⟨-, hadded⟩
    refine Action.ends_mono (ends_slide hcache) ?_
    rintro _ s₃ ⟨y, hy, hslid⟩
    have hhere := hadded.here
    rw [hsame.here] at hhere
    rw [hhere] at hy
    refine ⟨y, hy.symm.imp id fun hy => ⟨fun hempty => hzero ?_, hy⟩,
      hsame.trans (hadded.trans hslid)⟩
    rw [hcount, hempty]
    rfl

/-- A member that is found is confirmed, which puts the expiry off. -/
theorem ends_contains (x : String) :
    ((p.filler V k cell).contains x t).ends faults.regime (fun found s' =>
      found = (s.members p.cache k).contains x ∧
        ∃ y, (y = s.members p.cache k ∨ y = ∅) ∧ s.Becomes p.cache k y s') s := by
  unfold OnDemandSet.contains
  refine Action.ends_bind (Action.ends_mono (hcache.ends_under (.contains x)) ?_)
  rintro found s₁ ⟨hfound, hsame⟩
  have hthere : found = (s.members p.cache k).contains x := hfound
  cases found with
  | false => exact Action.ends_pure ⟨hthere, _, .inl rfl, hsame⟩
  | true =>
    rw [if_pos rfl]
    refine Action.ends_bind (Action.ends_mono (hcache.ends_under (.add x)) ?_)
    rintro _ s₂ ⟨-, hadded⟩
    refine Action.ends_bind (Action.ends_mono (ends_slide hcache) ?_)
    rintro _ s₃ ⟨y, hy, hslid⟩
    have hhere : s₂.members p.cache k = s.members p.cache k := by
      rw [hadded.here, hsame.here]
      exact Members.insert_of_mem hthere.symm
    rw [hhere] at hy
    exact Action.ends_pure ⟨hthere, y, hy, hsame.trans (hadded.trans hslid)⟩

end Cache

section Filling

include hsource hcache

/-- A cached set without members is filled with all that the source has. -/
theorem ends_seed (hempty : s.members p.cache k = ∅) :
    ((p.filler V k cell).seed t).ends faults.regime (fun xs s' =>
      xs = s.order.members (s.members p.source k).toList ∧
        ∃ y, Members.Fills (s.members p.source k) ∅ y ∧
          p.Leaves k (s.members p.source k) y s s') s := by
  unfold OnDemandSet.seed
  refine Action.ends_bind (Action.ends_mono (ends_collectSource hsource) ?_)
  rintro xs s₁ ⟨hxs, hread⟩
  have hperm : xs.Perm (s.members p.source k).toList := hxs ▸ s.order.members_perm _
  have hfirst : p.Leaves k (s.members p.source k) ∅ s s₁ := hempty ▸ Leaves.of_source hread
  by_cases hnone : xs.isEmpty = true
  · simp only [hnone, Bool.not_true, Bool.false_eq_true, if_false]
    exact Action.ends_pure ⟨hxs, ∅, .inl rfl, hfirst⟩
  · simp only [eq_false_of_ne_true hnone, Bool.not_false, if_true]
    refine Action.ends_bind (Action.ends_mono (ends_addUntilError hcache xs 0) ?_)
    rintro n s₂ ⟨hn, hfilled⟩
    rw [hfirst.cache, Members.foldl_insert_empty hperm] at hfilled
    have hpos : 0 < n := by
      have : xs ≠ [] := fun h => hnone (by rw [h]; rfl)
      have := List.length_pos_iff.2 this
      omega
    rw [if_pos hpos]
    refine Action.ends_bind (Action.ends_attempt (Action.ends_mono (ends_slide hcache) ?_))
    rintro _ s₃ ⟨y, hy, hslid⟩
    rw [hfilled.here] at hy
    refine Action.ends_bind (Action.ends_count (Action.ends_pure ⟨hxs, y, ?_, ?_⟩))
    · exact hy.symm.imp id fun h => ⟨rfl, h⟩
    · exact hfirst.then_cache (hfilled.trans hslid)

theorem ends_collect :
    ((p.filler V k cell).collect t).ends faults.regime
      (p.Shows k (fun c => s.order.members c.toList) s) s := by
  unfold OnDemandSet.collect Shows
  refine Action.ends_bind (Action.ends_mono hcache.ends_collect ?_)
  rintro xs s₁ ⟨hxs, hsame⟩
  have hfirst := Leaves.of_cache (p := p) hsame
  have hperm : xs.Perm (s.members p.cache k).toList := hxs ▸ s.order.members_perm _
  rw [Members.isEmpty_of_perm hperm]
  unfold Members.shown
  by_cases hnone : (s.members p.cache k).isEmpty = true
  · have hempty := Std.ExtTreeSet.isEmpty_iff.1 hnone
    rw [if_pos hnone, if_pos hnone]
    refine Action.ends_mono (ends_seed hsource hcache (hfirst.cache.trans hempty)) ?_
    rintro xs s₂ ⟨hxs, y, hy, hseeded⟩
    rw [hfirst.source] at hxs hy hseeded
    rw [hfirst.order_eq] at hxs
    exact ⟨hxs, y, by rwa [hempty], hfirst.trans hseeded⟩
  · rw [if_neg hnone, if_neg hnone]
    exact Action.ends_pure ⟨hxs, _, .inl rfl, hfirst⟩

theorem ends_size :
    ((p.filler V k cell).count t).ends faults.regime (p.Shows k Std.ExtTreeSet.size s) s := by
  unfold OnDemandSet.count Shows
  refine Action.ends_bind (Action.ends_mono (hcache.ends_under .count) ?_)
  rintro n s₁ ⟨hn, hsame⟩
  have hcount : n = (s.members p.cache k).size := hn
  have hfirst := Leaves.of_cache (p := p) hsame
  unfold Members.shown
  by_cases hpos : 0 < n
  · have hthere : ¬ (s.members p.cache k).isEmpty = true := fun hnone => by
      rw [hcount, Std.ExtTreeSet.isEmpty_iff.1 hnone] at hpos
      exact absurd hpos (Nat.lt_irrefl 0)
    rw [if_pos hpos, if_neg hthere]
    exact Action.ends_pure ⟨hcount, _, .inl rfl, hfirst⟩
  · have hempty : s.members p.cache k = ∅ :=
      Std.ExtTreeSet.eq_empty_iff_size_eq_zero.2 (by omega)
    rw [if_neg hpos, if_pos (Std.ExtTreeSet.isEmpty_iff.2 hempty)]
    refine Action.ends_bind (Action.ends_mono
      (ends_seed hsource hcache (hfirst.cache.trans hempty)) ?_)
    rintro xs s₂ ⟨hxs, y, hy, hseeded⟩
    rw [hfirst.source] at hxs hy hseeded
    have hperm : xs.Perm (s.members p.source k).toList := hxs ▸ s₁.order.members_perm _
    have hlength := hperm.length_eq
    rw [Std.ExtTreeSet.length_toList] at hlength
    exact Action.ends_pure ⟨hlength, y, by rwa [hempty], hfirst.trans hseeded⟩

end Filling

/-! ## The cached set -/

section Handle

/-- A read of all members: on a miss the source has none either. -/
theorem ends_shown {α : Type} [CacheProbe α] (op : SetStore V → Action V α) (f : MemberSet → α)
    (hhit : ∀ c, CacheProbe.isHit (f c) = !c.isEmpty)
    (hread : ∀ s', s'.order = s.order → (op ((p.map V).sourceSet k cell)).ends faults.regime
      (fun a s'' => a = f (s'.members p.source k) ∧
        s'.Becomes p.source k (s'.members p.source k) s'') s')
    (hfill : (op (p.filler V k cell).store).ends faults.regime (p.Shows k f s) s) :
    (op (p.filler V k cell).store).ends faults.regime (fun a s' =>
      if CacheProbe.isHit a = true then p.Shows k f s a s' else
        (op ((p.map V).sourceSet k cell)).ends faults.regime (fun b s'' =>
          CacheProbe.isHit b = false ∧ p.Shows k f s b s'') s') s := by
  refine Action.ends_mono hfill ?_
  rintro a s₁ ⟨ha, y, hy, hleaves⟩
  by_cases hit : CacheProbe.isHit a = true
  · rw [if_pos hit]
    exact ⟨ha, y, hy, hleaves⟩
  · have hnothing :
        (Members.shown (s.members p.source k) (s.members p.cache k)).isEmpty = true := by
      rw [ha, hhit] at hit
      simpa using hit
    -- Nothing is shown only if there is nothing in the source.
    have hboth : s.members p.source k =
        Members.shown (s.members p.source k) (s.members p.cache k) := by
      unfold Members.shown at hnothing ⊢
      split at hnothing
      · rename_i hempty
        rw [if_pos hempty]
      · rename_i hthere
        exact absurd hnothing hthere
    rw [if_neg hit]
    refine Action.ends_mono (hread s₁ hleaves.order_eq) ?_
    rintro b s₂ ⟨hb, hsame⟩
    rw [hleaves.source] at hb hsame
    refine ⟨?_, by rw [hb, ← hboth], y, hy, hleaves.then_source hsame⟩
    rw [hb, hhit, hboth, hnothing]
    rfl

include hsource hcache

theorem ends_on_add (x : String) :
    ((SetOp.add x).on (p.cachedSet V k cell).store t).ends faults.regime (p.Serves k (.add x) s)
      s := by
  change ((p.cachedSet V k cell).tier.write (fun set => set.add x t) fun cache _ => some do
    cache.add x t
    return true).ends _ _ _
  refine CacheTier.ends_write (Action.ends_mono (ends_sourceSet hsource (.add x)) ?_)
  rintro _ s₁ ⟨-, hadded⟩
  have hfirst := Leaves.of_source (p := p) hadded
  refine Action.ends_bind (Action.ends_mono (ends_add hcache x) ?_)
  rintro _ s₂ ⟨y, hy, hmirrored⟩
  rw [hfirst.cache] at hy
  refine Action.ends_pure ⟨rfl, y, hfirst.then_cache hmirrored, fun hk => ⟨rfl, ?_⟩⟩
  refine hy.imp id fun ⟨hne, hy⟩ => ?_
  rw [hy, hk.resolve_left hne]
  rfl

theorem ends_on_remove (x : String) :
    ((SetOp.remove x).on (p.cachedSet V k cell).store t).ends faults.regime
      (p.Serves k (.remove x) s) s := by
  change ((p.cachedSet V k cell).tier.write (fun set => set.remove x t) fun cache _ => some do
    let _ ← cache.remove x t
    return true).ends _ _ _
  refine CacheTier.ends_write (Action.ends_mono (ends_sourceSet hsource (.remove x)) ?_)
  rintro removed s₁ ⟨hremoved, hleft⟩
  have hfirst := Leaves.of_source (p := p) hleft
  refine Action.ends_bind (Action.ends_mono (hcache.ends_under (.remove x)) ?_)
  rintro _ s₂ ⟨-, hmirrored⟩
  rw [hfirst.cache] at hmirrored
  refine Action.ends_pure ⟨rfl, _, hfirst.then_cache hmirrored, fun hk => ⟨hremoved, ?_⟩⟩
  rcases hk with hempty | hwhole
  · left
    change (s.members p.cache k).erase x = ∅
    rw [hempty]
    exact Std.ExtTreeSet.erase_empty
  · right
    rw [hwhole]
    rfl

theorem ends_on_members :
    (SetOp.members.on (p.cachedSet V k cell).store t).ends faults.regime
      (p.Shows k (fun c => Listing.full (s.order.members c.toList)) s) s := by
  change ((p.cachedSet V k cell).tier.read (fun set => set.collect t)
    (fun cache xs => CacheSet.addAll cache t xs) >>= fun xs => pure (Listing.full xs)).ends _ _ _
  have hhit (c : MemberSet) : (!(s.order.members c.toList).isEmpty) = !c.isEmpty := by
    rw [Members.isEmpty_of_perm (s.order.members_perm _)]
  have hread (s' : Stand V) (horder : s'.order = s.order) :
      (((p.map V).sourceSet k cell).collect t).ends faults.regime (fun xs s'' =>
        xs = s.order.members (s'.members p.source k).toList ∧
          s'.Becomes p.source k (s'.members p.source k) s'') s' :=
    horder ▸ ends_collectSource hsource
  have hfill : ((p.filler V k cell).store.collect t).ends faults.regime
      (p.Shows k (fun c => s.order.members c.toList) s) s :=
    Action.ends_bind (Action.ends_bind (Action.ends_mono (ends_collect hsource hcache)
      fun _ _ h => Action.ends_pure (Action.ends_pure h)))
  refine Action.ends_bind (CacheTier.ends_read
    (Action.ends_mono (ends_shown (fun set => set.collect t)
      (fun c => s.order.members c.toList) hhit hread hfill) ?_))
  intro xs s₁ h
  split at h
  · rename_i hit
    rw [if_pos hit]
    exact Action.ends_pure (h.map Listing.full)
  · rename_i miss
    rw [if_neg miss]
    refine Action.ends_mono h ?_
    rintro ys s₂ ⟨hnone, hshown⟩
    rw [if_neg (by rw [hnone]; exact Bool.false_ne_true)]
    exact Action.ends_pure (hshown.map Listing.full)

theorem ends_on_count :
    (SetOp.count.on (p.cachedSet V k cell).store t).ends faults.regime (p.Serves k .count s) s := by
  change ((p.cachedSet V k cell).tier.readThrough fun set => set.count t).ends _ _ _
  refine CacheTier.ends_readThrough (Action.ends_mono (ends_shown (fun set => set.count t)
    Std.ExtTreeSet.size Members.decide_size_pos (fun _ _ => ends_sourceSet hsource .count)
    (ends_size hsource hcache)) ?_)
  intro n s₁ h
  split at h
  · rename_i hit
    rw [if_pos hit]
    exact Shows.serves .count h rfl
  · rename_i miss
    rw [if_neg miss]
    exact Action.ends_mono h fun _ _ hshown => Shows.serves .count hshown.2 rfl

theorem ends_on_contains (x : String) :
    ((SetOp.contains x).on (p.cachedSet V k cell).store t).ends faults.regime
      (p.Serves k (.contains x) s) s := by
  change ((p.cachedSet V k cell).tier.read (fun set => set.contains x t)
    fun cache _ => cache.add x t).ends _ _ _
  refine CacheTier.ends_read (Action.ends_mono (ends_contains hcache x) ?_)
  rintro found s₁ ⟨hfound, y, hy, hkept⟩
  have hfirst := Leaves.of_cache (p := p) hkept
  -- What is cached of a set that is empty or whole is what the source has, if anything is.
  have hwhole : p.EmptyOrWhole s k → s.members p.cache k ≠ ∅ →
      s.members p.cache k = s.members p.source k := fun hk hne => hk.resolve_left hne
  by_cases hit : found = true
  · rw [if_pos (show CacheProbe.isHit found = true from hit)]
    refine ⟨y, hfirst, fun hk => ⟨?_, ?_⟩⟩
    · rw [hfound, ← hwhole hk fun hempty => ?_]
      · rfl
      · rw [hit, hempty] at hfound
        exact absurd hfound.symm (by simp)
    · rcases hy with rfl | rfl
      · exact hk
      · exact .inl rfl
  · rw [if_neg (show ¬ CacheProbe.isHit found = true from hit)]
    refine Action.ends_mono (ends_sourceSet hsource (.contains x)) ?_
    rintro there s₂ ⟨hthere, hread⟩
    rw [hfirst.source] at hthere hread
    have hsecond := hfirst.then_source hread
    split
    · rename_i hback
      refine Action.ends_mono (ends_add hcache x) ?_
      rintro _ s₃ ⟨z, hz, hadded⟩
      rw [hsecond.cache] at hz
      refine ⟨z, hsecond.then_cache hadded, fun hk => ⟨hthere, .inl ?_⟩⟩
      refine hz.resolve_right fun ⟨hne, _⟩ => hit ?_
      have hcached : y = s.members p.cache k := hy.resolve_right hne
      rw [hfound, hwhole hk (hcached ▸ hne)]
      exact hthere.symm.trans hback
    · refine ⟨y, hsecond, fun hk => ⟨hthere, ?_⟩⟩
      rcases hy with rfl | rfl
      · exact hk
      · exact .inl rfl

theorem ends_on (op : SetOp) :
    (op.on (p.cachedSet V k cell).store t).ends faults.regime (p.Serves k op s) s := by
  cases op with
  | add x => exact ends_on_add hsource hcache x
  | remove x => exact ends_on_remove hsource hcache x
  | members =>
    exact Action.ends_mono (ends_on_members hsource hcache) fun _ _ h => h.serves .members rfl
  | contains x => exact ends_on_contains hsource hcache x
  | count => exact ends_on_count hsource hcache

end Handle

/-! ## The map -/

theorem ends_make {g : Regime V} (settings : Settings) :
    (OnDemandSetMap.make p.name (Backend.setMap p.source) (Backend.setMap p.cache) settings).ends g
      (fun m s' => s' = s ∧ m = OnDemandPair.map V { p with
        ttl := if (s.grants (.setMap p.cache)).expiry then settings.cacheTtl else none
        limit := settings.runLimit }) s := by
  unfold OnDemandSetMap.make KeyedStore.effectiveTtl
  refine Action.ends_bind (Action.ends_bind (Action.ends_grants ?_))
  cases (s.grants (.setMap p.cache)).expiry <;> exact Action.ends_pure (Action.ends_pure ⟨rfl, rfl⟩)

section Map

variable {lent : List (Lent Unit)}

/-- What a use of the map answers and leaves: no cached set becomes partial, what is handed out is
found in the cache, and if the sets involved are cached whole or not at all, the answer and the
source's sets are those of the source alone. -/
structure Follows (p : OnDemandPair) (lent : List (Lent Unit)) (use : SetUse Unit) (s : Stand V)
    (b : use.Answer) (s' : Stand V) : Prop where
  keeps : p.Keeps s s'
  found : ∀ l ∈ use.handed b, ∃ cell, l.route = .cached .direct cell
  faithful : (∀ k ∈ use.involved lent, p.EmptyOrWhole s k) →
    ∀ a, use.expected s p.source lent = some a →
      use.plain b = a ∧ s'.members p.source = use.leaves s p.source lent

/-- What has been handed out is the cached set under the key. -/
theorem follow_of_cached {l : Lent Unit} (h : l.route = .cached .direct cell) :
    l.follow (fun _ => (p.map V).store) = (p.cachedSet V l.key cell).store := by
  unfold Lent.follow
  rw [h]
  rfl

section Cache

include hcache

/-- The cached set under a key is dropped. -/
theorem ends_invalidate :
    ((p.map V).invalidate k t).ends faults.regime (fun _ s' => s.Becomes p.cache k ∅ s') s := by
  unfold OnDemandSetMap.invalidate
  refine Action.ends_bind (Action.ends_attempt (Action.ends_mono hcache.ends_remove ?_))
  exact fun _ _ ⟨_, hgone⟩ => Action.ends_pure hgone

theorem ends_way :
    ((p.map V).route k t).ends faults.regime (fun route s' =>
      (∃ cell, route = .cached .direct cell) ∧ s.Becomes p.cache k (s.members p.cache k) s') s := by
  unfold OnDemandSetMap.route
  refine Action.ends_bind (Action.ends_attempt (Action.ends_mono hcache.ends_route ?_))
  rintro _ s' ⟨rfl, hsame⟩
  exact Action.ends_bind (Action.ends_ask (fun _ => rfl) fun cell =>
    Action.ends_pure ⟨⟨cell, rfl⟩, hsame⟩)

end Cache

include hsource hcache

/-- Whether a key exists: a cached set has members, and then the source has them too. -/
theorem ends_exists (hs : (s.setMaps p.source).Populated) (hc : (s.setMaps p.cache).Populated) :
    ((p.map V).contains k t).ends faults.regime (fun found s' =>
      p.Leaves k (s.members p.source k) (s.members p.cache k) s s' ∧
        (p.EmptyOrWhole s k → found = ((s.setMaps p.source).live? s.now k).isSome)) s := by
  unfold OnDemandSetMap.contains
  refine Action.ends_bind (Action.ends_attempt (Action.ends_mono hcache.ends_contains ?_))
  rintro found s₁ ⟨hfound, hsame⟩
  have hfirst := Leaves.of_cache (p := p) hsame
  cases found with
  | true =>
    refine Action.ends_bind (Action.ends_count (Action.ends_pure ⟨hfirst, fun hk => ?_⟩))
    rw [hc.isSome_live?] at hfound
    rw [hs.isSome_live?]
    rcases hk with hempty | hwhole
    · have hcached : (s.setMaps p.cache).liveMembers s.now k = ∅ := hempty
      simp [hcached] at hfound
    · exact hfound.trans (congrArg (fun c => !c.isEmpty) hwhole)
  | false =>
    refine Action.ends_bind (Action.ends_count (Action.ends_mono hsource.ends_contains ?_))
    rintro found s₂ ⟨hfound, hread⟩
    have hs₁ := hfirst.populated _ hs
    rw [hs₁.isSome_live?] at hfound
    rw [hfirst.source] at hread
    refine ⟨hfirst.then_source hread, fun _ => ?_⟩
    rw [hs.isSome_live?, hfound]
    exact congrArg (fun c => !c.isEmpty) hfirst.source

theorem ends_lookup (hs : (s.setMaps p.source).Populated) (hc : (s.setMaps p.cache).Populated) :
    ((p.map V).store.find k t).ends faults.regime (fun way s' =>
      (∀ route ∈ way, ∃ cell, route = .cached .direct cell) ∧
        p.Leaves k (s.members p.source k) (s.members p.cache k) s s' ∧
        (p.EmptyOrWhole s k → way.isSome = ((s.setMaps p.source).live? s.now k).isSome)) s := by
  refine Action.ends_bind (Action.ends_mono (ends_exists hsource hcache hs hc) ?_)
  rintro found s₁ ⟨hfirst, hfound⟩
  cases found with
  | false => exact Action.ends_pure ⟨nofun, hfirst, hfound⟩
  | true =>
    refine Action.ends_bind (Action.ends_mono (ends_way hcache) ?_)
    rintro route s₂ ⟨hway, hsame⟩
    rw [hfirst.cache] at hsame
    refine Action.ends_pure ⟨fun route' h => ?_, hfirst.then_cache hsame, hfound⟩
    cases h
    exact hway

/-- A whole set that is read: one of the caller's own, or one that the map has handed out. -/
theorem ends_collectWhole (value : Whole)
    (hlent : ∀ l ∈ lent, ∃ cell, l.route = .cached .direct cell) :
    ((value.set (fun _ => (p.map V).store) lent).collect t).ends faults.regime (fun xs s' =>
      p.Keeps s s' ∧ s'.members p.source = s.members p.source ∧
        ((∀ k ∈ value.keys lent, p.EmptyOrWhole s k) →
          Std.ExtTreeSet.ofList xs = value.members s p.source lent)) s := by
  rcases value.set_cases (fun _ => (p.map V).store) lent with
    ⟨c, hset, hmembers⟩ | ⟨l, hl, hkey, hset, hmembers⟩
  · rw [hset, hmembers]
    exact Action.ends_bind (Action.ends_pure (Action.ends_pure
      ⟨.refl s, rfl, fun _ => SetMapPair.ofList_eq fun _ => Std.ExtTreeSet.mem_toList⟩))
  · obtain ⟨cell, hroute⟩ := hlent l hl
    rw [hset, hmembers, follow_of_cached hroute]
    refine Action.ends_bind (Action.ends_mono (ends_on_members hsource hcache) ?_)
    rintro _ s₁ ⟨rfl, y, hy, hleaves⟩
    refine Action.ends_pure ⟨hleaves.keeps fun hk => ?_, hleaves.source_eq, fun hkeys => ?_⟩
    · rcases hy with rfl | ⟨-, rfl⟩
      · exact hk
      · exact .inr rfl
    · rw [Members.shown_eq_iff.2 (hkeys _ hkey)]
      exact SetMapPair.ofList_eq fun x =>
        (s.order.members_perm _).mem_iff.trans Std.ExtTreeSet.mem_toList

/-- A whole set is stored in the source, and what was cached in its place is dropped. -/
theorem ends_store (value : Whole) (overwrite : Bool)
    (hlent : ∀ l ∈ lent, ∃ cell, l.route = .cached .direct cell) :
    ((p.map V).add k (value.set (fun _ => (p.map V).store) lent) overwrite t).ends faults.regime
      (p.Follows lent (.add () k value overwrite) s) s := by
  unfold OnDemandSetMap.add
  refine Action.ends_bind (hsource.ends_addSet (fun s₁ hsame hdenied => ?_)
    fun s₁ hsame haccepted => ?_)
  · have hleaves := Leaves.of_source (p := p) hsame
    refine Action.ends_pure ⟨hleaves.keeps id, nofun, fun _ a ha => ?_⟩
    cases ha
    refine ⟨hdenied.symm, hleaves.source_eq.trans (if_neg ?_).symm⟩
    rw [hdenied]
    exact Bool.false_ne_true
  · have hasked := Leaves.of_source (p := p) hsame
    refine Action.ends_mono (ends_collectWhole hsource hcache value hlent) ?_
    rintro xs s₂ ⟨hread, hsources, hxs⟩ s₃ hstored
    rw [if_pos rfl]
    refine Action.ends_bind (Action.ends_mono (ends_invalidate hcache) ?_)
    intro _ s₄ hgone
    have hlast := (Leaves.of_source (p := p) hstored).then_cache hgone
    refine Action.ends_pure ⟨?_, nofun, fun hkeys a ha => ?_⟩
    · exact ((hasked.keeps id).trans hread).trans (hlast.keeps fun _ => .inl rfl)
    · cases ha
      refine ⟨haccepted.symm, (hlast.members_eq.trans ?_).trans (if_pos haccepted).symm⟩
      rw [hxs fun k' hk' => (hasked.keeps id).whole k' (hkeys k' (List.mem_cons_of_mem k hk')),
        hsources, value.members_congr hasked.source_eq, hasked.source_eq]

/-- A whole set is removed from the source, and from the cache. -/
theorem ends_drop :
    ((p.map V).remove k t).ends faults.regime (p.Follows lent (.remove () k) s) s := by
  unfold OnDemandSetMap.remove
  refine Action.ends_bind (Action.ends_mono hsource.ends_remove ?_)
  rintro removed s₁ ⟨hremoved, hgone⟩
  refine Action.ends_bind (Action.ends_mono (ends_invalidate hcache) ?_)
  intro _ s₂ hdropped
  have hlast := (Leaves.of_source (p := p) hgone).then_cache hdropped
  refine Action.ends_pure ⟨hlast.keeps fun _ => .inl rfl, nofun, fun _ a ha => ?_⟩
  cases ha
  exact ⟨hremoved, hlast.members_eq⟩

/-- Every use, but to list the keys, ends well and follows the source. -/
theorem ends_follows {use : SetUse Unit} (hkeys : use ≠ .keys ())
    (hs : (s.setMaps p.source).Populated) (hc : (s.setMaps p.cache).Populated)
    (hlent : ∀ l ∈ lent, ∃ cell, l.route = .cached .direct cell) :
    (use.on (fun _ => (p.map V).store) lent t).ends faults.regime (p.Follows lent use s) s := by
  cases use with
  | add _ k value overwrite => exact ends_store hsource hcache value overwrite hlent
  | remove _ k => exact ends_drop hsource hcache
  | contains _ k =>
    refine Action.ends_mono (ends_exists hsource hcache hs hc) ?_
    rintro found s' ⟨hleaves, hfound⟩
    refine ⟨hleaves.keeps id, fun _ hl => absurd hl List.not_mem_nil, fun hk a ha => ?_⟩
    cases ha
    exact ⟨hfound (hk k List.mem_cons_self), hleaves.source_eq⟩
  | keys => exact absurd rfl hkeys
  | find _ k =>
    refine Action.ends_mono (ends_lookup hsource hcache hs hc) ?_
    rintro way s' ⟨hway, hleaves, hfound⟩
    refine ⟨hleaves.keeps id, fun l hl => ?_, fun hk a ha => ?_⟩
    · obtain ⟨route, hroute, rfl⟩ := Option.map_eq_some_iff.1 (Option.mem_toList.1 hl)
      exact hway route hroute
    · cases ha
      refine ⟨?_, hleaves.source_eq⟩
      rw [← hfound (hk k List.mem_cons_self)]
      cases way <;> rfl
  | reach _ k =>
    refine Action.ends_mono (ends_way hcache) ?_
    rintro route s' ⟨hway, hsame⟩
    have hleaves := Leaves.of_cache (p := p) hsame
    refine ⟨hleaves.keeps id, fun l hl => ?_, fun _ a ha => ?_⟩
    · rw [List.mem_singleton.1 hl]
      exact hway
    · cases ha
      exact ⟨rfl, hleaves.source_eq⟩
  | expire | expireAt =>
    refine Action.ends_pure ⟨.refl s, fun _ hl => absurd hl List.not_mem_nil, fun _ _ ha => ?_⟩
    cases ha
  | member place op =>
    cases hl : lent[place]? with
    | none =>
      rw [SetUse.on_member_of_none hl]
      refine Action.ends_pure ⟨.refl s, fun _ hl => absurd hl List.not_mem_nil, fun _ a ha => ?_⟩
      cases ha
      exact ⟨by simp [SetUse.plain, hl], by simp [SetUse.leaves, hl]⟩
    | some l =>
      obtain ⟨cell, hroute⟩ := hlent l (List.mem_of_getElem? hl)
      rw [SetUse.on_member_of_some hl, follow_of_cached hroute]
      refine Action.ends_bind (Action.ends_mono (ends_on hsource hcache op) ?_)
      rintro b s' ⟨y, hleaves, hserves⟩
      refine Action.ends_pure ⟨hleaves.keeps fun hk => (hserves hk).2,
        fun _ hl => absurd hl List.not_mem_nil, fun hk a ha => ?_⟩
      cases ha
      have hk' : p.EmptyOrWhole s l.key := hk l.key (by simp [SetUse.involved, hl])
      refine ⟨?_, ?_⟩
      · simp [SetUse.plain, hl, (hserves hk').1]
      · simpa [SetUse.leaves, hl] using hleaves.members_eq

end Map

/-! ## Turns -/

section Turns

/-- A set of the source expires while it is cached. -/
def Lapses (p : OnDemandPair) (k : Key) (s s' : Stand V) : Prop :=
  s'.members p.source k ≠ s.members p.source k ∧ s'.members p.cache k ≠ ∅

/-- The source's set under a key does not expire while it is cached, through all the turns. -/
def Unlapsed (p : OnDemandPair) (faults : Faults V) (k : Key) :
    Custody V Unit → List (Turn (SetUse Unit)) → Prop
  | _, [] => True
  | h, turn :: rest =>
    ¬ p.Lapses k h.world.stand (h.world.atTime turn.time).stand ∧
      p.Unlapsed faults k (h.serve faults.regime (fun _ => (p.map V).store) turn) rest

/-- What has been handed out is found in the cache, and no set in either map is empty. -/
structure Sound (p : OnDemandPair) (h : Custody V Unit) : Prop where
  found : ∀ l ∈ h.lent, ∃ cell, l.route = .cached .direct cell
  source : (h.world.setMaps.nth p.source).content.Populated
  cache : (h.world.setMaps.nth p.cache).content.Populated

/-- With time a cached set can only become partial if the source's expires. -/
theorem EmptyOrWhole.later {w : World V} {time : Nat} (hle : w.clock ≤ time)
    (hk : p.EmptyOrWhole w.stand k)
    (hstays : ¬ p.Lapses k w.stand (w.atTime time).stand) :
    p.EmptyOrWhole (w.atTime time).stand k := by
  by_cases hnone : (w.atTime time).stand.members p.cache k = ∅
  · exact .inl hnone
  · have hsource : (w.atTime time).stand.members p.source k = w.stand.members p.source k :=
      not_not.1 fun hne => hstays ⟨hne, hnone⟩
    have hcached : (w.atTime time).stand.members p.cache k = w.stand.members p.cache k :=
      MemberMap.liveMembers_of_later hle hnone
    right
    rw [hcached] at hnone ⊢
    rw [hsource]
    exact hk.resolve_left hnone

include hsource

/-- To list the keys may fail, where the source does not grant that, but changes nothing. -/
theorem wp_keys (w : World V) :
    ((p.map V).store.keys t).wp faults.regime (fun _ w' => p.Keeps w.stand w'.stand) w := by
  change Action.wp _ ((Backend.setMap p.source).requireKeys "source" >>= fun _ =>
    Backend.onSetMap p.source .keys t) _ w
  have hlists : (Backend.setMap p.source).canList =
      Grants.keys <$> Backend.grants (V := V) (.setMap p.source) := rfl
  rw [Action.wp_bind, wp_requireKeys hlists]
  split
  · have hread : (Backend.onSetMap p.source .keys t).ends faults.regime (fun _ s' =>
        p.Keeps w.stand s') w.stand :=
      Action.ends_mono (hsource.ends_reading .keys (.number 0) (.inl rfl)) fun _ _ ⟨_, hsame⟩ =>
        (Leaves.of_source (p := p) hsame).keeps id
    exact Action.wp_mono (hread w rfl) fun _ _ ⟨_, _, hkeeps⟩ => hkeeps
  · exact Keeps.refl w.stand

include hcache

/-- After a turn no cached set has become partial. -/
theorem serve_keeps {h : Custody V Unit} (hh : p.Sound h) (turn : Turn (SetUse Unit)) :
    p.Keeps (h.world.atTime turn.time).stand
        (h.serve faults.regime (fun _ => (p.map V).store) turn).world.stand ∧
      ∀ l ∈ (h.serve faults.regime (fun _ => (p.map V).store) turn).lent,
        ∃ cell, l.route = .cached .direct cell := by
  obtain ⟨use, t, time⟩ := turn
  by_cases hkeys : use = .keys ()
  · subst hkeys
    refine ⟨wp_keys hsource (h.world.atTime time), fun l hl => ?_⟩
    rcases Custody.mem_lent_serve hl with hl | ⟨a, -, hl⟩
    · exact hh.found l hl
    · exact absurd hl List.not_mem_nil
  · obtain ⟨b, hb, hfollows⟩ := Action.ends_act (ends_follows (t := t)
      (s := (h.world.atTime time).stand) hsource hcache hkeys hh.source hh.cache hh.found)
    refine ⟨hfollows.keeps, fun l hl => ?_⟩
    rcases Custody.mem_lent_serve hl with hl | ⟨a, ha, hl⟩
    · exact hh.found l hl
    · cases hb.symm.trans ha
      exact hfollows.found l hl

theorem Sound.serve {h : Custody V Unit} (hh : p.Sound h) (turn : Turn (SetUse Unit)) :
    p.Sound (h.serve faults.regime (fun _ => (p.map V).store) turn) := by
  obtain ⟨hkeeps, hfound⟩ := serve_keeps hsource hcache hh turn
  exact ⟨hfound, hkeeps.populated _ hh.source, hkeeps.populated _ hh.cache⟩

theorem Sound.serveAll {h : Custody V Unit} (hh : p.Sound h) (turns : List (Turn (SetUse Unit))) :
    p.Sound (h.serveAll faults.regime (fun _ => (p.map V).store) turns) := by
  induction turns generalizing h with
  | nil => exact hh
  | cons turn rest ih => exact ih (hh.serve hsource hcache turn)

/-- Call after call, a cached set is empty or whole unless the source's expires. -/
theorem serveAll_whole {h : Custody V Unit} (hh : p.Sound h) (turns : List (Turn (SetUse Unit)))
    (htimes : (h.world.clock :: turns.map Turn.time).Pairwise (· ≤ ·))
    (hk : p.EmptyOrWhole h.world.stand k) (hstays : p.Unlapsed faults k h turns) :
    p.EmptyOrWhole (h.serveAll faults.regime (fun _ => (p.map V).store) turns).world.stand k := by
  induction turns generalizing h with
  | nil => exact hk
  | cons turn rest ih =>
    obtain ⟨hle, hrest⟩ := List.pairwise_cons.1 htimes
    have hnow := hk.later (hle turn.time List.mem_cons_self) hstays.1
    have hnext := (serve_keeps hsource hcache hh turn).1.whole k hnow
    refine ih (hh.serve hsource hcache turn) ?_ hnext hstays.2
    rw [Custody.clock_serve]
    exact hrest

end Turns

theorem unlapsed_append {faults : Faults V} {h : Custody V Unit}
    {turns : List (Turn (SetUse Unit))} {last : Turn (SetUse Unit)}
    (hstays : p.Unlapsed faults k h (turns ++ [last])) :
    let before := h.serveAll faults.regime (fun _ => (p.map V).store) turns
    p.Unlapsed faults k h turns ∧
      ¬ p.Lapses k before.world.stand (before.world.atTime last.time).stand := by
  induction turns generalizing h with
  | nil => exact ⟨trivial, hstays.1⟩
  | cons turn rest ih =>
    obtain ⟨hrest, hlast⟩ := ih hstays.2
    exact ⟨⟨hstays.1, hrest⟩, hlast⟩

end Calls

end OnDemandPair

/-- **Sets cached on demand are never partial** where no call fails and the cache begins empty:
after every call the cached set under a key is empty or the source's, unless the source's has
expired while it was cached. A use that involves only such keys is answered as the source alone
would answer it, and leaves the source as it would. This goes for the map and for all sets that it
has handed out, however long ago. -/
theorem on_demand_sets_answer_as_source (p : OnDemandPair) (faults : Faults V)
    (hsource : faults.Spares (.setMap p.source)) (hcache : faults.Spares (.setMap p.cache))
    (w : World V) (hfull : (w.setMaps.nth p.source).content.Populated)
    (hempty : (w.setMaps.nth p.cache).content = {})
    (turns : List (Turn (SetUse Unit))) (last : Turn (SetUse Unit))
    (htimes : (w.clock :: (turns ++ [last]).map Turn.time).Pairwise (· ≤ ·)) :
    let facade : Unit → SetMapStore V := fun _ => (p.map V).store
    let start : Custody V Unit := { world := w }
    let before := start.serveAll faults.regime facade turns
    let out := before.turn faults.regime facade last
    let bare := before.turn faults.regime (fun _ => Backend.setMap p.source) last
    (∀ k, p.Unlapsed faults k start turns → p.EmptyOrWhole before.world.stand k) ∧
    (last.op.OfSets →
      (∀ k ∈ last.op.involved before.lent, p.Unlapsed faults k start (turns ++ [last])) →
      ∃ a b, bare.1 = .ok a ∧ out.1 = .ok b ∧ last.op.plain b = a ∧
        out.2.stand.members p.source = bare.2.stand.members p.source) := by
  intro facade start before out bare
  have hstart : p.Sound start := by
    refine ⟨nofun, hfull, ?_⟩
    rw [hempty]
    exact MemberMap.populated_empty
  have hnothing (k : Key) : p.EmptyOrWhole w.stand k := by
    left
    change (w.setMaps.nth p.cache).content.liveMembers w.clock k = ∅
    rw [hempty]
    simp [MemberMap.liveMembers]
  have htimes' : (w.clock :: turns.map Turn.time).Pairwise (· ≤ ·) :=
    htimes.sublist (((List.sublist_append_left turns [last]).map Turn.time).cons_cons w.clock)
  have hwhole (k : Key) (hk : p.Unlapsed faults k start turns) :
      p.EmptyOrWhole before.world.stand k :=
    OnDemandPair.serveAll_whole hsource hcache hstart turns htimes' (hnothing k) hk
  have hsound : p.Sound before := hstart.serveAll hsource hcache turns
  refine ⟨hwhole, fun hop hkeys => ?_⟩
  -- The last caller finds the sets as they are when it comes.
  have hnow : ∀ k ∈ last.op.involved before.lent,
      p.EmptyOrWhole (before.world.atTime last.time).stand k := by
    intro k hk
    obtain ⟨hturns, hlast⟩ := OnDemandPair.unlapsed_append (hkeys k hk)
    exact (hwhole k hturns).later (Custody.clock_serveAll _ faults start turns last htimes) hlast
  obtain ⟨a, ha⟩ := Option.isSome_iff_exists.1
    (hop.isSome_expected (before.world.atTime last.time).stand p.source before.lent)
  have hlisting : last.op ≠ .keys () := by
    intro h
    rw [h] at hop
    exact hop
  obtain ⟨b, hb, hfollows⟩ := Action.ends_act (OnDemandPair.ends_follows (t := last.token)
    (s := (before.world.atTime last.time).stand) hsource hcache hlisting hsound.source
    hsound.cache hsound.found)
  obtain ⟨_, hbare, rfl, hleaves⟩ := Action.ends_act (hsource.ends_use (t := last.token) ha)
  obtain ⟨hplain, hfollowed⟩ := hfollows.faithful hnow _ ha
  exact ⟨_, b, hbare, hb, hplain, hfollowed.trans hleaves.symm⟩

/-- A map of sets, and an empty one. -/
def World.sourceSets (V : Type) (content : MemberMap) : World V :=
  { setMaps := (∅ : Shelf (Base MemberMap)).put 0 { content } }

/-- A set is counted, which caches it with a time to live; it grows, expires in the cache, and is
counted again. -/
theorem on_demand_sets_answer_as_source_after_expiry :
    let p : OnDemandPair :=
      { name := "cache", source := 0, cache := 1, ne := by decide, ttl := some 30, limit := 1000 }
    let k : Key := .text "k"
    let facade : Unit → SetMapStore Nat := fun _ => (p.map Nat).store
    let start : Custody Nat Unit := { world := .sourceSets Nat (.ofList [(k, ["a", "b"])]) }
    let turns : List (Turn (SetUse Unit)) :=
      [{ op := .reach () k }, { op := .member 0 .count, time := 5 },
        { op := .member 0 (.add "c"), time := 10 }]
    let last : Turn (SetUse Unit) := { op := .member 0 .count, time := 50 }
    let before := start.serveAll (Faults.hitting []).regime facade turns
    (before.turn (Faults.hitting []).regime facade last).1 =
        (before.turn (Faults.hitting []).regime (fun _ => Backend.setMap 0) last).1 ∧
      p.EmptyOrWhole before.world.stand k ∧ before.world.stand.members 1 k ≠ ∅ ∧
      (before.world.atTime 50).stand.members 1 k = ∅ := by
  intro p k facade start turns last before
  have hspared : ∀ site, (Faults.hitting [] : Faults Nat).Spares site := Faults.spares_hitting_nil
  have hstays : p.Unlapsed (Faults.hitting []) k start (turns ++ [last]) := by
    refine ⟨?_, ?_, ?_, ?_, trivial⟩ <;> exact fun h => h.1 (by decide +kernel)
  obtain ⟨hwhole, hlast⟩ := on_demand_sets_answer_as_source p (Faults.hitting []) (hspared _)
    (hspared _) start.world (MemberMap.Furnished.ofList trivial _) rfl turns last (by decide)
  obtain ⟨a, b, hbare, hout, rfl, -⟩ := hlast trivial fun k' hk' => by
    cases List.mem_singleton.1 hk'
    exact hstays
  exact ⟨hout.trans hbare.symm, hwhole k ⟨hstays.1, hstays.2.1, hstays.2.2.1, trivial⟩,
    by decide +kernel, by decide +kernel⟩

/-- A set that expires in the source while it is cached is still shown, and still counted. -/
theorem lapsed_source_set_stays_cached :
    let p : OnDemandPair :=
      { name := "cache", source := 0, cache := 1, ne := by decide, ttl := none, limit := 1000 }
    let k : Key := .text "k"
    let facade : Unit → SetMapStore Nat := fun _ => (p.map Nat).store
    let start : Custody Nat Unit :=
      { world := .sourceSets Nat ((MemberMap.ofList [(k, ["a"])]).expireAt 0 k 20).2 }
    let turns : List (Turn (SetUse Unit)) :=
      [{ op := .reach () k }, { op := .member 0 .count, time := 5 }]
    let last : Turn (SetUse Unit) := { op := .member 0 .count, time := 50 }
    let before := start.serveAll (Faults.hitting []).regime facade turns
    let after := before.serve (Faults.hitting []).regime facade last
    let count (maps : Unit → SetMapStore Nat) : Except Halt (Option Nat) :=
      (before.turn (Faults.hitting []).regime maps last).1
    (∀ site, (Faults.hitting [] : Faults Nat).Spares site) ∧
      (start.world.setMaps.nth 0).content.Populated ∧ (start.world.setMaps.nth 1).content = {} ∧
      (count facade).toOption = some (some 1) ∧
      (count fun _ => Backend.setMap 0).toOption = some (some 0) ∧
      ¬ p.EmptyOrWhole after.world.stand k := by
  intro p k facade start turns last before after count
  refine ⟨Faults.spares_hitting_nil,
    MemberMap.Populated.expireAt (MemberMap.Furnished.ofList trivial _) k 20, rfl,
    by decide +kernel, by decide +kernel, ?_⟩
  unfold OnDemandPair.EmptyOrWhole
  decide +kernel

end TwinStore
