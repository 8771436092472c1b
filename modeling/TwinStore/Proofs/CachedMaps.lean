import TwinStore.Cache.Stores
import TwinStore.Proofs.Answers
import TwinStore.Proofs.Moments
import TwinStore.Proofs.Tiers

/-!
# Cached maps are coherent

A cached map over two base maps is coherent if every entry that the cache has is the source's
(`Scene.Coherent`). The cache may lack entries, and lose them when they expire; what it must not do
is keep one that the source has no longer. An update of the cache leaves the new entry or none under
its key (`CacheMap.Updated`), a refresh leaves only keys that the cache had, each with the source's
entry, so a call preserves coherence as long as the refreshes in it end well
(`CacheMap.Step.coherent`), and a coherent cache answers what the source would answer
(`CacheMap.Step.answers`).

Any call to either map may fail, and cached entries may expire: `cached_map_stays_coherent` is about
all runs of turns at times that do not decrease.
-/

namespace TwinStore

variable {V : Type}

theorem Entries.set_set (c : Entries V) (k : Key) (x y : Option V) :
    (c.set k x).set k y = c.set k y := by
  funext k'
  by_cases hk : k = k'
  · subst hk
    rw [set_self, set_self]
  · rw [set_of_ne _ _ hk, set_of_ne _ _ hk, set_of_ne _ _ hk]

/-- A run has ended well, and nothing cut it short. -/
def Span.Complete {S : Type} (span : Span S) : Prop :=
  ∃ report, span.outcome = .ok report ∧ report.timedOut = false

instance {S : Type} (span : Span S) : Decidable span.Complete :=
  match h : span.outcome with
  | .ok report => decidable_of_iff (report.timedOut = false) (by simp [Span.Complete, h])
  | .error _ => isFalse (by simp [Span.Complete, h])

/-! ## On scenes -/

/-- Every entry that the cache has is the source's. -/
def Scene.Coherent (s : Scene (Entries V)) : Prop :=
  ∀ k x, s.contents .secondary k = some x → s.contents .primary k = some x

/-- The cache is brought up to date: it keeps its keys, each with the source's entry. -/
def Scene.Refreshed (z : Hazard (Entries V)) (s : Scene (Entries V)) (r : Except Halt Report)
    (s' : Scene (Entries V)) : Prop :=
  Scene.Wrote z
    (fun _ c => ∀ k, c k = if (s.contents .secondary k).isSome then s.contents .primary k else none)
    (Entries.PartlyRefreshed (s.contents .primary) (s.contents .secondary)) .secondary s s' r

theorem Scene.coherent_congr {s s' : Scene (Entries V)} (h : s'.contents = s.contents) :
    s'.Coherent ↔ s.Coherent := by
  unfold Coherent
  rw [h]

/-- A refresh that ends well leaves the cache coherent, whatever it held before. -/
theorem Scene.Refreshed.coherent {z : Hazard (Entries V)} {s s' : Scene (Entries V)}
    {report : Report} (h : Scene.Refreshed z s (.ok report) s') : s'.Coherent := by
  cases h with
  | done _ c hc eq =>
    intro k x hx
    rw [eq, Scene.contents_put_self, hc] at hx
    rw [eq, Scene.primary_put_secondary]
    split at hx
    · exact hx
    · cases hx

namespace CacheMap

/-- What an update of the cache with an entry, or with none, leaves under the key: the entry or
none. An update that fails may also leave what was there. -/
structure Updated (k : Key) (x : Option V) (s : Scene (Entries V)) (r : Except Halt Bool)
    (s' : Scene (Entries V)) : Prop where
  primary : s'.contents .primary = s.contents .primary
  secondary : (r ≠ .ok true ∧ s'.contents .secondary = s.contents .secondary) ∨
    ∃ y, (y = none ∨ y = x) ∧ s'.contents .secondary = (s.contents .secondary).set k y

section Updated

variable {k : Key} {x : Option V} {s s' : Scene (Entries V)} {r : Except Halt Bool}

/-- To drop an entry is one way to update it. -/
theorem Updated.of_none (h : Updated k none s r s') (x : Option V) : Updated k x s r s' where
  primary := h.primary
  secondary := h.secondary.imp_right fun ⟨_, hy, hset⟩ => ⟨_, .inl (or_self_iff.1 hy), hset⟩

theorem Updated.of_failed {halt : Halt} (h : s'.contents = s.contents) :
    Updated k x s (.error halt) s' where
  primary := congrFun h .primary
  secondary := .inl ⟨by simp, congrFun h .secondary⟩

theorem Updated.of_put {y : Option V} (hy : y = none ∨ y = x)
    (h : s'.contents = (s.put .secondary ((s.contents .secondary).set k y)).contents) :
    Updated k x s r s' where
  primary := by rw [h, Scene.primary_put_secondary]
  secondary := .inr ⟨y, hy, by rw [h, Scene.contents_put_self]⟩

/-- A cache that has the source's entry under a key, or none, is coherent if it was so under all
other keys. -/
theorem Updated.coherent (h : Updated k x s r s') (hx : s.contents .primary k = x)
    (hs : ∀ k', k ≠ k' → ∀ y, s.contents .secondary k' = some y → s.contents .primary k' = some y)
    (hr : r = .ok true ∨ s.Coherent) : s'.Coherent := by
  rcases h.secondary with ⟨hne, hsame⟩ | ⟨y, hy, hset⟩
  · intro k' y hk'
    rw [hsame] at hk'
    rw [h.primary]
    exact hr.resolve_left hne k' y hk'
  · intro k' y' hk'
    rw [hset] at hk'
    rw [h.primary]
    by_cases hk : k = k'
    · subst hk
      rw [Entries.set_self] at hk'
      subst hk'
      rw [hx]
      exact (hy.resolve_left (Option.some_ne_none _)).symm
    · rw [Entries.set_of_ne _ _ hk] at hk'
      exact hs k' hk y' hk'

end Updated

/-! ## What an operation can do -/

/-- What an operation of a cached map can do. -/
def Step (z : Hazard (Entries V)) : (op : PlainOp V) → Scene (Entries V) → Except Halt op.Answer →
    List (Span (Scene (Entries V))) → Scene (Entries V) → Prop
  | .add k v overwrite => Scene.CacheWrite z (Entries.adding k v overwrite) (· = false)
      (fun a s r s' => a = true ∧ Updated k (some v) s r s') (Scene.Refreshed z)
  | .get k => fun s r js s' => js = [] ∧
      Scene.CacheRead z (Entries.reading k) (fun x s s' => ∃ r, Updated k x s r s') s r s'
  | .remove k => Scene.CacheWrite z (Entries.removing k) (fun _ => False)
      (fun _ => Updated k none) (Scene.Refreshed z)
  | .contains k => fun s r js s' => js = [] ∧
      Scene.CacheRead z (Entries.finding k) (fun _ s s' => s' = s) s r s'
  | .keys => fun s _ js s' => js = [] ∧ s'.contents = s.contents

section Step

variable {z : Hazard (Entries V)} {s s' : Scene (Entries V)} {js : List (Span (Scene (Entries V)))}

/-- A write is coherent if what is done to the cache is what the source's answer calls for. -/
theorem coherent_of_write {e : Effect (Entries V) Bool} {k : Key} {x : Option V}
    {stays : Bool → Prop}
    {changes : Bool → Scene (Entries V) → Except Halt Bool → Scene (Entries V) → Prop}
    {r : Except Halt Bool} (h : Scene.CacheWrite z e stays changes (Scene.Refreshed z) s r js s')
    (hstays : ∀ a c, stays a → e.answers c a → e.after c = c)
    (hchanges : ∀ a s r s', changes a s r s' → Updated k x s r s' ∧
      ∀ c, e.answers c a → e.after c = c.set k x)
    (hjs : ∀ span ∈ js, span.Complete) (hs : s.Coherent) : s'.Coherent := by
  cases h with
  | failed cause s₁ first =>
    cases first with
    | failed _ _ eq => exact (Scene.coherent_congr (by rw [eq, Scene.contents_blame])).2 hs
  | left a s₁ first hleft =>
    cases first with
    | done _ answers eq =>
      rw [hstays a _ hleft answers, Scene.put_contents] at eq
      rwa [eq]
  | updated a s₁ s₂ first change =>
    obtain ⟨hupdated, hafter⟩ := hchanges a _ _ _ change
    cases first with
    | done _ answers eq =>
      rw [hafter _ answers] at eq
      refine hupdated.coherent ?_ ?_ (.inl rfl)
      · rw [eq, Scene.contents_put_self, Entries.set_self]
      · intro k' hk y hy
        rw [eq, Scene.secondary_put_primary] at hy
        rw [eq, Scene.contents_put_self, Entries.set_of_ne _ _ hk]
        exact hs k' y hy
  | refreshed a s₁ r s₂ outcome s₃ first change _ refresh =>
    obtain ⟨report, hreport, -⟩ := hjs _ List.mem_cons_self
    change outcome = .ok report at hreport
    subst hreport
    exact refresh.coherent

theorem answers_of_write {e : Effect (Entries V) Bool} {stays : Bool → Prop}
    {changes : Bool → Scene (Entries V) → Except Halt Bool → Scene (Entries V) → Prop} {a : Bool}
    (h : Scene.CacheWrite z e stays changes (Scene.Refreshed z) s (.ok a) js s') :
    e.answers (s.contents .primary) a := by
  have hfirst : ∀ {s₁}, Scene.Tried z e .primary s s₁ (.ok a) →
      e.answers (s.contents .primary) a := by
    rintro s₁ (⟨_, answers, -⟩ | _)
    exact answers
  cases h with
  | left _ _ first _ => exact hfirst first
  | updated _ _ _ first _ => exact hfirst first
  | refreshed _ _ _ _ _ _ first _ _ _ => exact hfirst first

/-- A read is coherent if filling the cache with the source's answer is. -/
theorem coherent_of_read {α : Type} [CacheProbe α] {e : Effect (Entries V) α} {r : Except Halt α}
    {fill : α → Scene (Entries V) → Scene (Entries V) → Prop} (h : Scene.CacheRead z e fill s r s')
    (hfill : ∀ a s s', e.answers (s.contents .primary) a → fill a s s' → s.Coherent → s'.Coherent)
    (hs : s.Coherent) : s'.Coherent := by
  cases h with
  | hit a _ _ same => exact (Scene.coherent_congr same).2 hs
  | failed _ _ _ _ same => exact (Scene.coherent_congr same).2 hs
  | unfilled a _ _ _ _ same => exact (Scene.coherent_congr same).2 hs
  | filled a s₁ _ _ answers _ same filled =>
    exact hfill a s₁ _ (by rwa [same]) filled ((Scene.coherent_congr same).2 hs)

/-- **Every call preserves coherence**, if the refreshes in it end well. -/
theorem Step.coherent {op : PlainOp V} {r : Except Halt op.Answer} (h : Step z op s r js s')
    (hjs : ∀ span ∈ js, span.Complete) (hs : s.Coherent) : s'.Coherent := by
  cases op with
  | add k v overwrite =>
    refine coherent_of_write (k := k) (x := some v) h ?_ ?_ hjs hs
    · rintro _ c rfl answers
      exact if_pos ((Bool.not_eq_false' _).mp answers.symm)
    · rintro _ s r s' ⟨rfl, hupdated⟩
      refine ⟨hupdated, fun c answers => if_neg ?_⟩
      rw [Bool.not_eq_true, ← Bool.not_eq_true']
      exact answers.symm
  | remove k =>
    exact coherent_of_write (k := k) (x := none) h (fun _ _ hn _ => hn.elim)
      (fun _ _ _ _ hupdated => ⟨hupdated, fun _ _ => rfl⟩) hjs hs
  | get k =>
    refine coherent_of_read h.2 ?_ hs
    rintro x s₁ s₂ answers ⟨r, hupdated⟩ hs₁
    exact hupdated.coherent answers.symm (fun k' _ => hs₁ k') (.inr hs₁)
  | contains k =>
    refine coherent_of_read h.2 ?_ hs
    rintro a s₁ _ - rfl hs₁
    exact hs₁
  | keys => exact (Scene.coherent_congr h.2).2 hs

/-- A read answers what the source would, if the cache does when it has an answer of use. -/
theorem answers_of_read {α : Type} [CacheProbe α] {e : Effect (Entries V) α} {a : α}
    {fill : α → Scene (Entries V) → Scene (Entries V) → Prop}
    (h : Scene.CacheRead z e fill s (.ok a) s')
    (hcache : CacheProbe.isHit a = true → e.answers (s.contents .secondary) a →
      e.answers (s.contents .primary) a) : e.answers (s.contents .primary) a := by
  cases h with
  | hit _ _ probed _ =>
    cases probed with
    | hit _ answers hit => exact hcache hit answers
  | unfilled _ _ _ answers _ _ => exact answers
  | filled _ _ _ _ answers _ _ _ => exact answers

/-- **A coherent cached map answers what its source would answer.** -/
theorem Step.answers {op : PlainOp V} {a : op.Answer} (h : Step z op s (.ok a) js s')
    (hop : op ≠ .keys) (hs : s.Coherent) : op.effect.answers (s.contents .primary) a := by
  cases op with
  | add k v overwrite => exact answers_of_write h
  | remove k => exact answers_of_write h
  | get k =>
    refine answers_of_read h.2 fun hhit (answers : a = s.contents .secondary k) => ?_
    obtain ⟨x, rfl⟩ := Option.isSome_iff_exists.1 hhit
    exact (hs k x answers.symm).symm
  | contains k =>
    refine answers_of_read h.2 fun hhit (answers : a = (s.contents .secondary k).isSome) => ?_
    have hthere : a = true := hhit
    obtain ⟨x, hx⟩ := Option.isSome_iff_exists.1 (answers.symm.trans hthere)
    have hsource : (s.contents .primary k).isSome = true := by rw [hs k x hx]; rfl
    exact hthere.trans hsource.symm
  | keys => exact absurd rfl hop

end Step

/-! ## Operations, their refreshes marked -/

/-- An operation of a cached map, its refreshes marked. -/
def marked (c : CacheMap V) (t : Token) : (op : PlainOp V) → MarkedAction V op.Answer
  | .add k v overwrite =>
    c.tier.markedWrite (fun m => m.add k v overwrite t) (c.updateOf k v t)
  | .get k => liftM (c.store.get k t)
  | .remove k =>
    c.tier.markedWrite (fun m => m.remove k t) fun cache _ => some (drop cache k t)
  | .contains k => liftM (c.store.contains k t)
  | .keys => liftM (c.store.keys t)

/-- Marks aside, a marked operation of a cached map is the operation. -/
theorem erase_marked (c : CacheMap V) (t : Token) (op : PlainOp V) :
    (c.marked t op).erase = op.on c.store t := by
  cases op with
  | add k v overwrite =>
    exact c.tier.erase_markedWrite (fun m => m.add k v overwrite t) (c.updateOf k v t)
  | remove k =>
    exact c.tier.erase_markedWrite (fun m => m.remove k t) fun cache _ => some (drop cache k t)
  | get k => exact MarkedAction.erase_lift _
  | contains k => exact MarkedAction.erase_lift _
  | keys => exact MarkedAction.erase_lift _

section Serving

variable (c : CacheMap V) (faults : Faults V) (w : World V) (turns : List (Turn (PlainOp V)))

/-- The world after every caller of a cached map has been served. -/
def serve : World V :=
  serveAll faults.regime (fun op t => op.on c.store t) w turns

/-- The refreshes that failed updates of the cache have led to meanwhile. -/
def journal : List (Span (World V)) :=
  (performAll faults.regime (fun op t => c.marked t op) w turns).1

end Serving

end CacheMap

/-! ## In the world -/

/-- A source whose entries never expire, and a cache of which nothing is known but that it can be
refreshed. -/
def MapMoment.cached (source cache : Nat) (ne : source ≠ cache) : MapMoment where
  core := 0
  primary := source
  secondary := cache
  ne := ne
  listing side := side = .secondary
  lasting side := side = .primary

/-- Every entry that the cache has at the moment is the source's. -/
def World.Caches (w : World V) (source cache : Nat) : Prop :=
  ∀ k x, (w.maps.nth cache).content.live? w.clock k = some x →
    (w.maps.nth source).content.live? w.clock k = some x

/-- A cached map over two base maps, which refreshes what is cached. -/
structure CacheMap.Over (c : CacheMap V) (source cache limit : Nat) : Prop where
  source : c.tier.source = Backend.map source
  cache : c.tier.cache = Backend.map cache
  synchronizer : c.tier.synchronizer = CacheMap.refresher limit

namespace CacheMap

variable {source cache limit : Nat} {name : String} {c : CacheMap V} {faults : Faults V}
  {w : World V}

/-- What is made is a cached map over the two base maps, and only if the cache lists its keys. -/
theorem wp_make {g : Regime V} (settings : Settings) :
    (make name (Backend.map source) (Backend.map cache) (refresher settings.runLimit)
      settings).wp g (fun r w' => w' = w ∧ ∀ c, r = .ok c →
        (w.maps.nth cache).grants.keys = true ∧ c.Over source cache settings.runLimit) w := by
  have hmade : ∀ ttl, Action.wp g (do
      let tier ← CacheTier.make name (Backend.map source) (Backend.map cache)
        (refresher settings.runLimit)
      return { tier, ttl, cachesWrites := settings.cachesWrites }) (fun r w' => w' = w ∧
        ∀ c : CacheMap V, r = .ok c → (w.maps.nth cache).grants.keys = true ∧
          c.Over source cache settings.runLimit) w := by
    intro ttl
    unfold CacheTier.make
    rw [Action.wp_bind, Action.wp_bind]
    change Action.wp g ((Backend.map cache).requireKeys "target") _ w
    rw [wp_requireKeys_map]
    split
    · rename_i hlists
      refine ⟨rfl, ?_⟩
      rintro _ ⟨⟩
      exact ⟨hlists, rfl, rfl, rfl⟩
    · exact ⟨rfl, fun _ h => nomatch h⟩
  unfold make KeyedStore.effectiveTtl
  rw [Action.wp_bind, Action.wp_bind]
  change Action.wp g (ExceptT.lift (Backend.map cache).canExpire) _ w
  rw [Action.wp_lift, Action.andThen_ok]
  split
  · exact hmade settings.cacheTtl
  · exact hmade none


section Calls

variable {p : MapMoment}

/-- What the base maps carry out, the stores of the tier carry out. -/
theorem Over.carries (h : c.Over p.primary p.secondary limit) {α : Type}
    (op : MapStore V → Action V α) {eff : Effect (Entries V) α}
    (hop : (p.view V).Carries faults.regime (p.hazard faults) (fun side => op (p.base V side))
      eff) :
    (p.view V).Carries faults.regime (p.hazard faults) (fun side => op (c.tier.storeOn side))
      eff := by
  intro side
  cases side
  · change ∀ w, _ → (op c.tier.source).wp _ _ w
    rw [h.source]
    exact hop .primary
  · change ∀ w, _ → (op c.tier.cache).wp _ _ w
    rw [h.cache]
    exact hop .secondary

variable (hw : (p.view V).Fit w)
include hw

/-- A put leaves the entry, or nothing if it expires at once; one that fails may leave what was
there. -/
theorem wp_put (hcache : ¬ p.lasting .secondary) (c : CacheMap V) (k : Key) (x : V) (t : Token) :
    (c.put (p.base V .secondary) k x t).wp faults.regime (fun r w' => (p.view V).Fit w' ∧
      (∃ r', r = Except.mapError Halt.failed r') ∧
        Updated k (some x) ((p.view V).scene w) r ((p.view V).scene w')) w := by
  unfold put
  rw [Action.wp_bind]
  refine Action.wp_mono (MapMoment.carries_add k x true t .secondary w hw) ?_
  rintro r w₁ ⟨hw₁, hadded⟩
  cases hadded with
  | failed cause frail eq =>
    exact ⟨hw₁, ⟨.error cause, rfl⟩, .of_failed (by rw [eq, Scene.contents_blame])⟩
  | done stored answers eq =>
    rw [Action.andThen_ok]
    cases c.ttl with
    | none => exact ⟨hw₁, ⟨.ok stored, rfl⟩, .of_put (.inr rfl) (congrArg Scene.contents eq)⟩
    | some ttl =>
      dsimp only
      rw [Action.wp_bind]
      refine Action.wp_mono (MapMoment.wp_touch hcache k ttl t hw₁) ?_
      rintro _ w₂ ⟨hw₂, ⟨r, rfl⟩, htouched⟩
      have hupdated : ∀ r', Updated k (some x) ((p.view V).scene w) r' ((p.view V).scene w₂) := by
        intro r'
        rcases htouched with hsame | hgone
        · exact .of_put (.inr rfl) (by rw [hsame, eq]; rfl)
        · refine .of_put (.inl rfl) (hgone.trans ?_)
          rw [eq, Scene.contents_put_self, Scene.put_put]
          exact congrArg (fun c => (Scene.put _ _ c).contents) (Entries.set_set _ k _ none)
      cases r with
      | error cause => exact ⟨hw₂, ⟨.error cause, rfl⟩, hupdated _⟩
      | ok found => exact ⟨hw₂, ⟨.ok stored, rfl⟩, hupdated _⟩

theorem wp_drop (k : Key) (t : Token) :
    (drop (p.base V .secondary) k t).wp faults.regime (fun r w' => (p.view V).Fit w' ∧
      (∃ r', r = Except.mapError Halt.failed r') ∧
        Updated k none ((p.view V).scene w) r ((p.view V).scene w')) w := by
  unfold drop
  rw [Action.wp_bind]
  refine Action.wp_mono (MapMoment.carries_remove k t .secondary w hw) ?_
  rintro r w₁ ⟨hw₁, hremoved⟩
  cases hremoved with
  | failed cause frail eq =>
    exact ⟨hw₁, ⟨.error cause, rfl⟩, .of_failed (by rw [eq, Scene.contents_blame])⟩
  | done found answers eq =>
    exact ⟨hw₁, ⟨.ok true, rfl⟩, .of_put (.inl rfl) (congrArg Scene.contents eq)⟩

/-- What the source answers to a read is put into the cache. -/
theorem wp_backfill (hcache : ¬ p.lasting .secondary) (c : CacheMap V) (k : Key) (t : Token)
    (x : Option V) (hhit : CacheProbe.isHit x = true) :
    (c.backfill k t (p.base V .secondary) x).wp faults.regime (fun r w' => (p.view V).Fit w' ∧
      (∃ r', r = Except.mapError Halt.failed r') ∧
        ∃ r, Updated k x ((p.view V).scene w) r ((p.view V).scene w')) w := by
  obtain ⟨x, rfl⟩ := Option.isSome_iff_exists.1 hhit
  unfold backfill
  dsimp only
  rw [Action.wp_bind]
  refine Action.wp_mono (wp_put hw hcache c k x t) ?_
  rintro _ w' ⟨hw', ⟨r, rfl⟩, hupdated⟩
  cases r with
  | error cause => exact ⟨hw', ⟨.error cause, rfl⟩, _, hupdated⟩
  | ok stored => exact ⟨hw', ⟨.ok (), rfl⟩, _, hupdated⟩

/-- What an addition to the source calls for is done to the cache. -/
theorem wp_updateOf (hcache : ¬ p.lasting .secondary) (c : CacheMap V) (k : Key) (x : V) (t : Token)
    {added : Bool} {change : Action V Bool}
    (hchange : c.updateOf k x t (p.base V .secondary) added = some change) :
    change.wp faults.regime (fun r w' => (p.view V).Fit w' ∧
      (∃ r', r = Except.mapError Halt.failed r') ∧
        added = true ∧ Updated k (some x) ((p.view V).scene w) r ((p.view V).scene w')) w := by
  unfold updateOf at hchange
  split at hchange
  · rename_i hadded
    split at hchange
    · cases hchange
      refine Action.wp_mono (wp_put hw hcache c k x t) ?_
      rintro r w' ⟨hw', huncut, hupdated⟩
      exact ⟨hw', huncut, hadded, hupdated⟩
    · cases hchange
      refine Action.wp_mono (wp_drop hw k t) ?_
      rintro r w' ⟨hw', huncut, hupdated⟩
      exact ⟨hw', huncut, hadded, hupdated.of_none (some x)⟩
  · cases hchange

/-- A refresh brings the cache up to date, or fails. -/
theorem Over.wp_refresh (h : c.Over p.primary p.secondary limit) (hlists : p.listing .secondary) :
    (c.tier.refresh none).wp faults.regime (fun r w' => (p.view V).Fit w' ∧
      (∃ r', r = Except.mapError Halt.failed r') ∧
        Scene.Refreshed (p.hazard faults) ((p.view V).scene w) r ((p.view V).scene w')) w := by
  have hrefreshes : (p.view V).Refreshes faults.regime (p.hazard faults) .primary .secondary
      (p.base V .primary) (p.base V .secondary) _ := MapMoment.refreshes (by decide) hlists
  unfold CacheTier.refresh
  rw [h.source, h.cache, h.synchronizer]
  refine Action.wp_mono (hrefreshes.wp_run limit hw rfl rfl) ?_
  rintro r w' ⟨hw', hwrote⟩
  exact ⟨hw', hwrote.uncut, hwrote⟩

section Marked

variable (h : c.Over p.primary p.secondary limit) (hcache : ¬ p.lasting .secondary)
  (hlists : p.listing .secondary)
include h hlists

/-- A write of a cached map, with the updates of the cache that it may call for. -/
theorem Over.wp_markedWrite (op : MapStore V → Action V Bool) {eff : Effect (Entries V) Bool}
    (update : MapStore V → Bool → Option (Action V Bool)) (stays : Bool → Prop)
    (changes : Bool → Scene (Entries V) → Except Halt Bool → Scene (Entries V) → Prop)
    (hop : (p.view V).Carries faults.regime (p.hazard faults) (fun side => op (p.base V side)) eff)
    (hstays : ∀ a, update (p.base V .secondary) a = none → stays a)
    (hupdate : ∀ a change w, update (p.base V .secondary) a = some change → (p.view V).Fit w →
      change.wp faults.regime (fun r w' => (p.view V).Fit w' ∧
        (∃ r', r = Except.mapError Halt.failed r') ∧
          changes a ((p.view V).scene w) r ((p.view V).scene w')) w) :
    (c.tier.markedWrite op update).wp faults.regime (fun r js w' => (p.view V).Fit w' ∧
      c.tier.SourceFails faults.regime op r w' ∧
      Scene.CacheWrite (p.hazard faults) eff stays changes (Scene.Refreshed (p.hazard faults))
        ((p.view V).scene w) r (js.map (Span.map (p.view V).scene)) ((p.view V).scene w')) w := by
  refine CacheTier.wp_markedWrite stays changes _ (h.carries op hop) ?_ ?_
    (fun w hw => h.wp_refresh hw hlists) hw
  · rw [h.cache]
    exact hstays
  · rw [h.cache]
    exact hupdate

include hcache

/-- An operation of a cached map does what it can do, and fails only as its source does. -/
theorem Over.wp_marked (op : PlainOp V) (t : Token) :
    (c.marked t op).wp faults.regime (fun r js w' => (p.view V).Fit w' ∧
      (op ≠ .keys → c.tier.SourceFails faults.regime (fun m => op.on m t) r w') ∧
      Step (p.hazard faults) op ((p.view V).scene w) r (js.map (Span.map (p.view V).scene))
        ((p.view V).scene w')) w := by
  cases op with
  | add k v overwrite =>
    refine MarkedAction.wp_mono (h.wp_markedWrite hw hlists (fun m => m.add k v overwrite t)
      (c.updateOf k v t) (· = false) (fun a s r s' => a = true ∧ Updated k (some v) s r s')
      (MapMoment.carries_add k v overwrite t) ?_
      fun a change w hchange hw => wp_updateOf hw hcache c k v t hchange) ?_
    · rintro (_ | _) hnone
      · rfl
      · unfold updateOf at hnone
        rw [if_pos rfl] at hnone
        split at hnone <;> cases hnone
    · rintro r js w' ⟨hw', hfails, hwrite⟩
      exact ⟨hw', fun _ => hfails, hwrite⟩
  | get k =>
    refine (MarkedAction.wp_lift _ _).2 (Action.wp_mono (CacheTier.wp_read
      (h.carries (fun m => m.get k t) (MapMoment.carries_get k t)) (fun _ => rfl) hw
      (fun x s s' => ∃ r, Updated k x s r s') ?_) ?_)
    · rw [h.cache]
      exact fun x w hhit hw => wp_backfill hw hcache c k t x hhit
    · rintro r w' ⟨hw', hfails, hread⟩
      exact ⟨hw', fun _ => hfails, rfl, hread⟩
  | remove k =>
    refine MarkedAction.wp_mono (h.wp_markedWrite hw hlists (fun m => m.remove k t)
      (fun cache _ => some (drop cache k t)) (fun _ => False) (fun _ => Updated k none)
      (MapMoment.carries_remove k t) (fun _ hnone => nomatch hnone) ?_) ?_
    · rintro _ _ w ⟨⟩ hw
      exact wp_drop hw k t
    · rintro r js w' ⟨hw', hfails, hwrite⟩
      exact ⟨hw', fun _ => hfails, hwrite⟩
  | contains k =>
    refine (MarkedAction.wp_lift _ _).2 (Action.wp_mono (CacheTier.wp_readThrough
      (h.carries (fun m => m.contains k t) (MapMoment.carries_contains k t)) (fun _ => rfl) hw) ?_)
    rintro r w' ⟨hw', hfails, hread⟩
    exact ⟨hw', fun _ => hfails, rfl, hread⟩
  | keys =>
    refine (MarkedAction.wp_lift _ _).2 ?_
    change Action.wp _ (c.tier.source.listAs "source" t) _ w
    rw [h.source]
    unfold KeyedStore.listAs
    rw [Action.wp_bind, wp_requireKeys_map]
    split
    · rw [Action.andThen_ok]
      refine Action.wp_mono (MapMoment.wp_keys .primary t hw) ?_
      rintro r w' ⟨hw', hlisted⟩
      exact ⟨hw', fun h => absurd rfl h, rfl, hlisted.contents⟩
    · exact ⟨hw, fun h => absurd rfl h, rfl, rfl⟩

end Marked

end Calls

/-! ## Runs of turns -/

section Runs

variable {ne : source ≠ cache}

/-- Time only takes entries from the cache. -/
theorem coherent_atTime (hw : ((MapMoment.cached source cache ne).view V).Fit w)
    (hs : w.Caches source cache) {time : Nat} (hle : w.clock ≤ time) :
    (w.atTime time).Caches source cache := by
  intro k x hx
  have hthere : (((MapMoment.cached source cache ne).view V).scene w).contents .secondary k =
    some x := MapMoment.contents_of_atTime hle hx
  have hsame := MapMoment.contents_atTime_of_lasting hw rfl time
  exact (congrFun hsame k).trans (hs k x hthere)

/-- A call of a cached map is sound if it leaves the cache coherent, answers what the source would
answer when it is made, and ends in no error but one in which the source's own operation ended, as
the last thing that was done. -/
structure Sound (c : CacheMap V) (faults : Faults V) (source cache : Nat) (op : PlainOp V)
    (t : Token) (w : World V) : Prop where
  coherent : (faults.regime.act w (op.on c.store t)).2.Caches source cache
  answers : op ≠ .keys → ∀ a, (faults.regime.act w (op.on c.store t)).1 = .ok a →
    op.effect.answers ((w.maps.nth source).content.live? w.clock) a
  fails : op ≠ .keys → ∀ halt, (faults.regime.act w (op.on c.store t)).1 = .error halt →
    ∃ w₁, faults.regime.act w₁ (op.on (Backend.map source) t) =
      (.error halt, (faults.regime.act w (op.on c.store t)).2)

/-- **One call is sound** if the refreshes in it end well. -/
theorem Over.turn (h : c.Over source cache limit)
    (hw : ((MapMoment.cached source cache ne).view V).Fit w) (hs : w.Caches source cache)
    (op : PlainOp V) (t : Token)
    (hjs : ∀ span ∈ ((c.marked t op).perform faults.regime w).2.1, span.Complete) :
    ((MapMoment.cached source cache ne).view V).Fit
      (faults.regime.act w (op.on c.store t)).2 ∧ c.Sound faults source cache op t w := by
  have hmarked := MarkedAction.act_erase faults.regime w (c.marked t op)
  rw [c.erase_marked] at hmarked
  obtain ⟨hfit, hfails, hstep⟩ := Over.wp_marked hw h (by simp [MapMoment.cached]) rfl op t
  have hspans : ∀ span ∈ ((c.marked t op).perform faults.regime w).2.1.map
      (Span.map ((MapMoment.cached source cache ne).view V).scene), span.Complete := by
    intro span hspan
    obtain ⟨span', hmem, rfl⟩ := List.mem_map.1 hspan
    exact hjs span' hmem
  rw [hmarked]
  refine ⟨hfit, ?_, ?_, ?_⟩
  · rw [hmarked]
    exact hstep.coherent hspans hs
  · rw [hmarked]
    rintro hop a ha
    rw [show ((c.marked t op).perform faults.regime w).1 = .ok a from ha] at hstep
    exact hstep.answers hop hs
  · rw [hmarked]
    intro hop halt hhalt
    obtain ⟨w₁, hfailed⟩ := hfails hop halt hhalt
    rw [h.source] at hfailed
    exact ⟨w₁, hfailed⟩

/-- Call after call is sound, if the refreshes in all of them end well. -/
theorem Over.run (h : c.Over source cache limit) (turns : List (Turn (PlainOp V)))
    (last : Turn (PlainOp V)) (hw : ((MapMoment.cached source cache ne).view V).Fit w)
    (hs : w.Caches source cache)
    (htimes : (w.clock :: (turns ++ [last]).map Turn.time).Pairwise (· ≤ ·))
    (hjs : ∀ span ∈ c.journal faults w (turns ++ [last]), span.Complete) :
    c.Sound faults source cache last.op last.token
      ((c.serve faults w turns).atTime last.time) := by
  induction turns generalizing w with
  | nil =>
    obtain ⟨hle, -⟩ := List.pairwise_cons.1 htimes
    have hnow := coherent_atTime hw hs (hle last.time List.mem_cons_self)
    refine (h.turn (MapMoment.fit_atTime hw last.time) hnow last.op last.token ?_).2
    exact fun span hmem => hjs span (List.mem_append_left _ hmem)
  | cons turn rest ih =>
    obtain ⟨hle, hrest⟩ := List.pairwise_cons.1 htimes
    have hnow := coherent_atTime hw hs (hle turn.time List.mem_cons_self)
    obtain ⟨hw₁, hsound⟩ := h.turn (MapMoment.fit_atTime hw turn.time) hnow turn.op turn.token
      fun span hmem => hjs span (List.mem_append_left _ hmem)
    refine ih hw₁ hsound.coherent ?_ fun span hmem => hjs span (List.mem_append_right _ ?_)
    · rw [faults.act_clock]
      exact hrest
    · have hend := MarkedAction.act_erase faults.regime (w.atTime turn.time)
        (c.marked turn.token turn.op)
      rw [c.erase_marked] at hend
      change span ∈ c.journal faults (faults.regime.act (w.atTime turn.time)
        (turn.op.on c.store turn.token)).2 _ at hmem
      rw [hend] at hmem
      exact hmem

end Runs

end CacheMap

/-- **A cached map over two base maps stays coherent**, whatever calls to the two fail and however
its entries expire, as long as the refreshes that failed updates lead to end well: after every call
each entry that the cache has is the source's, every answer is what the source would answer when the
call is made, and no error is the cache's. Writes may be put into the cache or drop what is cached,
with a time to live or without one. -/
theorem cached_map_stays_coherent {source cache : Nat} (ne : source ≠ cache) (name : String)
    (settings : Settings) (faults : Faults V) {w₀ w : World V} {c : CacheMap V}
    (hmake : faults.regime.act w₀ (CacheMap.make name (Backend.map source) (Backend.map cache)
      (CacheMap.refresher settings.runLimit) settings) = (.ok c, w))
    (hlasts : (w.maps.nth source).content.Every (·.deadline = none)) (hs : w.Caches source cache)
    (turns : List (Turn (PlainOp V))) (last : Turn (PlainOp V))
    (htimes : (w.clock :: (turns ++ [last]).map Turn.time).Pairwise (· ≤ ·))
    (hrefreshes : ∀ span ∈ c.journal faults w (turns ++ [last]), span.Complete) :
    c.Sound faults source cache last.op last.token
      ((c.serve faults w turns).atTime last.time) := by
  have hmade : (CacheMap.make name (Backend.map source) (Backend.map cache)
      (CacheMap.refresher settings.runLimit) settings).wp faults.regime _ w₀ :=
    CacheMap.wp_make settings
  unfold Action.wp at hmade
  rw [hmake] at hmade
  obtain ⟨rfl, hover⟩ := hmade
  obtain ⟨hlists, hover⟩ := hover c rfl
  have hw : ((MapMoment.cached source cache ne).view V).Fit w := by
    refine fun side => ⟨?_, ?_⟩
    · rintro rfl
      exact hlasts
    · rintro rfl
      exact hlists
  exact hover.run turns last hw hs htimes hrefreshes

/-- The cache misses an addition and is refreshed, a read fills it again, and what it has
expires. -/
theorem cached_map_stays_coherent_through_miss :
    let settings : Settings := { cacheTtl := some 30 }
    let faults : Faults Nat := Faults.hitting [1]
    let w := World.twinMaps [(.number 1, 10)]
    let c : CacheMap Nat :=
      { tier := { name := "cache", source := Backend.map 0, cache := Backend.map 1
                  synchronizer := CacheMap.refresher settings.runLimit }
        ttl := some 30
        cachesWrites := true }
    let turns : List (Turn (PlainOp Nat)) :=
      [{ op := .add (.number 2) 7 true }, { op := .get (.number 2), time := 5 },
        { op := .remove (.number 1), time := 6 }]
    let last : Turn (PlainOp Nat) := { op := .contains (.number 2), time := 40 }
    c.Sound faults 0 1 last.op last.token ((c.serve faults w turns).atTime last.time) ∧
      (c.journal faults w turns).length = 1 ∧
      (((c.serve faults w turns).maps.nth 1).content.live? 6 (.number 2)) = some 7 ∧
      (((c.serve faults w turns).maps.nth 1).content.live? 40 (.number 2)) = none := by
  intro settings faults w c turns last
  have hmake : faults.regime.act w (CacheMap.make "cache" (Backend.map 0) (Backend.map 1)
      (CacheMap.refresher settings.runLimit) settings) = (.ok c, w) := rfl
  have hlasts : (w.maps.nth 0).content.Every (·.deadline = none) :=
    EntryMap.Every.insert EntryMap.every_empty (.number 1) rfl
  have hrefreshes : ∀ span ∈ c.journal faults w (turns ++ [last]), span.Complete := by
    decide +kernel
  refine ⟨cached_map_stays_coherent (by decide) "cache" settings faults hmake hlasts
    (fun k x h => h) turns last (by decide) hrefreshes, ?_⟩
  decide +kernel

end TwinStore
