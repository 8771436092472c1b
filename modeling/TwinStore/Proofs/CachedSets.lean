import Mathlib.Data.List.Perm.Subperm
import TwinStore.Cache.Stores
import TwinStore.Proofs.Tiers
import TwinStore.Proofs.Turns

/-!
# What cached sets answer

A cached set has no way to tell a part of its source from the whole: as soon as its cache has a
member, it is what the cached set shows (`Members.shown`). A member that is looked for and found, or
added, may be the first, so lengths and listings may leave members out. What holds of every call,
where nothing fails, is said once (`CachedSet.Does`): the cache has only members of the source, an
answer about one member is the source's, and a length or a listing is that of what is shown, which
is the source's exactly if the cache is empty or complete (`CachedSet.answers_iff`).

So a cached set answers as its source does from a refresh on, or from a listing on that found its
cache empty (`cached_set_answers`).
-/

namespace TwinStore

variable {V : Type}

/-! ## Members shown -/

namespace Members

variable {source cache : MemberSet}

/-- A part of a set that is as large is the set. -/
theorem eq_of_subset_of_size (h : ∀ x ∈ cache, x ∈ source) (hsize : cache.size = source.size) :
    cache = source := by
  have hsub : cache.toList ⊆ source.toList := by
    intro x hx
    exact Std.ExtTreeSet.mem_toList.2 (h x (Std.ExtTreeSet.mem_toList.1 hx))
  have hle : source.toList.length ≤ cache.toList.length := by
    rw [Std.ExtTreeSet.length_toList, Std.ExtTreeSet.length_toList]
    exact Nat.le_of_eq hsize.symm
  have hperm := (List.subperm_of_subset (nodup_toList cache) hsub).perm_of_length_le hle
  refine Std.ExtTreeSet.ext_mem fun x => ?_
  rw [← Std.ExtTreeSet.mem_toList, hperm.mem_iff, Std.ExtTreeSet.mem_toList]

/-- What a cached set shows of its source: what is cached, or all if nothing is. -/
def shown (source cache : MemberSet) : MemberSet :=
  if cache.isEmpty then source else cache

/-- All of the source is shown if nothing or everything is cached, and only then. -/
theorem shown_eq_iff : shown source cache = source ↔ cache = ∅ ∨ cache = source := by
  unfold shown
  split
  · rename_i hempty
    exact ⟨fun _ => .inl (Std.ExtTreeSet.isEmpty_iff.1 hempty), fun _ => rfl⟩
  · rename_i hthere
    exact ⟨.inr, fun h => h.resolve_left fun he => hthere (Std.ExtTreeSet.isEmpty_iff.2 he)⟩

theorem shown_subset (h : ∀ x ∈ cache, x ∈ source) : ∀ x ∈ shown source cache, x ∈ source := by
  unfold shown
  split
  · exact fun _ hx => hx
  · exact h

end Members

/-! ## What a call does -/

/-- What can be asked of a cached set. -/
inductive CachedSetOp where
  | ask (op : SetOp)
  | refresh

namespace CachedSetOp

/-- What an operation answers. -/
@[reducible] def Answer : CachedSetOp → Type
  | .ask op => op.Answer
  | .refresh => Report

/-- Carry out an operation on a cached set. Nobody cancels a refresh. -/
def on (c : CacheSet V) (t : Token) : (op : CachedSetOp) → Action V op.Answer
  | .ask op => op.on c.store t
  | .refresh => c.tier.refresh none

/-- What an operation leaves in the source. -/
def after : CachedSetOp → MemberSet → MemberSet
  | .ask (.add x), source => source.insert x
  | .ask (.remove x), source => source.erase x
  | _, source => source

/-- What an operation leaves in the cache. -/
def cached (source cache : MemberSet) : CachedSetOp → MemberSet
  | .ask (.add x) => cache.insert x
  | .ask (.remove x) => cache.erase x
  | .ask .members => Members.shown source cache
  | .ask (.contains x) => if source.contains x then cache.insert x else cache
  | .ask .count => cache
  | .refresh => source

/-- An answer that is right about a set, of which lengths and listings show a part. -/
def Answers (source shown : MemberSet) : (op : CachedSetOp) → op.Answer → Prop
  | .ask (.add _), _ => True
  | .ask (.remove x), a => a = source.contains x
  | .ask .members, l => l.failure = none ∧ l.items.Perm shown.toList
  | .ask (.contains x), a => a = source.contains x
  | .ask .count, n => n = shown.size
  | .refresh, _ => True

/-- Lengths and listings show the set as a whole. -/
def ShowsAll : CachedSetOp → Prop
  | .ask .members | .ask .count => True
  | _ => False

/-- An answer is right about the source exactly if it shows one member only, or nothing or
everything is cached. -/
theorem answers_iff {source cache : MemberSet} (hsub : ∀ x ∈ cache, x ∈ source) {op : CachedSetOp}
    {a : op.Answer} (h : op.Answers source (Members.shown source cache) a) :
    op.Answers source source a ↔ (op.ShowsAll → cache = ∅ ∨ cache = source) := by
  -- A length and a listing tell whether all is shown.
  have hall : ∀ {P : Prop}, (P → Members.shown source cache = source) →
      (Members.shown source cache = source → P) → (P ↔ (True → cache = ∅ ∨ cache = source)) := by
    intro P hto hfrom
    rw [true_imp_iff, ← Members.shown_eq_iff]
    exact ⟨hto, hfrom⟩
  cases op with
  | refresh => exact iff_of_true h False.elim
  | ask op =>
    cases op with
    | add x => exact iff_of_true trivial False.elim
    | remove x => exact iff_of_true h False.elim
    | contains x => exact iff_of_true h False.elim
    | members =>
      refine hall (fun hsource => ?_) fun hshown => ⟨h.1, ?_⟩
      · refine Std.ExtTreeSet.ext_mem fun x => ?_
        rw [← Std.ExtTreeSet.mem_toList, ← h.2.mem_iff, hsource.2.mem_iff,
          Std.ExtTreeSet.mem_toList]
      · have hperm := h.2
        rwa [hshown] at hperm
    | count =>
      refine hall (fun hsource => ?_) fun hshown => ?_
      · exact Members.eq_of_subset_of_size (Members.shown_subset hsub)
          ((h : a = _).symm.trans hsource)
      · exact (h : a = _).trans (congrArg _ hshown)

/-- What is complete stays complete, and refreshes and listings of nothing complete it. -/
theorem cached_eq_after {source cache : MemberSet} {op : CachedSetOp}
    (h : cache = source ∨ op = .refresh ∨ op = .ask .members ∧ cache = ∅) :
    op.cached source cache = op.after source := by
  rcases h with rfl | rfl | ⟨rfl, hempty⟩
  · cases op with
    | refresh => rfl
    | ask op =>
      cases op with
      | add x => rfl
      | remove x => rfl
      | count => rfl
      | members => exact ite_self cache
      | contains x =>
        change (if cache.contains x then cache.insert x else cache) = cache
        split
        · rename_i hx
          exact Members.insert_of_mem (Std.ExtTreeSet.contains_iff_mem.1 hx)
        · rfl
  · rfl
  · exact if_pos (Std.ExtTreeSet.isEmpty_iff.2 hempty)

/-- What is cached stays a part of the source. -/
theorem cached_subset {source cache : MemberSet} (hsub : ∀ x ∈ cache, x ∈ source)
    (op : CachedSetOp) : ∀ x ∈ op.cached source cache, x ∈ op.after source := by
  intro y hy
  cases op with
  | refresh => exact hy
  | ask op =>
    cases op with
    | add x =>
      refine Members.mem_insert_iff.2 ((Members.mem_insert_iff.1 hy).imp_right (hsub y))
    | remove x =>
      refine Members.mem_erase_iff.2 ((Members.mem_erase_iff.1 hy).imp_right (hsub y))
    | members => exact Members.shown_subset hsub y hy
    | count => exact hsub y hy
    | contains x =>
      change y ∈ (if source.contains x then cache.insert x else cache) at hy
      split at hy
      · rename_i hx
        rcases Members.mem_insert_iff.1 hy with rfl | hy
        · exact Std.ExtTreeSet.contains_iff_mem.1 hx
        · exact hsub y hy
      · exact hsub y hy

end CachedSetOp

namespace CacheSet

/-- The world after every caller of a cached set has been served. -/
def serve (c : CacheSet V) (faults : Faults V) (w : World V) (turns : List (Turn CachedSetOp)) :
    World V :=
  serveAll faults.regime (fun op t => op.on c t) w turns

/-- What a call of a cached set does where nothing fails. -/
structure Does (op : CachedSetOp) (s : Scene MemberSet) (r : Except Halt op.Answer)
    (s' : Scene MemberSet) : Prop where
  answer : ∃ a, r = .ok a ∧ op.Answers (s.contents .primary)
    (Members.shown (s.contents .primary) (s.contents .secondary)) a
  source : s'.contents .primary = op.after (s.contents .primary)
  cache : s'.contents .secondary = op.cached (s.contents .primary) (s.contents .secondary)

section Scenes

variable {z : Hazard MemberSet} (hz : ∀ side, ¬ z.frail side) {s s' : Scene MemberSet}
include hz

/-- A read of the whole set shows what is cached, or finds the cache empty and fills it with what
the source has. -/
theorem shows_of_read {α : Type} [CacheProbe α] {e : Effect MemberSet α}
    {fill : α → Scene MemberSet → Scene MemberSet → Prop} {r : Except Halt α}
    (hhit : ∀ c a, e.answers c a → CacheProbe.isHit a = !c.isEmpty)
    (h : Scene.CacheRead z e fill s r s') :
    let shown := Members.shown (s.contents .primary) (s.contents .secondary)
    ∃ a, r = .ok a ∧ e.answers shown a ∧
      (s'.contents = s.contents ∧ s.contents .secondary = shown ∨
        s.contents .secondary = ∅ ∧ ∃ s₁, s₁.contents = s.contents ∧ fill a s₁ s') := by
  intro shown
  have hempty : Scene.Probed z e s none → s.contents .secondary = ∅ := by
    rintro (_ | ⟨a, answers, miss⟩ | frail)
    · rw [hhit _ _ answers, Bool.not_eq_false'] at miss
      exact Std.ExtTreeSet.isEmpty_iff.1 miss
    · exact absurd frail (hz _)
  have hsource : s.contents .secondary = ∅ → shown = s.contents .primary :=
    fun hnone => Members.shown_eq_iff.2 (.inl hnone)
  cases h with
  | hit a _ probed same =>
    cases probed with
    | hit _ answers hit =>
      rw [hhit _ _ answers, Bool.not_eq_true'] at hit
      have hshown : shown = s.contents .secondary := if_neg (by rw [hit]; exact Bool.false_ne_true)
      exact ⟨a, rfl, by rwa [hshown], .inl ⟨same, hshown.symm⟩⟩
  | failed _ _ _ frail _ => exact absurd frail (hz _)
  | unfilled a _ probed answers miss same =>
    rw [hhit _ _ answers, Bool.not_eq_false', Std.ExtTreeSet.isEmpty_iff] at miss
    have hshown := hsource (hempty probed)
    exact ⟨a, rfl, by rwa [hshown], .inl ⟨same, by rw [hshown, miss, hempty probed]⟩⟩
  | filled a s₁ _ probed answers _ same filled =>
    have hshown := hsource (hempty probed)
    exact ⟨a, rfl, by rwa [hshown], .inr ⟨hempty probed, s₁, same, filled⟩⟩

theorem does_count {r : Except Halt Nat}
    (h : Scene.CacheRead z Members.counting (fun _ s s' => s' = s) s r s') :
    Does (.ask .count) s r s' := by
  have hhit : ∀ (c : MemberSet) (n : Nat), Members.counting.answers c n →
      CacheProbe.isHit n = !c.isEmpty := by
    rintro c _ rfl
    rw [Std.ExtTreeSet.isEmpty_eq_size_beq_zero]
    change decide (0 < c.size) = !(c.size == 0)
    cases c.size <;> rfl
  obtain ⟨n, rfl, answers, ⟨same, -⟩ | ⟨-, s₁, same, rfl⟩⟩ := shows_of_read hz hhit h
  · exact ⟨⟨n, rfl, answers⟩, congrFun same _, congrFun same _⟩
  · exact ⟨⟨n, rfl, answers⟩, congrFun same _, congrFun same _⟩

theorem does_stream {r : Except Halt (List String)}
    (h : Scene.CacheRead z Members.streaming (fun xs s s' =>
      s'.contents .primary = s.contents .primary ∧
        ∀ y, y ∈ s'.contents .secondary ↔ y ∈ s.contents .secondary ∨ y ∈ xs) s r s') :
    Does (.ask .members) s (r.map Listing.full) s' := by
  have hhit : ∀ (c : MemberSet) (xs : List String), Members.streaming.answers c xs →
      CacheProbe.isHit xs = !c.isEmpty := by
    intro c xs hperm
    rw [← Std.ExtTreeSet.isEmpty_toList, ← List.Perm.isEmpty_eq hperm]
    rfl
  obtain ⟨xs, rfl, hperm, ⟨same, hshown⟩ | ⟨hnone, s₁, same, hsource, hcache⟩⟩ :=
    shows_of_read hz hhit h
  · exact ⟨⟨_, rfl, rfl, hperm⟩, congrFun same _, (congrFun same _).trans hshown⟩
  · refine ⟨⟨_, rfl, rfl, hperm⟩, hsource.trans (congrFun same _), ?_⟩
    refine Std.ExtTreeSet.ext_mem fun y => ?_
    have hy := hcache y
    rw [same, hnone, hperm.mem_iff, Std.ExtTreeSet.mem_toList] at hy
    exact hy.trans (or_iff_right Std.ExtTreeSet.not_mem_empty)

theorem does_contains {x : String} {r : Except Halt Bool}
    (hsub : ∀ x ∈ s.contents .secondary, x ∈ s.contents .primary)
    (h : Scene.CacheRead z (Members.finding x) (fun _ s s' =>
      s'.contents = (s.put .secondary ((s.contents .secondary).insert x)).contents) s r s') :
    Does (.ask (.contains x)) s r s' := by
  cases h with
  | hit a _ probed same =>
    cases probed with
    | hit _ answers hit =>
      have hcached : (s.contents .secondary).contains x = true := (answers : a = _).symm.trans hit
      have hmem := Std.ExtTreeSet.contains_iff_mem.1 hcached
      have hthere := Std.ExtTreeSet.contains_iff_mem.2 (hsub x hmem)
      refine ⟨⟨a, rfl, (hit : a = true).trans hthere.symm⟩, congrFun same _, ?_⟩
      exact (congrFun same _).trans
        ((if_pos hthere).trans (Members.insert_of_mem hmem)).symm
  | failed _ _ _ frail _ => exact absurd frail (hz _)
  | unfilled a _ _ answers miss same =>
    have hnot : (s.contents .primary).contains x = false := (answers : a = _).symm.trans miss
    refine ⟨⟨a, rfl, answers⟩, congrFun same _, (congrFun same _).trans (if_neg ?_).symm⟩
    rw [hnot]
    exact Bool.false_ne_true
  | filled a s₁ _ _ answers hit same filled =>
    have hthere : (s.contents .primary).contains x = true := (answers : a = _).symm.trans hit
    refine ⟨⟨a, rfl, answers⟩, ?_, ?_⟩
    · rw [filled, Scene.primary_put_secondary, same]
      rfl
    · rw [filled, Scene.contents_put_self, same]
      exact (if_pos hthere).symm

/-- A write of the source is followed by the same write of the cache. -/
theorem does_write {α : Type} {e : Effect MemberSet α} {r : Except Halt α}
    {js : List (Span (Scene MemberSet))}
    {refreshes : Scene MemberSet → Except Halt Report → Scene MemberSet → Prop}
    (h : Scene.CacheWrite z e (fun _ => False) (fun _ s r s' => r = .ok true ∧
      s'.contents = (s.put .secondary (e.after (s.contents .secondary))).contents)
      refreshes s r js s') :
    (∃ a, r = .ok a ∧ e.answers (s.contents .primary) a) ∧
      s'.contents .primary = e.after (s.contents .primary) ∧
      s'.contents .secondary = e.after (s.contents .secondary) := by
  cases h with
  | failed _ _ first =>
    cases first with
    | failed _ frail _ => exact absurd frail (hz _)
  | left _ _ _ hleft => exact hleft.elim
  | refreshed _ _ _ _ _ _ _ change missed _ => exact absurd change.1 missed
  | updated a s₁ _ first change =>
    cases first with
    | done _ answers eq =>
      refine ⟨⟨a, rfl, answers⟩, ?_, ?_⟩
      · rw [change.2, Scene.primary_put_secondary, eq, Scene.contents_put_self]
      · rw [change.2, Scene.contents_put_self, eq, Scene.secondary_put_primary]

end Scenes

end CacheSet

/-! ## In the world -/

/-- The cached set over two base sets, of which the primary one is the source. -/
def SetPair.cachedSet (V : Type) (p : SetPair) (name : String) (limit : Nat) : CacheSet V :=
  CacheSet.make name (p.base V .primary) (p.base V .secondary) limit

namespace SetPair

variable {p : SetPair} {faults : Faults V} {w : World V} {name : String} {limit : Nat}

/-- What the base sets carry out, the stores of the tier carry out. -/
theorem carries_tier {α : Type} (op : SetStore V → Action V α) {eff : Effect MemberSet α}
    (h : (p.view V).Carries faults.regime (p.hazard faults) (fun side => op (p.base V side)) eff) :
    (p.view V).Carries faults.regime (p.hazard faults)
      (fun side => op ((p.cachedSet V name limit).tier.storeOn side)) eff := by
  intro side
  cases side
  · exact h .primary
  · exact h .secondary

section Calls

variable (hspared : ∀ side, faults.Spares (.set (p.index side)))
include hspared

theorem not_frail (side : Side) : ¬ (p.hazard faults).frail side :=
  fun hfrail => hfrail (hspared side)

/-- Where nothing fails, an operation of either set is carried out. -/
theorem wp_done {α : Type} {op : Side → Action V α} {eff : Effect MemberSet α}
    (h : (p.view V).Carries faults.regime (p.hazard faults) op eff) (side : Side) :
    (op side).wp faults.regime (fun r w' => (∃ a, r = .ok a) ∧ (p.view V).scene w' =
      ((p.view V).scene w).put side (eff.after (((p.view V).scene w).contents side))) w := by
  refine Action.wp_mono (h side w trivial) ?_
  rintro r w' ⟨-, htried⟩
  exact htried.done_of_not_frail (not_frail hspared side)

/-- The members that the source has listed are added to the cache. -/
theorem wp_addAll (t : Token) (xs : List String) :
    (CacheSet.addAll (p.base V .secondary) t xs).wp faults.regime (fun r w' => r = .ok () ∧
      ((p.view V).scene w').contents .primary = ((p.view V).scene w).contents .primary ∧
        ∀ y, y ∈ ((p.view V).scene w').contents .secondary ↔
          y ∈ ((p.view V).scene w).contents .secondary ∨ y ∈ xs) w := by
  induction xs generalizing w with
  | nil => exact ⟨rfl, rfl, fun y => (or_iff_left List.not_mem_nil).symm⟩
  | cons x xs ih =>
    unfold CacheSet.addAll
    rw [Action.wp_bind]
    refine Action.wp_mono (wp_done hspared (carries_add x t) .secondary) ?_
    rintro _ w₁ ⟨⟨_, rfl⟩, hadded⟩
    rw [Action.andThen_ok]
    refine Action.wp_mono ih ?_
    rintro r w₂ ⟨rfl, hsource, hcache⟩
    rw [hadded] at hsource hcache
    refine ⟨rfl, hsource, fun y => ?_⟩
    rw [hcache y, Scene.contents_put_self, List.mem_cons]
    change y ∈ Std.ExtTreeSet.insert _ x ∨ _ ↔ _
    rw [Members.mem_insert_iff]
    grind

/-- A write of the cached set has its effect on the source and on the cache. -/
theorem wp_write {α : Type} (op : SetStore V → Action V α) {eff : Effect MemberSet α}
    (hop : (p.view V).Carries faults.regime (p.hazard faults) (fun side => op (p.base V side)) eff)
    (change : SetStore V → Action V Bool)
    (hchange : ∀ w, (change (p.base V .secondary)).wp faults.regime (fun r w' => r = .ok true ∧
      ((p.view V).scene w').contents = (((p.view V).scene w).put .secondary
        (eff.after (((p.view V).scene w).contents .secondary))).contents) w) :
    ((p.cachedSet V name limit).tier.write op fun cache _ => some (change cache)).wp faults.regime
      (fun r w' => (∃ a, r = .ok a ∧ eff.answers (((p.view V).scene w).contents .primary) a) ∧
        ((p.view V).scene w').contents .primary =
          eff.after (((p.view V).scene w).contents .primary) ∧
        ((p.view V).scene w').contents .secondary =
          eff.after (((p.view V).scene w).contents .secondary)) w := by
  rw [← CacheTier.erase_markedWrite, MarkedAction.wp_erase]
  refine MarkedAction.wp_mono (CacheTier.wp_markedWrite (fun _ => False)
    (fun _ s r s' => r = .ok true ∧
      s'.contents = (s.put .secondary (eff.after (s.contents .secondary))).contents)
    (fun s r s' => Scene.Converged (p.hazard faults) .primary .secondary s s' r)
    (carries_tier op hop) (fun _ hnone => nomatch hnone) ?_ ?_ trivial) ?_
  · rintro _ _ w₁ ⟨⟩ -
    refine Action.wp_mono (hchange w₁) ?_
    rintro r w₂ ⟨rfl, hchanged⟩
    exact ⟨trivial, ⟨.ok true, rfl⟩, rfl, hchanged⟩
  · intro w₁ hw₁
    refine Action.wp_mono (converges_overwrite faults limit .primary .secondary (by decide) w₁ hw₁)
      ?_
    rintro r w₂ ⟨hw₂, hconverged⟩
    exact ⟨hw₂, hconverged.uncut, hconverged⟩
  · rintro r js w₁ ⟨-, -, hwrite⟩
    exact CacheSet.does_write (not_frail hspared) hwrite

/-- A refresh makes the cache hold what the source has. -/
theorem wp_refresh (t : Token) :
    (CachedSetOp.refresh.on (p.cachedSet V name limit) t).wp faults.regime (fun r w' =>
      CacheSet.Does .refresh ((p.view V).scene w) r ((p.view V).scene w')) w := by
  refine Action.wp_mono (converges_overwrite faults limit .primary .secondary (by decide) w
    trivial) ?_
  rintro r w' ⟨-, hconverged⟩
  cases hconverged with
  | done report _ h eq =>
    subst h
    refine ⟨⟨report, rfl, trivial⟩, ?_, ?_⟩
    · rw [eq, Scene.primary_put_secondary]
      rfl
    · rw [eq, Scene.contents_put_self]
      rfl
  | failed _ _ _ _ frail _ => exact absurd frail (not_frail hspared _)

/-- The members are listed by the cache, or by the source and then cached. -/
theorem wp_members (t : Token) :
    ((CachedSetOp.ask .members).on (p.cachedSet V name limit) t).wp faults.regime (fun r w' =>
      CacheSet.Does (.ask .members) ((p.view V).scene w) r ((p.view V).scene w')) w := by
  change Action.wp _ (CacheTier.read _ _ _ >>= _) _ w
  rw [Action.wp_bind]
  refine Action.wp_mono (CacheTier.wp_read (v := p.view V)
    (carries_tier (fun s => s.collect t) (carries_stream t)) (fun _ => rfl) trivial
    (fun xs s s' => s'.contents .primary = s.contents .primary ∧
      ∀ y, y ∈ s'.contents .secondary ↔ y ∈ s.contents .secondary ∨ y ∈ xs) ?_) ?_
  · intro xs w₁ _ _
    refine Action.wp_mono (wp_addAll hspared t xs) ?_
    rintro r w₂ ⟨rfl, hfilled⟩
    exact ⟨trivial, ⟨.ok (), rfl⟩, hfilled⟩
  · rintro r w₁ ⟨-, -, hread⟩
    have hdoes := CacheSet.does_stream (not_frail hspared) hread
    cases r with
    | ok xs => exact hdoes
    | error halt => exact hdoes

/-- A member that is sought is found in the cache, or in the source and then cached. -/
theorem wp_contains (hsub : ∀ x ∈ ((p.view V).scene w).contents .secondary,
    x ∈ ((p.view V).scene w).contents .primary) (x : String) (t : Token) :
    ((CachedSetOp.ask (.contains x)).on (p.cachedSet V name limit) t).wp faults.regime
      (fun r w' => CacheSet.Does (.ask (.contains x)) ((p.view V).scene w) r
        ((p.view V).scene w')) w := by
  change ((p.cachedSet V name limit).tier.read (fun s => s.contains x t)
    fun cache _ => cache.add x t).wp _ _ w
  refine Action.wp_mono (CacheTier.wp_read (v := p.view V)
    (carries_tier (fun s => s.contains x t) (carries_contains x t)) (fun _ => rfl) trivial
    (fun _ s s' =>
      s'.contents = (s.put .secondary ((s.contents .secondary).insert x)).contents) ?_) ?_
  · intro _ w₁ _ _
    refine Action.wp_mono (wp_done hspared (carries_add x t) .secondary) ?_
    rintro _ w₂ ⟨⟨_, rfl⟩, hadded⟩
    exact ⟨trivial, ⟨.ok (), rfl⟩, congrArg Scene.contents hadded⟩
  · rintro r w₁ ⟨-, -, hread⟩
    exact CacheSet.does_contains (not_frail hspared) hsub hread

/-- **What a call of a cached set does** where nothing fails. -/
theorem wp_on (name : String) (limit : Nat) (hsub : ∀ x ∈ ((p.view V).scene w).contents .secondary,
    x ∈ ((p.view V).scene w).contents .primary) (op : CachedSetOp) (t : Token) :
    (op.on (p.cachedSet V name limit) t).wp faults.regime (fun r w' =>
      CacheSet.Does op ((p.view V).scene w) r ((p.view V).scene w')) w := by
  cases op with
  | refresh => exact wp_refresh hspared t
  | ask op =>
    cases op with
    | add x =>
      refine Action.wp_mono (wp_write hspared (fun s => s.add x t) (carries_add x t)
        (fun cache => do cache.add x t; return true) fun w₁ => ?_) ?_
      · rw [Action.wp_bind]
        refine Action.wp_mono (wp_done hspared (carries_add x t) .secondary) ?_
        rintro _ w₂ ⟨⟨_, rfl⟩, hadded⟩
        exact ⟨rfl, congrArg Scene.contents hadded⟩
      · rintro r w' ⟨⟨_, rfl, _⟩, hsource, hcache⟩
        exact ⟨⟨(), rfl, trivial⟩, hsource, hcache⟩
    | remove x =>
      refine Action.wp_mono (wp_write hspared (fun s => s.remove x t) (carries_remove x t)
        (fun cache => do let _ ← cache.remove x t; return true) fun w₁ => ?_) ?_
      · rw [Action.wp_bind]
        refine Action.wp_mono (wp_done hspared (carries_remove x t) .secondary) ?_
        rintro _ w₂ ⟨⟨_, rfl⟩, hremoved⟩
        exact ⟨rfl, congrArg Scene.contents hremoved⟩
      · rintro r w' ⟨⟨a, rfl, answers⟩, hsource, hcache⟩
        exact ⟨⟨a, rfl, answers⟩, hsource, hcache⟩
    | members => exact wp_members hspared t
    | contains x => exact wp_contains hspared hsub x t
    | count =>
      change ((p.cachedSet V name limit).tier.readThrough fun s => s.count t).wp _ _ w
      refine Action.wp_mono (CacheTier.wp_readThrough (v := p.view V)
        (carries_tier (fun s => s.count t) (carries_count t)) (fun _ => rfl) trivial) ?_
      rintro r w₁ ⟨-, -, hread⟩
      exact CacheSet.does_count (not_frail hspared) hread

/-! ## Runs of turns -/

/-- Call after call, what is cached is a part of the source, and once that is all, it stays so. -/
theorem serve_cachedSet (name : String) (limit : Nat)
    (hsub : ∀ x ∈ ((p.view V).scene w).contents .secondary,
      x ∈ ((p.view V).scene w).contents .primary) (turns : List (Turn CachedSetOp)) :
    let after := (p.view V).scene ((p.cachedSet V name limit).serve faults w turns)
    (∀ x ∈ after.contents .secondary, x ∈ after.contents .primary) ∧
      (((p.view V).scene w).contents .secondary = ((p.view V).scene w).contents .primary →
        after.contents .secondary = after.contents .primary) := by
  induction turns generalizing w with
  | nil => exact ⟨hsub, id⟩
  | cons turn rest ih =>
    -- The sets do not tell the time.
    have hdoes : CacheSet.Does turn.op ((p.view V).scene w)
        (faults.regime.act (w.atTime turn.time)
          (turn.op.on (p.cachedSet V name limit) turn.token)).1
        ((p.view V).scene (faults.regime.act (w.atTime turn.time)
          (turn.op.on (p.cachedSet V name limit) turn.token)).2) :=
      wp_on (w := w.atTime turn.time) hspared name limit hsub turn.op turn.token
    obtain ⟨hsub', hstays⟩ := ih (by
      rw [hdoes.cache, hdoes.source]
      exact CachedSetOp.cached_subset hsub turn.op)
    refine ⟨hsub', fun hall => hstays ?_⟩
    rw [hdoes.cache, hdoes.source]
    exact CachedSetOp.cached_eq_after (.inl hall)

end Calls

end SetPair

/-- Everything is cached that the source has. -/
def World.CachesAll (w : World V) (source cache : Nat) : Prop :=
  (w.sets.nth cache).content = (w.sets.nth source).content

/-- **What a cached set answers** where nothing fails and its cache begins empty: an answer about
one member is the source's; a length or a listing is that of what is shown, which is the source's
exactly if nothing or everything is cached. Everything is cached after a refresh, and after a
listing that found nothing cached, and once that is so it stays so. -/
theorem cached_set_answers {source cache : Nat} (ne : source ≠ cache) (name : String) (limit : Nat)
    (faults : Faults V) (hsource : faults.Spares (.set source))
    (hcache : faults.Spares (.set cache)) (w : World V) (hempty : (w.sets.nth cache).content = ∅)
    (turns : List (Turn CachedSetOp)) (last : Turn CachedSetOp) :
    let c := CacheSet.make name (Backend.set source) (Backend.set cache) limit
    let before := c.serve faults w turns
    let members := (before.sets.nth source).content
    let cached := (before.sets.nth cache).content
    let out := faults.regime.act (before.atTime last.time) (last.op.on c last.token)
    (∀ x ∈ cached, x ∈ members) ∧
    (∃ a, out.1 = .ok a ∧ last.op.Answers members (Members.shown members cached) a ∧
      (last.op.Answers members members a ↔
        (last.op.ShowsAll → cached = ∅ ∨ cached = members))) ∧
    (last.op = .refresh ∨ last.op = .ask .members ∧ cached = ∅ →
      out.2.CachesAll source cache) ∧
    ∀ earlier later, turns = earlier ++ later →
      (c.serve faults w earlier).CachesAll source cache → before.CachesAll source cache := by
  intro c before members cached out
  let p : SetPair := { core := 0, primary := source, secondary := cache, ne }
  have hspared : ∀ side, faults.Spares (.set (p.index side)) := by
    rintro (_ | _)
    · exact hsource
    · exact hcache
  have hstart : ∀ x ∈ ((p.view V).scene w).contents .secondary,
      x ∈ ((p.view V).scene w).contents .primary := by
    intro x hx
    change x ∈ (w.sets.nth cache).content at hx
    rw [hempty] at hx
    exact absurd hx Std.ExtTreeSet.not_mem_empty
  have hsub : ∀ x ∈ cached, x ∈ members :=
    (SetPair.serve_cachedSet hspared name limit hstart turns).1
  have hdoes : CacheSet.Does last.op ((p.view V).scene before) out.1 ((p.view V).scene out.2) :=
    SetPair.wp_on (w := before.atTime last.time) hspared name limit hsub last.op last.token
  obtain ⟨a, ha, answers⟩ := hdoes.answer
  refine ⟨hsub, ⟨a, ha, answers, CachedSetOp.answers_iff hsub answers⟩, fun hall => ?_, ?_⟩
  · have hcached := hdoes.cache.trans (CachedSetOp.cached_eq_after (.inr hall))
    exact hcached.trans hdoes.source.symm
  · rintro earlier later rfl hall
    have hthen := (SetPair.serve_cachedSet hspared name limit hstart earlier).1
    have hafter := (SetPair.serve_cachedSet hspared name limit hthen later).2 hall
    have happend : before = c.serve faults (c.serve faults w earlier) later :=
      serveAll_append _ w earlier later
    rw [happend]
    exact hafter

/-- A set with some members, and an empty one. -/
def World.unwarmed (V : Type) (members : List String) : World V :=
  { sets := (∅ : Shelf (Base MemberSet)).put 0 { content := Std.ExtTreeSet.ofList members } }

/-- One member is looked for, all are cached by a refresh, and from then on all are counted. -/
theorem cached_set_answers_after_refresh :
    let c : CacheSet Nat := CacheSet.make "cache" (Backend.set 0) (Backend.set 1) 1000
    let w := World.unwarmed Nat ["1", "2", "3"]
    let turns : List (Turn CachedSetOp) :=
      [{ op := .ask (.contains "2") }, { op := .refresh }, { op := .ask (.remove "1") }]
    let before := c.serve (Faults.hitting []) w turns
    (before.sets.nth 0).content.size = 2 ∧
      ((Faults.hitting []).regime.act (before.atTime 5) (c.store.count none)).1 =
        .ok (before.sets.nth 0).content.size := by
  intro c w turns before
  have hspared : ∀ site, (Faults.hitting [] : Faults Nat).Spares site := Faults.spares_hitting_nil
  have hrefreshed := (cached_set_answers (by decide : 0 ≠ 1) "cache" 1000 _ (hspared _) (hspared _)
    w rfl (turns.take 1) { op := .refresh }).2.2.1 (.inl rfl)
  obtain ⟨-, ⟨n, hn, -, hexact⟩, -, hstays⟩ := cached_set_answers (by decide : 0 ≠ 1) "cache" 1000
    _ (hspared _) (hspared _) w rfl turns { op := .ask .count, time := 5 }
  have hall : before.CachesAll 0 1 := hstays (turns.take 2) (turns.drop 2) rfl hrefreshed
  exact ⟨by decide +kernel, hn.trans (congrArg Except.ok (hexact.2 fun _ => .inr hall))⟩

/-- Once one member has been looked for and found, the others are not counted. -/
theorem warmed_member_hides_others :
    let c : CacheSet Nat := CacheSet.make "cache" (Backend.set 0) (Backend.set 1) 1000
    let w := World.unwarmed Nat ["1", "2", "3"]
    let before := c.serve (Faults.hitting []) w [{ op := .ask (.contains "2") }]
    (w.sets.nth 1).content = ∅ ∧ (before.sets.nth 0).content.size = 3 ∧
      ((Faults.hitting []).regime.act before (c.store.count none)).1 = .ok 1 := by
  intro c w before
  exact ⟨rfl, by decide +kernel, rfl⟩

end TwinStore
