import TwinStore.Cache.OnDemand
import TwinStore.Proofs.OnDemandSets
import TwinStore.Proofs.Overwrites

/-!
# Fillings that break off

An `OnDemandSet` fills its cache by adding the members of the source one after the other, and the
first that cannot be added ends that (`OnDemandSet.addUntilError`). The caller gets all of the
source none the less. But what had been added stays in the cache, where from then on it is taken for
all that there is: `broken_filling_stays` says what is cached after a read whose additions to the
cache fail in any pattern, and that the reads to come answer as the source does only if the first
addition had failed or none had.
-/

namespace TwinStore

variable {V α : Type}

/-! ## Calls to a nook -/

/-- The call that an operation on the set in a nook makes. -/
def Nook.call (V : Type) : Nook → SetOp → Call V
  | alone i, op => .set i op
  | under i k, op => .setMap i (.member k op)

/-- A call that does not fail does to what the nook holds what the operation does to a set, and to
other nooks nothing. -/
theorem Nook.wp_on {faults : Faults V} {w : World V} {op : SetOp} {t : Token} (a : Nook)
    {post : Except Halt op.Answer → World V → Prop}
    (hspared : faults w.visits.length (a.call V op) = none)
    (hpost : ∀ w' : World V, w'.visits.length = w.visits.length + 1 →
      w'.arrangement = w.arrangement →
      (∀ b, w'.membersAt b =
        if a = b then (op.apply w.arrangement (w.membersAt a)).2 else w.membersAt b) →
      post (.ok (op.apply w.arrangement (w.membersAt a)).1) w') :
    (a.on op t).wp faults.regime post w := by
  cases a with
  | alone i =>
    refine Action.wp_call_cases (c := .set i op) (fun v _ _ => ?_) (fun _ _ _ h => ?_)
      fun _ _ _ _ _ h => ?_
    · exact hpost _ (List.length_append ..) rfl (World.membersAt_perform_alone i op)
    · exact absurd (hspared.symm.trans h) (Option.some_ne_none _).symm
    · exact absurd (hspared.symm.trans h) (Option.some_ne_none _).symm
  | under i k =>
    refine Action.wp_call_cases (c := .setMap i (.member k op)) (fun v _ _ => ?_)
      (fun _ _ _ h => ?_) fun _ _ _ _ _ h => ?_
    · change post (.ok (op.applyUnder w.arrangement w.clock k (w.setMaps.nth i).content).1) _
      rw [MemberMap.applyUnder_fst]
      exact hpost _ (List.length_append ..) rfl (World.membersAt_perform_under i k op)
    · exact absurd (hspared.symm.trans h) (Option.some_ne_none _).symm
    · exact absurd (hspared.symm.trans h) (Option.some_ne_none _).symm

/-- An addition that fails changes no nook. -/
theorem Nook.wp_add_failing {faults : Faults V} {w : World V} {f : Failure} {x : String} {t : Token}
    (a : Nook) {post : Except Halt Unit → World V → Prop}
    (hfails : faults w.visits.length (a.call V (.add x)) = some f)
    (hpost : ∀ v, post (.error (.failed f.cause)) (w.visit v)) :
    (a.on (.add x) t).wp faults.regime post w := by
  have hfailed : ∀ f', faults w.visits.length (a.call V (.add x)) = some f' → f' = f :=
    fun _ h => Option.some.inj (h.symm.trans hfails)
  cases a with
  | alone i =>
    refine Action.wp_call_cases (c := .set i (.add x)) (fun _ _ h => ?_) (fun v f' _ h => ?_)
      fun _ _ _ _ _ _ h => absurd h (Option.some_ne_none _).symm
    · exact absurd (hfails.symm.trans h) (Option.some_ne_none _)
    · rw [hfailed f' h]
      exact hpost v
  | under i k =>
    refine Action.wp_call_cases (c := .setMap i (.member k (.add x))) (fun _ _ h => ?_)
      (fun v f' _ h => ?_) fun _ _ _ _ _ _ h => absurd h (Option.some_ne_none _).symm
    · exact absurd (hfails.symm.trans h) (Option.some_ne_none _)
    · rw [hfailed f' h]
      exact hpost v

/-- A time to live leaves what a nook holds as it is, unless no time is left. -/
theorem World.membersAt_perform_expire (w : World V) (i : Nat) (k : Key) (ttl : Nat) (b : Nook) :
    (w.perform (.setMap i (.expire k ttl))).2.membersAt b =
      if .under i k = b ∧ ttl = 0 then ∅ else w.membersAt b := by
  cases b with
  | alone j => simp [membersAt, perform]
  | under j k' =>
    by_cases hij : i = j
    · subst hij
      simp [membersAt, perform, SetMapOp.apply, MemberMap.liveMembers_expireAt]
    · simp [membersAt, perform, hij, Shelf.nth_put_of_ne _ _ hij]

/-! ## One set cached in another -/

/-- An operation reads all members, or counts them. -/
def SetOp.ReadsAll : SetOp → Prop
  | .members | .count => True
  | _ => False

theorem Nook.store_count (a : Nook) (t : Token) : (a.store V).count t = a.on .count t := by
  cases a <;> rfl

/-- A base set, and the one that it is cached in on demand. Only a cached set that is under a key
has a time to live. -/
structure Filling where
  name : String
  source : Nook
  cache : Nook
  ne : source ≠ cache
  ttl : Option Nat

/-- What puts the expiry of the set in a nook off. -/
def Nook.slide (V : Type) (ttl : Nat) : Nook → Option (Token → Action V Bool)
  | alone _ => none
  | under i k => some fun t => (Backend.setMap i).touch k ttl t

namespace Filling

/-- The cached set. -/
def set (V : Type) (p : Filling) : OnDemandSet V where
  name := p.name
  source := p.source.store V
  cache := p.cache.store V
  slide := p.ttl.bind (Nook.slide V · p.cache)

/-- The members that are added to the cache, one after the other from the given call on, until one
cannot be. -/
def through (p : Filling) (faults : Faults V) : Nat → List String → List String
  | _, [] => []
  | n, x :: xs =>
    if (faults n (p.cache.call V (.add x))).isSome then []
    else x :: p.through faults (n + 1) xs

theorem through_prefix (p : Filling) (faults : Faults V) (n : Nat) (xs : List String) :
    p.through faults n xs <+: xs := by
  induction xs generalizing n with
  | nil => exact List.prefix_refl _
  | cons x xs ih =>
    unfold through
    split
    · exact List.nil_prefix
    · exact (List.prefix_cons_inj x).2 (ih (n + 1))

/-- A number of calls have been made so far, the source holds `S`, and `T` is cached. -/
structure At (p : Filling) (order : Arrangement) (S : MemberSet) (n : Nat) (T : MemberSet)
    (w : World V) : Prop where
  calls : w.visits.length = n
  order : w.arrangement = order
  source : w.membersAt p.source = S
  cache : w.membersAt p.cache = T

/-- No call fails but those that add to the cache. -/
def FailsAdding (p : Filling) (faults : Faults V) : Prop :=
  ∀ n c, (faults n c).isSome → ∃ x, c = p.cache.call V (.add x)

variable {p : Filling} {faults : Faults V} {order : Arrangement} {S T : MemberSet} {n : Nat}
  {w : World V} {t : Token}

theorem At.count (hw : p.At order S n T w) (m : Measure) (k : Nat) :
    p.At order S n T (w.count m k) :=
  ⟨hw.calls, hw.order, hw.source, hw.cache⟩

section Calls

variable (hfails : p.FailsAdding faults)
include hfails

theorem FailsAdding.spares {a : Nook} {op : SetOp} (hop : ∀ x, op ≠ .add x) (n : Nat) :
    faults n (a.call V op) = none := by
  by_contra h
  obtain ⟨x, hx⟩ := hfails n _ (Option.ne_none_iff_isSome.1 h)
  cases a <;> cases hc : p.cache <;> simp [Nook.call, hc] at hx
  · exact hop x hx.2
  · exact hop x hx.2.2

theorem FailsAdding.spares_expire (i : Nat) (k : Key) (ttl : Nat) (n : Nat) :
    faults n (.setMap i (.expire k ttl)) = none := by
  by_contra h
  obtain ⟨x, hx⟩ := hfails n _ (Option.ne_none_iff_isSome.1 h)
  cases hc : p.cache <;> simp [Nook.call, hc] at hx

/-- An operation on the cached set, but adding to it, changes nothing but what it does to a set. -/
theorem wp_onCache {op : SetOp} {post : Except Halt op.Answer → World V → Prop}
    (hop : ∀ x, op ≠ .add x) (hw : p.At order S n T w)
    (hpost : ∀ w', p.At order S (n + 1) (op.apply order T).2 w' →
      post (.ok (op.apply order T).1) w') :
    (p.cache.on op t).wp faults.regime post w := by
  obtain ⟨hcalls, rfl, hS, rfl⟩ := hw
  refine p.cache.wp_on (hfails.spares hop _) fun w' hcalls' horder hholds =>
    hpost w' ⟨?_, horder, ?_, ?_⟩
  · rw [hcalls', hcalls]
  · rw [hholds, if_neg p.ne.symm, hS]
  · rw [hholds, if_pos rfl]

/-- Listing the cache gives the cached members, and changes none. -/
theorem wp_collectCache {post : Except Halt (List String) → World V → Prop}
    (hw : p.At order S n T w)
    (hpost : ∀ w', p.At order S (n + 1) T w' → post (.ok (order.members T.toList)) w') :
    ((p.cache.store V).collect t).wp faults.regime post w := by
  unfold SetStore.collect
  rw [Action.wp_bind, p.cache.store_members]
  exact wp_onCache hfails (by nofun) hw hpost

theorem wp_collectSource {post : Except Halt (List String) → World V → Prop}
    (hw : p.At order S n T w)
    (hpost : ∀ w', p.At order S (n + 1) T w' → post (.ok (order.members S.toList)) w') :
    ((p.source.store V).collect t).wp faults.regime post w := by
  unfold SetStore.collect
  rw [Action.wp_bind, p.source.store_members]
  obtain ⟨hcalls, rfl, rfl, hT⟩ := hw
  refine p.source.wp_on (hfails.spares (by nofun) _) fun w' hcalls' horder hholds =>
    hpost w' ⟨?_, horder, ?_, ?_⟩
  · rw [hcalls', hcalls]
  · rw [hholds, if_pos rfl]
    rfl
  · rw [hholds, if_neg p.ne, hT]

/-- To put the expiry off leaves the cached members, or none if no time is left. -/
theorem wp_slide {post : Except Halt Unit → World V → Prop} (hw : p.At order S n T w)
    (hpost : ∀ n' T' w', (T' = T ∨ p.ttl = some 0 ∧ T' = ∅) → p.At order S n' T' w' →
      post (.ok ()) w') :
    ((p.set V).touch t).wp faults.regime post w := by
  unfold OnDemandSet.touch set
  cases httl : p.ttl with
  | none => exact hpost _ _ _ (.inl rfl) hw
  | some ttl =>
    cases hc : p.cache with
    | alone i => exact hpost _ _ _ (.inl rfl) hw
    | under i k =>
      change Action.wp _ ((Backend.setMap i).touch k ttl t >>= fun _ => pure ()) _ w
      unfold KeyedStore.touch
      rw [bind_assoc, Action.wp_bind]
      change Action.wp _ ((if (w.grants (.setMap i)).expiry then _ else _) >>= _) _ w
      split
      · rw [Action.wp_bind]
        have hspared := hfails.spares_expire i k ttl w.visits.length
        refine Action.wp_call_cases (c := .setMap i (.expire k ttl)) (fun v _ _ => ?_)
          (fun _ _ _ h => ?_) fun _ _ _ _ _ h => ?_
        · have hafter := (w.visit v).membersAt_perform_expire i k ttl
          have hat : p.At order S (n + 1) (if ttl = 0 then ∅ else T)
              ((w.visit v).perform (.setMap i (.expire k ttl))).2 := by
            refine ⟨?_, hw.order, ?_, ?_⟩
            · rw [← hw.calls]
              exact List.length_append ..
            · rw [hafter, if_neg fun h => p.ne (h.1.symm.trans hc.symm)]
              exact hw.source
            · rw [hafter, hc, ← hw.cache, hc]
              simp only [true_and]
              rfl
          refine hpost _ _ _ ?_ hat
          split
          · exact .inr ⟨httl.trans (congrArg some ‹ttl = 0›), rfl⟩
          · exact .inl rfl
        · exact absurd (hspared.symm.trans h) (Option.some_ne_none _).symm
        · exact absurd (hspared.symm.trans h) (Option.some_ne_none _).symm
      · exact hpost _ _ _ (.inl rfl) hw

omit hfails in
/-- The members that go through are added. -/
theorem wp_addUntilError {post : Except Halt Nat → World V → Prop} (xs : List String) (seeded : Nat)
    (hw : p.At order S n T w)
    (hpost : ∀ n' w', p.At order S n' ((p.through faults n xs).foldl (fun c x => c.insert x) T) w' →
      post (.ok (seeded + (p.through faults n xs).length)) w') :
    ((p.set V).addUntilError t xs seeded).wp faults.regime post w := by
  induction xs generalizing n T w seeded with
  | nil => exact hpost n w hw
  | cons x xs ih =>
    unfold OnDemandSet.addUntilError
    rw [Action.wp_bind, Action.wp_attempt]
    change Action.wp _ ((p.cache.store V).add x t) _ w
    rw [p.cache.store_add]
    unfold through at hpost
    cases hx : faults n (p.cache.call V (.add x)) with
    | some f =>
      rw [hx, Option.isSome_some, if_pos rfl] at hpost
      refine p.cache.wp_add_failing (hw.calls.symm ▸ hx) fun v => ?_
      have hat : p.At order S (n + 1) T (w.visit v) := by
        refine ⟨?_, hw.order, hw.source, hw.cache⟩
        rw [← hw.calls]
        exact List.length_append ..
      exact hpost (n + 1) _ (hat.count _ _)
    | none =>
      rw [hx, Option.isSome_none, if_neg Bool.false_ne_true] at hpost
      refine p.cache.wp_on (hw.calls.symm ▸ hx) fun w' hcalls horder hholds => ?_
      refine ih (n := n + 1) (T := T.insert x) (seeded + 1) ⟨?_, horder.trans hw.order, ?_, ?_⟩
        fun n' w'' hw'' => ?_
      · rw [hcalls, hw.calls]
      · rw [hholds, if_neg p.ne.symm, hw.source]
      · rw [hholds, if_pos rfl, hw.cache]
        rfl
      · rw [Nat.add_right_comm]
        exact hpost n' w'' hw''

/-- A cached set without members is filled as far as members go through. -/
theorem wp_seed {post : Except Halt (List String) → World V → Prop} (hw : p.At order S n ∅ w)
    (hpost : ∀ n' T' w', (T' = Std.ExtTreeSet.ofList
        (p.through faults (n + 1) (order.members S.toList)) ∨ p.ttl = some 0 ∧ T' = ∅) →
      p.At order S n' T' w' → post (.ok (order.members S.toList)) w') :
    ((p.set V).seed t).wp faults.regime post w := by
  unfold OnDemandSet.seed
  rw [Action.wp_bind]
  refine wp_collectSource hfails hw fun w₁ hw₁ => ?_
  rw [Action.andThen_ok]
  generalize order.members S.toList = xs at hpost ⊢
  by_cases hnone : xs.isEmpty = true
  · rw [List.isEmpty_iff.1 hnone] at hpost ⊢
    exact hpost _ _ _ (.inl rfl) hw₁
  · simp only [eq_false_of_ne_true hnone, Bool.not_false, if_true]
    rw [Action.wp_bind]
    refine wp_addUntilError xs 0 hw₁ fun n₂ w₂ hw₂ => ?_
    rw [Action.andThen_ok, Nat.zero_add]
    rw [← Std.ExtTreeSet.ofList_eq_foldl] at hw₂
    by_cases hpos : 0 < (p.through faults (n + 1) xs).length
    · rw [if_pos hpos, Action.wp_bind, Action.wp_attempt]
      exact wp_slide hfails hw₂ fun n₃ T₃ w₃ hT hw₃ => hpost _ _ _ hT (hw₃.count _ _)
    · rw [if_neg hpos]
      exact hpost _ _ _ (.inl rfl) (hw₂.count _ _)

/-- A read of all members answers what is to be shown of the two sets, and may fill the cache. -/
theorem wp_read {op : SetOp} (hop : op.ReadsAll) {post : Except Halt op.Answer → World V → Prop}
    (hw : p.At order S n T w)
    (hpost : ∀ n' T' w', (T = ∅ → T' = Std.ExtTreeSet.ofList
        (p.through faults (n + 2) (order.members S.toList)) ∨ p.ttl = some 0 ∧ T' = ∅) →
      p.At order S n' T' w' → post (.ok (op.apply order (Members.shown S T)).1) w') :
    (op.on (p.set V).store t).wp faults.regime post w := by
  unfold Members.shown at hpost
  match op, hop with
  | .members, _ =>
    change Action.wp _ ((p.set V).collect t >>= fun xs => pure (Listing.full xs)) _ w
    unfold OnDemandSet.collect
    rw [Action.wp_bind, Action.wp_bind]
    refine wp_collectCache hfails hw fun w₁ hw₁ => ?_
    rw [Action.andThen_ok, Members.isEmpty_of_perm (order.members_perm _)]
    by_cases hnone : T.isEmpty = true
    · rw [if_pos hnone] at hpost ⊢
      rw [Std.ExtTreeSet.isEmpty_iff.1 hnone] at hw₁
      exact wp_seed hfails hw₁ fun n' T' w' hT => hpost n' T' w' fun _ => hT
    · rw [if_neg hnone] at hpost ⊢
      exact hpost _ _ _ (fun h => absurd (Std.ExtTreeSet.isEmpty_iff.2 h) hnone) hw₁
  | .count, _ =>
    change Action.wp _ ((p.set V).count t) _ w
    unfold OnDemandSet.count
    rw [Action.wp_bind]
    change Action.wp _ ((p.cache.store V).count t) _ w
    rw [p.cache.store_count]
    refine wp_onCache hfails (by nofun) hw fun w₁ hw₁ => ?_
    rw [Action.andThen_ok]
    change Action.wp _ (if 0 < T.size then _ else _) _ _
    change p.At order S (n + 1) T w₁ at hw₁
    by_cases hnone : T.isEmpty = true
    · have hempty := Std.ExtTreeSet.isEmpty_iff.1 hnone
      rw [if_pos hnone] at hpost
      rw [if_neg (by simp [hempty]), Action.wp_bind]
      rw [hempty] at hw₁
      refine wp_seed hfails hw₁ fun n' T' w' hT hw' => ?_
      have hlength := (order.members_perm S.toList).length_eq
      rw [Std.ExtTreeSet.length_toList] at hlength
      rw [Action.andThen_ok, Action.wp_pure, hlength]
      exact hpost n' T' w' (fun _ => hT) hw'
    · rw [if_neg hnone] at hpost
      rw [if_pos (Members.size_pos fun h => hnone (Std.ExtTreeSet.isEmpty_iff.2 h))]
      exact hpost _ _ _ (fun h => absurd (Std.ExtTreeSet.isEmpty_iff.2 h) hnone) hw₁

end Calls

/-- Of members without repetitions, those that go through make up the set exactly if all do. -/
theorem ofList_through_eq_iff {xs : List String} (hxs : xs.Perm S.toList) :
    Std.ExtTreeSet.ofList (p.through faults n xs) = S ↔ p.through faults n xs = xs := by
  have hmem (ys : List String) (x : String) :
      x ∈ (Std.ExtTreeSet.ofList ys : MemberSet) ↔ x ∈ ys := by
    rw [Std.ExtTreeSet.mem_ofList, List.contains_iff_mem]
  have hprefix := p.through_prefix faults n xs
  constructor
  · intro h
    have hsub : xs ⊆ p.through faults n xs := by
      intro x hx
      rw [← hmem, h, ← Std.ExtTreeSet.mem_toList, ← hxs.mem_iff]
      exact hx
    have hnodup : xs.Nodup := hxs.nodup_iff.2 (Members.nodup_toList S)
    exact hprefix.eq_of_length_le (List.subperm_of_subset hnodup hsub).length_le
  · intro h
    rw [h]
    exact SetMapPair.ofList_eq fun x => hxs.mem_iff.trans Std.ExtTreeSet.mem_toList

end Filling

/-- **A filling that breaks off leaves what it had come to.** Whatever additions to the cache fail
while all members of a set that is not cached are read, or counted, the answer is that of the
source. Cached are then the members that had been added before the first that could not be, unless
they have no time to live; and the reads to come, in which nothing fails and the two sets are as
they were left, answer as the source does exactly if none of its members are cached or all are: if
the first addition had failed, or none had. -/
theorem broken_filling_stays (p : Filling) (faults : Faults V) (hfails : p.FailsAdding faults)
    (w : World V) (hempty : w.membersAt p.cache = ∅) (op : SetOp) (hop : op.ReadsAll) (t : Token) :
    let S := w.membersAt p.source
    let xs := w.arrangement.members S.toList
    let kept := p.through faults (w.visits.length + 2) xs
    let out := faults.regime.act w (op.on (p.set V).store t)
    let T := out.2.membersAt p.cache
    out.1 = .ok (op.apply w.arrangement S).1 ∧ out.2.membersAt p.source = S ∧
      (T = Std.ExtTreeSet.ofList kept ∨ p.ttl = some 0 ∧ T = ∅) ∧
      ((∀ (w' : World V) (op' : SetOp) (t' : Token), w'.membersAt p.source = S →
          w'.membersAt p.cache = T → op'.ReadsAll →
          ((Faults.hitting []).regime.act w' (op'.on (p.set V).store t')).1 =
            .ok (op'.apply w'.arrangement S).1) ↔ T = ∅ ∨ T = S) ∧
      (p.ttl ≠ some 0 → (T = ∅ ∨ T = S ↔ kept = [] ∨ kept = xs)) := by
  intro S xs kept out T
  have hfirst : (op.on (p.set V).store t).wp faults.regime (fun r w' =>
      r = .ok (op.apply w.arrangement S).1 ∧ w'.membersAt p.source = S ∧
        (w'.membersAt p.cache = Std.ExtTreeSet.ofList kept ∨
          p.ttl = some 0 ∧ w'.membersAt p.cache = ∅)) w := by
    refine Filling.wp_read hfails hop ⟨rfl, rfl, rfl, hempty⟩ fun n' T' w' hT hw' => ?_
    rw [Members.shown_eq_iff.2 (.inl rfl), hw'.cache]
    exact ⟨rfl, hw'.source, hT rfl⟩
  obtain ⟨hanswer, hsource, hcached⟩ := hfirst
  change T = _ ∨ _ ∧ T = ∅ at hcached
  have hspared : p.FailsAdding (Faults.hitting [] : Faults V) := by
    intro n c hc
    simp [Faults.hitting] at hc
  have hlater (w' : World V) (op' : SetOp) (t' : Token) (hS : w'.membersAt p.source = S)
      (hT : w'.membersAt p.cache = T) (hop' : op'.ReadsAll) :
      ((Faults.hitting []).regime.act w' (op'.on (p.set V).store t')).1 =
        .ok (op'.apply w'.arrangement (Members.shown S T)).1 := by
    have hread : (op'.on (p.set V).store t').wp (Faults.hitting []).regime (fun r _ =>
        r = .ok (op'.apply w'.arrangement (Members.shown S T)).1) w' :=
      Filling.wp_read hspared hop' ⟨rfl, rfl, hS, hT⟩ fun _ _ _ _ _ => rfl
    exact hread
  have hperm : xs.Perm S.toList := w.arrangement.members_perm _
  refine ⟨hanswer, hsource, hcached, ⟨fun hall => ?_, fun hT w' op' t' hS' hT' hop' => ?_⟩, ?_⟩
  · -- A listing tells which members there are.
    have hlisted := hall out.2 .members none hsource rfl trivial
    rw [hlater out.2 .members none hsource rfl trivial] at hlisted
    have hitems : out.2.arrangement.members (Members.shown S T).toList =
        out.2.arrangement.members S.toList :=
      congrArg Listing.items (Except.ok.inj hlisted)
    refine Members.shown_eq_iff.1 (Std.ExtTreeSet.ext_mem fun x => ?_)
    rw [← Std.ExtTreeSet.mem_toList, ← (out.2.arrangement.members_perm _).mem_iff, hitems,
      (out.2.arrangement.members_perm _).mem_iff, Std.ExtTreeSet.mem_toList]
  · rw [hlater w' op' t' hS' hT' hop', Members.shown_eq_iff.2 hT]
  · intro httl
    rw [hcached.resolve_right fun h => httl h.1, Filling.ofList_through_eq_iff hperm]
    refine or_congr_left ⟨fun h => List.eq_nil_iff_forall_not_mem.2 fun x hx => ?_, fun h => ?_⟩
    · have hin : x ∈ (Std.ExtTreeSet.ofList kept : MemberSet) :=
        Std.ExtTreeSet.mem_ofList.2 (List.contains_iff_mem.2 hx)
      rw [h] at hin
      exact Std.ExtTreeSet.not_mem_empty hin
    · rw [h]
      rfl

/-- Two sets that stand alone, and what the first of them holds. -/
def World.aloneSets (V : Type) (members : MemberSet) : World V :=
  { sets := (∅ : Shelf (Base MemberSet)).put 0 { content := members } }

/-- The calls in the given places fail, if they add to the set that stands alone as `i`. -/
def Faults.addingTo (i : Nat) (places : List Nat) : Faults V
  | n, .set j (.add _) =>
    if j = i ∧ n ∈ places then some { cause := .backend "offline" } else none
  | _, _ => none

/-- The set in the nook `0` is cached in the nook `1`, both of which stand alone. -/
def Filling.alone : Filling where
  name := "cache"
  source := .alone 0
  cache := .alone 1
  ne := by decide
  ttl := none

theorem Filling.failsAdding_alone (places : List Nat) :
    Filling.alone.FailsAdding (Faults.addingTo 1 places : Faults V) := by
  intro n c h
  match c with
  | .set j (.add x) =>
    change (if j = 1 ∧ n ∈ places then some _ else none : Option Failure).isSome = true at h
    by_cases hj : j = 1 ∧ n ∈ places
    · exact ⟨x, congrArg (fun i => Call.set i (.add x)) hj.1⟩
    · rw [if_neg hj] at h
      cases h
  | .set _ (.remove _) | .set _ .members | .set _ (.contains _) | .set _ .count | .map _ _
  | .setMap _ _ | .queue _ _ => cases h

/-- The first addition fails, so that nothing is cached by a count, and the next one counts all. -/
theorem broken_filling_stays_empty :
    let S : MemberSet := .ofList ["a", "b", "c"]
    let w : World Nat := .aloneSets Nat S
    let set := Filling.alone.set Nat
    let out := (Faults.addingTo 1 [2]).regime.act w (SetOp.count.on set.store none)
    out.1 = .ok 3 ∧ out.2.membersAt (.alone 1) = ∅ ∧
      ((Faults.hitting []).regime.act out.2 (SetOp.count.on set.store none)).1 = .ok 3 := by
  intro S w set out
  obtain ⟨hanswer, hsource, hcached, hlater, -⟩ := broken_filling_stays .alone
    (Faults.addingTo 1 [2]) (Filling.failsAdding_alone [2]) w (by decide +kernel) .count trivial
    none
  have hnothing : out.2.membersAt (.alone 1) = ∅ := hcached.resolve_right fun h => nomatch h.1
  exact ⟨hanswer, hnothing, hlater.2 (.inl hnothing) out.2 .count none hsource rfl trivial⟩

/-- The second addition fails: the listing is whole, but its first member stays cached, and that is
all that is listed and counted from then on. -/
theorem partial_filling_hides_members :
    let S : MemberSet := .ofList ["a", "b", "c"]
    let w : World Nat := .aloneSets Nat S
    let set := Filling.alone.set Nat
    let out := (Faults.addingTo 1 [3]).regime.act w (SetOp.members.on set.store none)
    let later (op : SetOp) := ((Faults.hitting []).regime.act out.2 (op.on set.store none)).1
    (Filling.alone.FailsAdding (Faults.addingTo 1 [3] : Faults Nat) ∧
      w.membersAt (.alone 1) = ∅ ∧ S ≠ ∅) ∧
    (out.1.toOption.map Listing.items = some ["a", "b", "c"] ∧
      ¬ (out.2.membersAt (.alone 1) = ∅ ∨ out.2.membersAt (.alone 1) = S)) ∧
    (later .members).toOption.map Listing.items = some ["a"] ∧
      (later .count).toOption = some 1 := by
  intro S w set out later
  refine ⟨⟨Filling.failsAdding_alone [3], ?_, ?_⟩, ⟨?_, ?_⟩, ?_, ?_⟩ <;> decide +kernel

end TwinStore
