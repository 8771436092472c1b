import TwinStore.Converge.Entries
import TwinStore.Proofs.Entries
import TwinStore.Proofs.View

/-!
# Copies between keyed stores

A pair of keyed stores is seen by its entries. `View.Keyed` says what a copy needs to know about the
stores: that they list their keys, and what reading, adding and removing do. What is read from one
store and added to the other need not be the entry itself: the sets under the keys of a map of sets
are handed over as ways to reach them, and read when they are added.

Under that, a copy makes its target equal to its source, or fails on the way and leaves a mixture of
the two (`View.Keyed.converges_copy`).
-/

namespace TwinStore

variable {V ν α : Type}

/-- A listing shows the keys; one that breaks off shows some of them. -/
inductive Scene.Listed (z : Hazard (Entries ν)) (side : Side) (s s' : Scene (Entries ν)) :
    Except Halt (Listing Key) → Prop
  | whole (ks : List Key) (mem : ∀ k, k ∈ ks ↔ (s.contents side k).isSome) (eq : s' = s) :
      Listed z side s s' (.ok { items := ks })
  | broken (ks : List Key) (cause : StoreError) (mem : ∀ k ∈ ks, (s.contents side k).isSome)
      (frail : z.frail side) (eq : s' = s.blame side) :
      Listed z side s s' (.ok { items := ks, failure := some cause })
  | failed (cause : StoreError) (frail : z.frail side) (eq : s' = s.blame side) :
      Listed z side s s' (.error (.failed cause))

/-- A listing changes nothing. -/
theorem Scene.Listed.contents {z : Hazard (Entries ν)} {side : Side} {s s' : Scene (Entries ν)}
    {r : Except Halt (Listing Key)} (h : Listed z side s s' r) : s'.contents = s.contents := by
  cases h with
  | whole _ _ eq => rw [eq]
  | broken _ _ _ _ eq => rw [eq, contents_blame]
  | failed _ _ eq => rw [eq, contents_blame]

namespace View

/-- Under faults, a call that enumerates the keys of its store and changes nothing shows them. -/
theorem wp_listing {v : View V (Entries ν)} {c : Call V} {t : Token}
    {side : Side} {w : World V} (faults : Faults V)
    (leaves : Entries ν → Entries ν → Entries ν → Prop)
    (hc : c.site = v.site side) (listing : c.Answer → Listing Key)
    (hperform : ∀ w, v.Fit w → v.Fit (w.perform c).2 ∧ v.scene (w.perform c).2 = v.scene w ∧
      ∃ ks, listing (w.perform c).1 = .full ks ∧
        ∀ k, k ∈ ks ↔ ((v.scene w).contents side k).isSome)
    (hbreaks : ∀ n cause a b, c.failAfter n cause a = some b →
      listing b = (listing a).failAfter n cause) (hw : v.Fit w) :
    (Action.call c t).wp faults.regime (fun r w' => v.Fit w' ∧
      Scene.Listed (v.hazard faults leaves) side (v.scene w) (v.scene w') (r.map listing)) w := by
  refine wp_call hc hw ?_ ?_ ?_
  · intro w' hw' hsame
    obtain ⟨hfit, hscene, ks, hks, hmem⟩ := hperform w' hw'
    rw [hsame] at hscene hmem
    refine ⟨hfit, ?_⟩
    change Scene.Listed _ _ _ _ (.ok (listing (w'.perform c).1))
    rw [hks]
    exact .whole ks hmem hscene
  · intro cause w' hfrail hw' hblame
    exact ⟨hw', .failed cause hfrail hblame⟩
  · intro cause n a w' hfrail hw' hblame ha
    obtain ⟨hfit, hscene, ks, hks, hmem⟩ := hperform w' hw'
    rw [hblame] at hscene hmem
    refine ⟨hfit, ?_⟩
    change Scene.Listed _ _ _ _ (.ok (listing a))
    rw [hbreaks n cause _ a ha, hks]
    exact .broken (ks.take n) cause (fun k hk => (hmem k).1 (List.mem_of_mem_take hk)) hfrail hscene

/-- In a regime, the store on a side lists its keys. -/
structure Lists (v : View V (Entries ν)) (g : Regime V) (z : Hazard (Entries ν)) (side : Side)
    (m : KeyedStore V α) : Prop where
  canList : ∀ w, v.Fit w → g.run w m.canList = (true, w)
  keys : ∀ t w, v.Fit w → (m.keys t).wp g
    (fun r w' => v.Fit w' ∧ Scene.Listed z side (v.scene w) (v.scene w') r) w

namespace Lists

variable {v : View V (Entries ν)} {g : Regime V} {z : Hazard (Entries ν)} {side : Side}
  {m : KeyedStore V α} {w : World V} (h : v.Lists g z side m)
include h

theorem wp_requireKeys (role : String) (hw : v.Fit w)
    (post : Except Halt Unit → World V → Prop) :
    (m.requireKeys role).wp g post w ↔ post (.ok ()) w := by
  unfold KeyedStore.requireKeys
  rw [Action.wp_bind]
  change Action.wp g (ExceptT.lift m.canList) _ w ↔ _
  rw [Action.wp_lift, h.canList w hw]
  rfl

theorem wp_listAs (role : String) (t : Token) (hw : v.Fit w) :
    (m.listAs role t).wp g (fun r w' => v.Fit w' ∧
      Scene.Listed z side (v.scene w) (v.scene w') r) w := by
  unfold KeyedStore.listAs
  rw [Action.wp_bind, h.wp_requireKeys role hw, Action.andThen_ok]
  exact h.keys t w hw

theorem wp_collectKeys (role : String) (t : Token) (hw : v.Fit w) :
    (m.collectKeys role t).wp g (fun r w' => v.Fit w' ∧
      Scene.Tried z Entries.listing side (v.scene w) (v.scene w') r) w := by
  unfold KeyedStore.collectKeys
  rw [Action.wp_bind]
  refine Action.wp_mono (h.wp_listAs role t hw) ?_
  rintro r w' ⟨hw', hl⟩
  cases hl with
  | whole ks mem eq => exact ⟨hw', .done ks mem (eq.trans (Scene.put_contents _ side).symm)⟩
  | broken ks cause _ frail eq => exact ⟨hw', .failed cause frail eq⟩
  | failed cause frail eq => exact ⟨hw', .failed cause frail eq⟩

end Lists

/-- In a regime, what a copy asks of two keyed stores. `Stands side k x b` says that `b`, read on a
side under a key, stands for the entry `x`. -/
structure Keyed (v : View V (Entries ν)) (g : Regime V) (z : Hazard (Entries ν))
    (base : Side → KeyedStore V α) (Stands : Side → Key → ν → α → Prop) : Prop where
  canList : ∀ side w, v.Fit w → g.run w (base side).canList = (true, w)
  keys : ∀ side t w, v.Fit w → ((base side).keys t).wp g
    (fun r w' => v.Fit w' ∧ Scene.Listed z side (v.scene w) (v.scene w') r) w
  get : ∀ side k t w, v.Fit w → ((base side).get k t).wp g (fun r w' => v.Fit w' ∧
    Scene.Tried z (Entries.fetching k (Stands side k)) side (v.scene w) (v.scene w') r) w
  add : ∀ source target k x b t w, source ≠ target → Stands source k x b → v.Fit w →
    (v.scene w).contents source k = some x → ((base target).add k b true t).wp g (fun r w' =>
      v.Fit w' ∧ Scene.Wrote z (fun _ c => c = ((v.scene w).contents target).set k (some x))
        (· = (v.scene w).contents target) target (v.scene w) (v.scene w') r) w
  remove : ∀ k t, v.Carries g z (fun side => (base side).remove k t) (Entries.removing k)

namespace Keyed

open Converge

variable {v : View V (Entries ν)} {g : Regime V} {z : Hazard (Entries ν)}
  {base : Side → KeyedStore V α} {Stands : Side → Key → ν → α → Prop} {w : World V}
  {source target : Side}

section Listings

variable (h : v.Keyed g z base Stands)
include h

theorem lists (side : Side) : v.Lists g z side (base side) :=
  ⟨h.canList side, h.keys side⟩

theorem carries_collectKeys (role : String) (t : Token) :
    v.Carries g z (fun side => (base side).collectKeys role t) Entries.listing :=
  fun side _ hw => (h.lists side).wp_collectKeys role t hw

end Listings

/-! ## The walk -/

section Walks

variable (h : v.Keyed g z base Stands)
include h

/-- Copying the entries under some keys: what is not stale any more is what was written. -/
theorem wp_copyKeys (hne : source ≠ target) (t : Token) (ks stale : List Key) (n : Tally)
    {S T : Entries ν} (hw : v.Fit w) (hS : (v.scene w).contents source = S)
    (hT : (v.scene w).contents target = T) :
    (copyKeys (base source) (base target) t ks stale).wp g (fun r _ w' => v.Fit w' ∧
      Scene.Wrote z (fun rest c => c = Entries.copied S ks T ∧
          ∀ k, k ∈ rest ↔ k ∈ stale ∧ ¬ (k ∈ ks ∧ (S k).isSome))
        (Entries.Mixed S T) target (v.scene w) (v.scene w') r) n w := by
  induction ks generalizing w stale n T with
  | nil =>
    refine ⟨hw, .done stale _ ⟨rfl, fun k => by simp⟩ ?_⟩
    rw [Entries.copied_nil, ← hT, Scene.put_contents]
    rfl
  | cons k ks ih =>
    unfold copyKeys
    rw [Walk.wp_bind, Walk.wp_lift]
    refine Action.wp_mono (h.get source k t w hw) ?_
    rintro r w₁ ⟨hw₁, first⟩
    cases first with
    | failed cause frail eq =>
      exact ⟨hw₁, .of_blame cause hT (fun k => .inl rfl) frail eq⟩
    | done a fetched eq =>
      have hsame : v.scene w₁ = v.scene w := eq.trans (Scene.put_contents _ source)
      rw [Walk.andThen_ok]
      have hread : _ ∨ _ := fetched
      rw [hS] at hread
      obtain ⟨hk, rfl⟩ | ⟨x, b, hk, rfl, hstands⟩ := hread
      · refine Walk.wp_mono (ih stale n hw₁ (by rw [hsame, hS]) (by rw [hsame, hT])) ?_
        rintro r _ w' ⟨hw', hwrote⟩
        rw [hsame] at hwrote
        refine ⟨hw', hwrote.mono ?_ fun _ h => h⟩
        rintro rest c ⟨rfl, hrest⟩
        refine ⟨(Entries.copied_cons_of_none ks hk).symm, fun k' => ?_⟩
        rw [hrest k', List.mem_cons]
        refine and_congr_right fun _ => not_congr ⟨fun h => ⟨.inr h.1, h.2⟩, ?_⟩
        rintro ⟨rfl | h, hs⟩
        · rw [hk] at hs
          cases hs
        · exact ⟨h, hs⟩
      · dsimp only
        rw [Walk.wp_bind, Walk.wp_lift]
        refine Action.wp_mono (h.add source target k x b t w₁ hne hstands hw₁
          (by rw [hsame, hS, hk])) ?_
        rintro r w₂ ⟨hw₂, second⟩
        rw [hsame, hT] at second
        cases second with
        | failed cause side c hc frail worse =>
          exact ⟨hw₂, .failed cause side c (fun k => .inl (congrFun hc k)) frail worse⟩
        | done _ c hc hput =>
          subst hc
          have hS₂ : (v.scene w₂).contents source = S := by
            rw [hput, Scene.contents_put_of_ne _ _ hne, hS]
          have hT₂ : (v.scene w₂).contents target = T.set k (some x) := by
            rw [hput, Scene.contents_put_self]
          rw [Walk.andThen_ok, Walk.wp_bind, Walk.wp_wrote, Walk.andThen_ok]
          refine Walk.wp_mono (ih (stale.filter (· ≠ k)) _ hw₂ hS₂ hT₂) ?_
          rintro r _ w' ⟨hw', hwrote⟩
          rw [hput] at hwrote
          refine ⟨hw', hwrote.of_put.mono ?_ fun c hc => ?_⟩
          · rintro rest c ⟨rfl, hrest⟩
            refine ⟨(Entries.copied_cons_of_some ks hk).symm, fun k' => ?_⟩
            rw [hrest k']
            by_cases he : k' = k
            · subst he
              simp [hk]
            · simp [he]
          · rw [← hk] at hc
            exact hc.of_set

/-- A walk that removes some keys leaves the target without them, or without some of them. -/
theorem wp_removeKeys (t : Token) (ks : List Key) (n : Tally) {T : Entries ν} (hw : v.Fit w)
    (hT : (v.scene w).contents target = T) :
    (Walk.each ks fun k => Walk.removing ((base target).remove k t)).wp g (fun r _ w' =>
      v.Fit w' ∧ Scene.Wrote z (fun _ c => c = T.without ks)
        (fun c => ∀ k, c k = T k ∨ k ∈ ks ∧ c k = none) target (v.scene w) (v.scene w') r) n w := by
  induction ks generalizing w n T with
  | nil =>
    refine ⟨hw, .done () T (funext fun k => by simp [Entries.without]) ?_⟩
    rw [← hT, Scene.put_contents]
    rfl
  | cons k ks ih =>
    unfold Walk.each
    rw [Walk.wp_bind, Walk.wp_removing]
    refine Action.wp_mono (h.remove k t target w hw) ?_
    rintro r w₁ ⟨hw₁, first⟩
    cases first with
    | failed cause frail eq =>
      exact ⟨hw₁, .of_blame cause hT (fun k => .inl rfl) frail eq⟩
    | done a _ eq =>
      have hput : v.scene w₁ = (v.scene w).put target (T.set k none) := by
        rw [eq, hT]
        rfl
      have hT₁ : (v.scene w₁).contents target = T.set k none := by
        rw [hput, Scene.contents_put_self]
      rw [Walk.afterRemoving, Walk.andThen_ok]
      refine Walk.wp_mono (ih _ hw₁ hT₁) ?_
      rintro r _ w' ⟨hw', hwrote⟩
      rw [hput] at hwrote
      refine ⟨hw', hwrote.of_put.mono ?_ fun c hc k' => ?_⟩
      · rintro _ c rfl
        exact (Entries.without_cons k ks T).symm
      · rcases hc k' with h | ⟨hmem, h⟩
        · by_cases hk : k = k'
          · subst hk
            exact .inr ⟨List.mem_cons_self, by rw [h, Entries.set_self]⟩
          · exact .inl (by rw [h, Entries.set_of_ne _ _ hk])
        · exact .inr ⟨List.mem_cons_of_mem _ hmem, h⟩

/-- A copy ends with the target equal to the source, or fails and leaves a mixture of the two. -/
theorem wp_copyWalk (hne : source ≠ target) (t : Token) (n : Tally) {S T : Entries ν}
    (hw : v.Fit w) (hS : (v.scene w).contents source = S)
    (hT : (v.scene w).contents target = T) :
    (copyWalk (base source) (base target) t).wp g (fun r _ w' => v.Fit w' ∧
      Scene.Wrote z (fun _ c => c = S) (Entries.Mixed S T) target (v.scene w) (v.scene w') r)
      n w := by
  unfold copyWalk
  rw [Walk.wp_bind, Walk.wp_lift]
  refine Action.wp_mono (h.carries_collectKeys "target" t target w hw) ?_
  rintro r w₁ ⟨hw₁, hkeys⟩
  cases hkeys with
  | failed cause frail eq => exact ⟨hw₁, .of_blame cause hT (fun k => .inl rfl) frail eq⟩
  | done stale hstale eq =>
    have hsame : v.scene w₁ = v.scene w := eq.trans (Scene.put_contents _ target)
    rw [Walk.andThen_ok, Walk.wp_bind, Walk.wp_lift]
    refine Action.wp_mono ((h.lists source).wp_listAs "source" t hw₁) ?_
    rintro r w₂ ⟨hw₂, hlisted⟩
    rw [hsame] at hlisted
    cases hlisted with
    | failed cause frail eq => exact ⟨hw₂, .of_blame cause hT (fun k => .inl rfl) frail eq⟩
    | broken ks cause _ frail eq =>
      have hS₂ : (v.scene w₂).contents source = S := by rw [eq, Scene.contents_blame, hS]
      have hT₂ : (v.scene w₂).contents target = T := by rw [eq, Scene.contents_blame, hT]
      rw [Walk.andThen_ok, Walk.wp_bind]
      refine Walk.wp_mono (h.wp_copyKeys hne t ks stale n hw₂ hS₂ hT₂) ?_
      rintro r n' w₃ ⟨hw₃, hwrote⟩
      rw [eq] at hwrote
      cases hwrote with
      | failed cause' side c hc frail' worse =>
        exact ⟨hw₃, .failed cause' side c hc frail' worse.of_blame⟩
      | done rest c hc eq' =>
        rw [Walk.andThen_ok, Walk.wp_bind, Walk.wp_close]
        refine ⟨hw₃, .failed cause source c ?_ frail ?_⟩
        · rw [hc.1]
          exact Entries.mixed_copied S ks T
        · rw [eq']
          exact Scene.worse_blame ((v.scene w).put target c) source
    | whole ks hks eq =>
      rw [hS] at hks
      rw [Walk.andThen_ok, Walk.wp_bind]
      refine Walk.wp_mono (h.wp_copyKeys hne t ks stale n hw₂ (by rw [eq, hS]) (by rw [eq, hT])) ?_
      rintro r n' w₃ ⟨hw₃, hwrote⟩
      rw [eq] at hwrote
      cases hwrote with
      | failed cause side c hc frail worse => exact ⟨hw₃, .failed cause side c hc frail worse⟩
      | done rest c hc eq' =>
        obtain ⟨rfl, hrest⟩ := hc
        rw [Walk.andThen_ok, Walk.wp_bind, Walk.wp_close]
        dsimp only
        rw [Walk.andThen_ok]
        -- What is stale still is what the target has and the source has not.
        have hstill : ∀ k, k ∈ rest ↔ (T k).isSome ∧ S k = none := by
          intro k
          rw [hrest, hks, hstale, hT]
          simp
        refine Walk.wp_mono (h.wp_removeKeys t rest n' hw₃ (by rw [eq', Scene.contents_put_self]))
          ?_
        rintro r _ w₄ ⟨hw₄, hremoved⟩
        rw [eq'] at hremoved
        refine ⟨hw₄, hremoved.of_put.mono ?_ fun c hc k => ?_⟩
        · rintro _ c rfl
          exact Entries.without_copied hks hstill
        · rcases hc k with h | ⟨hmem, h⟩
          · rw [h]
            exact Entries.mixed_copied S ks T k
          · exact .inr (by rw [h, ((hstill k).1 hmem).2])

end Walks

/-- Copies between the two stores converge. -/
theorem converges_copy (h : v.Keyed g z base Stands)
    (hleaves : ∀ S T c, Entries.Mixed S T c → z.leaves S T c) (limit : Nat) :
    v.Converges g z fun source target =>
      (Strategy.copy.synchronizer limit).run (base source) (base target) none := by
  intro source target hne w hw
  unfold Synchronizer.run
  change Action.wp _ ((do
    (base source).requireKeys "source"
    (base target).requireKeys "target") >>= fun _ => drive _ _ _ _) _ w
  rw [Action.wp_bind, Action.wp_bind, (h.lists source).wp_requireKeys "source" hw,
    Action.andThen_ok, (h.lists target).wp_requireKeys "target" hw, Action.andThen_ok]
  refine View.wp_driveWriting _ _ hw fun w₁ hw₁ hsame => ?_
  refine Walk.wp_mono (h.wp_copyWalk hne none {} hw₁ (by rw [hsame]) (by rw [hsame])) ?_
  rintro r _ w' ⟨hw', hwrote⟩
  rw [hsame] at hwrote
  exact ⟨hw', hwrote.mono (fun _ _ h => h) (hleaves _ _)⟩

end Keyed

end View

end TwinStore
