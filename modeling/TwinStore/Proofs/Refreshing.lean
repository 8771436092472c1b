import TwinStore.Proofs.Copying

/-!
# The other two ways to bring a map to a map

Besides the copy there are two walks that do less. One brings the target's own keys up to date and
removes those that the source no longer has; it never adds a key (`View.Refreshes`,
`Refreshes.wp_intersectionWalk`). The other adds the entries that the target lacks; it never touches
an entry that is there (`View.Supplies`, `Supplies.wp_differentialWalk`). Each asks less of the two
stores than a copy does: the first needs the keys of the target, the second those of the source.

Both deal with one key after the other (`wp_eachKey`), so what a walk that fails leaves is a target
in which some of the keys have been dealt with and the others have not.
-/

namespace TwinStore

variable {V ν α : Type}

/-! ## What the walks leave -/

namespace Entries

variable {S T c : Entries ν} {f : Key → Option ν → Option ν} {ks : List Key}

/-- What a target holds once the keys of a list have been dealt with, each by itself. -/
def settled (f : Key → Option ν → Option ν) (ks : List Key) (target : Entries ν) : Entries ν :=
  fun k => if k ∈ ks then f k (target k) else target k

/-- Some of the keys of a list have been dealt with. -/
def PartlySettled (f : Key → Option ν → Option ν) (ks : List Key) (target c : Entries ν) : Prop :=
  ∀ k, c k = target k ∨ k ∈ ks ∧ c k = f k (target k)

/-- Some of the target's own keys have been brought up to date. -/
def PartlyRefreshed (source target c : Entries ν) : Prop :=
  ∀ k, c k = target k ∨ (target k).isSome ∧ c k = source k

/-- Some of what the target lacks has been added. -/
def PartlySupplied (source target c : Entries ν) : Prop :=
  ∀ k, c k = target k ∨ target k = none ∧ c k = source k

theorem settled_nil (f : Key → Option ν → Option ν) (T : Entries ν) : settled f [] T = T := by
  funext k
  exact if_neg List.not_mem_nil

theorem partlySettled_settled (f : Key → Option ν → Option ν) (ks : List Key) (T : Entries ν) :
    PartlySettled f ks T (settled f ks T) := by
  intro k
  unfold settled
  split
  · rename_i hk
    exact .inr ⟨hk, rfl⟩
  · exact .inl rfl

section Again

variable (hf : ∀ k y, f k (f k y) = f k y)
include hf

/-- A key may be in the list again: what has been dealt with stays as it is. -/
theorem settled_cons (k : Key) (ks : List Key) (T : Entries ν) :
    settled f (k :: ks) T = settled f ks (T.update k (f k)) := by
  funext k'
  unfold settled update
  by_cases hk : k = k'
  · subst hk
    simp [hf]
  · rw [set_of_ne _ _ hk]
    simp [Ne.symm hk]

/-- What was left after one more key had been dealt with is left without that step too. -/
theorem PartlySettled.of_update {k : Key} (h : PartlySettled f ks (T.update k (f k)) c) :
    PartlySettled f (k :: ks) T c := by
  intro k'
  have hk' := h k'
  unfold update at hk'
  by_cases hk : k = k'
  · subst hk
    rw [set_self, hf] at hk'
    exact .inr ⟨List.mem_cons_self, hk'.elim id And.right⟩
  · rw [set_of_ne _ _ hk] at hk'
    exact hk'.imp_right fun ⟨hmem, hnew⟩ => ⟨List.mem_cons_of_mem _ hmem, hnew⟩

end Again

/-- All of the target's keys have been brought up to date. -/
theorem settled_own (h : ∀ k, k ∈ ks ↔ (T k).isSome) (k : Key) :
    settled (fun k _ => S k) ks T k = if (T k).isSome then S k else none := by
  unfold settled
  by_cases hk : k ∈ ks
  · rw [if_pos hk, if_pos ((h k).1 hk)]
  · have hT : T k = none := by simpa [h] using hk
    simp [hk, hT]

theorem PartlySettled.own (h : ∀ k, k ∈ ks ↔ (T k).isSome)
    (hc : PartlySettled (fun k _ => S k) ks T c) : PartlyRefreshed S T c :=
  fun k => (hc k).imp_right fun ⟨hk, hnew⟩ => ⟨(h k).1 hk, hnew⟩

/-- All of the source's keys have been dealt with. -/
theorem settled_others (h : ∀ k, k ∈ ks ↔ (S k).isSome) (k : Key) :
    settled (fun k y => y.or (S k)) ks T k = (T k).or (S k) := by
  unfold settled
  by_cases hk : k ∈ ks
  · exact if_pos hk
  · have hS : S k = none := by simpa [h] using hk
    simp [hk, hS]

theorem PartlySettled.others (hc : PartlySettled (fun k y => y.or (S k)) ks T c) :
    PartlySupplied S T c := by
  intro k
  rcases hc k with hold | ⟨-, hnew⟩
  · exact .inl hold
  · cases hT : T k with
    | none => exact .inr ⟨rfl, by simpa [hT] using hnew⟩
    | some y => exact .inl (by simpa [hT] using hnew)

/-- An addition that does not overwrite leaves what is there. -/
theorem adding_after_of_some {k : Key} {x : ν} (h : S k = some x) (T : Entries ν) :
    (adding k x false).after T = T.update k fun y => y.or (S k) := by
  unfold adding update
  cases hT : T k with
  | none => simp [hT, h]
  | some y =>
    have hback : T.set k (some y) = T := update_of_eq (fun _ => some y) hT.symm
    simpa [hT] using hback.symm

end Entries

namespace View

open Converge

/-- Keys are dealt with one after the other, if each can be: in a walk that fails, some of them have
been. -/
theorem wp_eachKey {v : View V (Entries ν)} {g : Regime V} {z : Hazard (Entries ν)}
    {source target : Side} (hne : source ≠ target) {S : Entries ν} {f : Key → Option ν → Option ν}
    (hf : ∀ k y, f k (f k y) = f k y) {step : Key → Walk V Unit}
    (hstep : ∀ k n w T, v.Fit w → (v.scene w).contents source = S →
      (v.scene w).contents target = T → (step k).wp g (fun r _ w' => v.Fit w' ∧
        Scene.Wrote z (fun _ c => c = T.update k (f k)) (· = T) target (v.scene w) (v.scene w') r)
        n w)
    (ks : List Key) (n : Tally) {w : World V} {T : Entries ν} (hw : v.Fit w)
    (hS : (v.scene w).contents source = S) (hT : (v.scene w).contents target = T) :
    (Walk.each ks step).wp g (fun r _ w' => v.Fit w' ∧
      Scene.Wrote z (fun _ c => c = Entries.settled f ks T) (Entries.PartlySettled f ks T)
        target (v.scene w) (v.scene w') r) n w := by
  induction ks generalizing w n T with
  | nil =>
    refine ⟨hw, .done () T (Entries.settled_nil f T).symm ?_⟩
    rw [← hT, Scene.put_contents]
    rfl
  | cons k ks ih =>
    unfold Walk.each
    rw [Walk.wp_bind]
    refine Walk.wp_mono (hstep k n w T hw hS hT) ?_
    rintro r n₁ w₁ ⟨hw₁, first⟩
    cases first with
    | failed cause side c hc frail worse =>
      exact ⟨hw₁, .failed cause side c (fun k' => .inl (congrFun hc k')) frail worse⟩
    | done _ c hc hput =>
      subst hc
      have hS₁ : (v.scene w₁).contents source = S := by
        rw [hput, Scene.contents_put_of_ne _ _ hne, hS]
      have hT₁ : (v.scene w₁).contents target = T.update k (f k) := by
        rw [hput, Scene.contents_put_self]
      rw [Walk.andThen_ok]
      refine Walk.wp_mono (ih n₁ hw₁ hS₁ hT₁) ?_
      rintro r _ w' ⟨hw', hwrote⟩
      rw [hput] at hwrote
      refine ⟨hw', hwrote.of_put.mono ?_ fun _ hc => hc.of_update hf⟩
      rintro _ c rfl
      exact (Entries.settled_cons hf k ks T).symm

/-- In a regime, what a refresh of the target's own keys asks of the two stores. -/
structure Refreshes (v : View V (Entries ν)) (g : Regime V) (z : Hazard (Entries ν))
    (source target : Side) (src dst : KeyedStore V α) (Stands : Key → ν → α → Prop) : Prop where
  ne : source ≠ target
  lists : v.Lists g z target dst
  get : ∀ k t w, v.Fit w → (src.get k t).wp g (fun r w' => v.Fit w' ∧
    Scene.Tried z (Entries.fetching k (Stands k)) source (v.scene w) (v.scene w') r) w
  add : ∀ k x b t w, Stands k x b → v.Fit w → (v.scene w).contents source k = some x →
    (dst.add k b true t).wp g (fun r w' => v.Fit w' ∧
      Scene.Wrote z (fun _ c => c = ((v.scene w).contents target).set k (some x))
        (· = (v.scene w).contents target) target (v.scene w) (v.scene w') r) w
  remove : ∀ k t w, v.Fit w → (dst.remove k t).wp g (fun r w' => v.Fit w' ∧
    Scene.Tried z (Entries.removing k) target (v.scene w) (v.scene w') r) w

namespace Refreshes

variable {v : View V (Entries ν)} {g : Regime V} {z : Hazard (Entries ν)} {source target : Side}
  {src dst : KeyedStore V α} {Stands : Key → ν → α → Prop} {w : World V}
  (h : v.Refreshes g z source target src dst Stands)
include h

/-- One key of the target is brought up to date. -/
theorem wp_refreshKey (t : Token) (k : Key) (n : Tally) {S T : Entries ν} (hw : v.Fit w)
    (hS : (v.scene w).contents source = S) (hT : (v.scene w).contents target = T) :
    (refreshKey src dst t k).wp g (fun r _ w' => v.Fit w' ∧
      Scene.Wrote z (fun _ c => c = T.set k (S k)) (· = T) target (v.scene w) (v.scene w') r)
      n w := by
  unfold refreshKey
  rw [Walk.wp_bind, Walk.wp_lift]
  refine Action.wp_mono (h.get k t w hw) ?_
  rintro r w₁ ⟨hw₁, first⟩
  cases first with
  | failed cause frail eq => exact ⟨hw₁, .of_blame cause hT rfl frail eq⟩
  | done a fetched eq =>
    have hsame : v.scene w₁ = v.scene w := eq.trans (Scene.put_contents _ source)
    rw [Walk.andThen_ok]
    have hread : _ ∨ _ := fetched
    rw [hS] at hread
    obtain ⟨hk, rfl⟩ | ⟨x, b, hk, rfl, hstands⟩ := hread
    · dsimp only
      rw [Walk.wp_removing]
      refine Action.wp_mono (h.remove k t w₁ hw₁) ?_
      rintro r w₂ ⟨hw₂, second⟩
      rw [hsame] at second
      cases second with
      | failed cause frail eq => exact ⟨hw₂, .of_blame cause hT rfl frail eq⟩
      | done found _ eq =>
        refine ⟨hw₂, .done () _ rfl ?_⟩
        rw [hk, ← hT]
        exact eq
    · dsimp only
      rw [Walk.wp_bind, Walk.wp_lift]
      have hx : (v.scene w₁).contents source k = some x := by rw [hsame, hS, hk]
      refine Action.wp_mono (h.add k x b t w₁ hstands hw₁ hx) ?_
      rintro r w₂ ⟨hw₂, second⟩
      rw [hsame, hT] at second
      cases second with
      | failed cause side c hc frail worse => exact ⟨hw₂, .failed cause side c hc frail worse⟩
      | done _ c hc eq =>
        rw [Walk.andThen_ok, Walk.wp_wrote]
        exact ⟨hw₂, .done () c (by rw [hk]; exact hc) eq⟩

/-- A refresh ends with the target's own keys up to date, or fails and leaves some of them so. -/
theorem wp_intersectionWalk (t : Token) (n : Tally) {S T : Entries ν} (hw : v.Fit w)
    (hS : (v.scene w).contents source = S) (hT : (v.scene w).contents target = T) :
    (intersectionWalk src dst t).wp g (fun r _ w' => v.Fit w' ∧
      Scene.Wrote z (fun _ c => ∀ k, c k = if (T k).isSome then S k else none)
        (Entries.PartlyRefreshed S T) target (v.scene w) (v.scene w') r) n w := by
  unfold intersectionWalk
  rw [Walk.wp_bind, Walk.wp_lift]
  refine Action.wp_mono (h.lists.wp_collectKeys "target" t hw) ?_
  rintro r w₁ ⟨hw₁, hkeys⟩
  cases hkeys with
  | failed cause frail eq => exact ⟨hw₁, .of_blame cause hT (fun k => .inl rfl) frail eq⟩
  | done ks hks eq =>
    have hsame : v.scene w₁ = v.scene w := eq.trans (Scene.put_contents _ target)
    have hmem : ∀ k, k ∈ ks ↔ (T k).isSome := by
      rw [← hT]
      exact hks
    rw [Walk.andThen_ok]
    refine Walk.wp_mono (wp_eachKey h.ne (f := fun k _ => S k) (fun _ _ => rfl)
      (fun k n w T hw hS hT => h.wp_refreshKey t k n hw hS hT) ks n hw₁ (by rw [hsame, hS])
      (by rw [hsame, hT])) ?_
    rintro r _ w' ⟨hw', hwrote⟩
    rw [hsame] at hwrote
    refine ⟨hw', hwrote.mono ?_ fun _ hc => hc.own hmem⟩
    rintro _ c rfl k
    exact Entries.settled_own hmem k

/-- A run of the intersection strategy that nobody cancels ends with the target's own keys up to
date, or fails and leaves some of them so. -/
theorem wp_run (limit : Nat) {S T : Entries ν} (hw : v.Fit w)
    (hS : (v.scene w).contents source = S) (hT : (v.scene w).contents target = T) :
    ((Strategy.intersection.synchronizer limit).run src dst none).wp g (fun r w' => v.Fit w' ∧
      Scene.Wrote z (fun _ c => ∀ k, c k = if (T k).isSome then S k else none)
        (Entries.PartlyRefreshed S T) target (v.scene w) (v.scene w') r) w := by
  unfold Synchronizer.run
  change Action.wp _ (dst.requireKeys "target" >>= fun _ => drive _ _ _ _) _ w
  rw [Action.wp_bind, h.lists.wp_requireKeys "target" hw, Action.andThen_ok]
  refine View.wp_driveWriting _ _ hw fun w₁ hw₁ hsame => ?_
  have hwalk := h.wp_intersectionWalk none {} hw₁ (by rw [hsame, hS]) (by rw [hsame, hT])
  rwa [hsame] at hwalk

end Refreshes

/-- In a regime, what the addition of what the target lacks asks of the two stores. -/
structure Supplies (v : View V (Entries ν)) (g : Regime V) (z : Hazard (Entries ν))
    (source target : Side) (src dst : KeyedStore V α) (Stands : Key → ν → α → Prop) : Prop where
  ne : source ≠ target
  lists : v.Lists g z source src
  get : ∀ k t w, v.Fit w → (src.get k t).wp g (fun r w' => v.Fit w' ∧
    Scene.Tried z (Entries.fetching k (Stands k)) source (v.scene w) (v.scene w') r) w
  add : ∀ k x b t w, Stands k x b → v.Fit w → (v.scene w).contents source k = some x →
    (dst.add k b false t).wp g (fun r w' => v.Fit w' ∧
      Scene.Wrote z (fun _ c => c = (Entries.adding k x false).after ((v.scene w).contents target))
        (· = (v.scene w).contents target) target (v.scene w) (v.scene w') r) w

namespace Supplies

variable {v : View V (Entries ν)} {g : Regime V} {z : Hazard (Entries ν)} {source target : Side}
  {src dst : KeyedStore V α} {Stands : Key → ν → α → Prop} {w : World V}
  (h : v.Supplies g z source target src dst Stands)
include h

/-- The source's entry under a key is added if the target has none. -/
theorem wp_addMissing (t : Token) (k : Key) (n : Tally) {S T : Entries ν} (hw : v.Fit w)
    (hS : (v.scene w).contents source = S) (hT : (v.scene w).contents target = T) :
    (addMissing src dst t k).wp g (fun r _ w' => v.Fit w' ∧
      Scene.Wrote z (fun _ c => c = T.update k fun y => y.or (S k)) (· = T) target (v.scene w)
        (v.scene w') r) n w := by
  unfold addMissing
  rw [Walk.wp_bind, Walk.wp_lift]
  refine Action.wp_mono (h.get k t w hw) ?_
  rintro r w₁ ⟨hw₁, first⟩
  cases first with
  | failed cause frail eq => exact ⟨hw₁, .of_blame cause hT rfl frail eq⟩
  | done a fetched eq =>
    have hsame : v.scene w₁ = v.scene w := eq.trans (Scene.put_contents _ source)
    rw [Walk.andThen_ok]
    have hread : _ ∨ _ := fetched
    rw [hS] at hread
    obtain ⟨hk, rfl⟩ | ⟨x, b, hk, rfl, hstands⟩ := hread
    · dsimp only
      rw [Walk.wp_pure]
      have hnothing : T.update k (fun y => y.or (S k)) = T :=
        Entries.update_of_eq _ (by rw [hk, Option.or_none])
      refine ⟨hw₁, .done () T hnothing.symm ?_⟩
      rw [hsame, ← hT, Scene.put_contents]
    · dsimp only
      rw [Walk.wp_bind, Walk.wp_lift]
      have hx : (v.scene w₁).contents source k = some x := by rw [hsame, hS, hk]
      refine Action.wp_mono (h.add k x b t w₁ hstands hw₁ hx) ?_
      rintro r w₂ ⟨hw₂, second⟩
      rw [hsame, hT, Entries.adding_after_of_some hk] at second
      cases second with
      | failed cause side c hc frail worse => exact ⟨hw₂, .failed cause side c hc frail worse⟩
      | done added c hc eq =>
        rw [Walk.andThen_ok]
        cases added with
        | true =>
          rw [if_pos rfl, Walk.wp_wrote]
          exact ⟨hw₂, .done () c hc eq⟩
        | false =>
          rw [if_neg Bool.false_ne_true, Walk.wp_pure]
          exact ⟨hw₂, .done () c hc eq⟩

/-- The source's entries under some keys are added where the target has none. -/
theorem wp_addAllMissing (t : Token) (ks : List Key) (n : Tally) {S T : Entries ν} (hw : v.Fit w)
    (hS : (v.scene w).contents source = S) (hT : (v.scene w).contents target = T) :
    (Walk.each ks (addMissing src dst t)).wp g (fun r _ w' => v.Fit w' ∧
      Scene.Wrote z (fun _ c => c = Entries.settled (fun k y => y.or (S k)) ks T)
        (Entries.PartlySupplied S T) target (v.scene w) (v.scene w') r) n w := by
  have heach := wp_eachKey h.ne (fun k y => by rw [Option.or_assoc, Option.or_self])
    (fun k n w T hw hS hT => h.wp_addMissing t k n hw hS hT) ks n hw hS hT
  refine Walk.wp_mono heach ?_
  rintro r _ w' ⟨hw', hwrote⟩
  exact ⟨hw', hwrote.mono (fun _ _ hc => hc) fun _ hc => hc.others⟩

/-- The walk ends with the target holding what the source holds besides its own entries, or fails
and leaves some of that added. -/
theorem wp_differentialWalk (t : Token) (n : Tally) {S T : Entries ν} (hw : v.Fit w)
    (hS : (v.scene w).contents source = S) (hT : (v.scene w).contents target = T) :
    (differentialWalk src dst t).wp g (fun r _ w' => v.Fit w' ∧
      Scene.Wrote z (fun _ c => ∀ k, c k = (T k).or (S k)) (Entries.PartlySupplied S T)
        target (v.scene w) (v.scene w') r) n w := by
  unfold differentialWalk
  rw [Walk.wp_bind, Walk.wp_lift]
  refine Action.wp_mono (h.lists.wp_listAs "source" t hw) ?_
  rintro r w₁ ⟨hw₁, hlisted⟩
  cases hlisted with
  | failed cause frail eq => exact ⟨hw₁, .of_blame cause hT (fun k => .inl rfl) frail eq⟩
  | broken ks cause _ frail eq =>
    have hS₁ : (v.scene w₁).contents source = S := by rw [eq, Scene.contents_blame, hS]
    have hT₁ : (v.scene w₁).contents target = T := by rw [eq, Scene.contents_blame, hT]
    rw [Walk.andThen_ok, Walk.wp_bind]
    refine Walk.wp_mono (h.wp_addAllMissing t ks n hw₁ hS₁ hT₁) ?_
    rintro r n' w₂ ⟨hw₂, hwrote⟩
    rw [eq] at hwrote
    cases hwrote with
    | failed cause' side c hc frail' worse =>
      exact ⟨hw₂, .failed cause' side c hc frail' worse.of_blame⟩
    | done _ c hc eq' =>
      rw [Walk.andThen_ok, Walk.wp_close]
      refine ⟨hw₂, .failed cause source c ?_ frail ?_⟩
      · rw [hc]
        exact (Entries.partlySettled_settled _ ks T).others
      · rw [eq']
        exact Scene.worse_blame ((v.scene w).put target c) source
  | whole ks hks eq =>
    rw [hS] at hks
    rw [Walk.andThen_ok, Walk.wp_bind]
    refine Walk.wp_mono (h.wp_addAllMissing t ks n hw₁ (by rw [eq, hS]) (by rw [eq, hT])) ?_
    rintro r n' w₂ ⟨hw₂, hwrote⟩
    rw [eq] at hwrote
    cases hwrote with
    | failed cause side c hc frail worse => exact ⟨hw₂, .failed cause side c hc frail worse⟩
    | done _ c hc eq' =>
      rw [Walk.andThen_ok, Walk.wp_close]
      refine ⟨hw₂, .done () c (fun k => ?_) eq'⟩
      rw [hc, Entries.settled_others hks]

/-- A run of the differential strategy that nobody cancels ends with the target holding what the
source holds besides its own entries, or fails and leaves some of that added. -/
theorem wp_run (limit : Nat) {S T : Entries ν} (hw : v.Fit w)
    (hS : (v.scene w).contents source = S) (hT : (v.scene w).contents target = T) :
    ((Strategy.differential.synchronizer limit).run src dst none).wp g (fun r w' => v.Fit w' ∧
      Scene.Wrote z (fun _ c => ∀ k, c k = (T k).or (S k)) (Entries.PartlySupplied S T)
        target (v.scene w) (v.scene w') r) w := by
  unfold Synchronizer.run
  change Action.wp _ (src.requireKeys "source" >>= fun _ => drive _ _ _ _) _ w
  rw [Action.wp_bind, h.lists.wp_requireKeys "source" hw, Action.andThen_ok]
  refine View.wp_driveWriting _ _ hw fun w₁ hw₁ hsame => ?_
  have hwalk := h.wp_differentialWalk none {} hw₁ (by rw [hsame, hS]) (by rw [hsame, hT])
  rwa [hsame] at hwalk

end Supplies

end View

end TwinStore
