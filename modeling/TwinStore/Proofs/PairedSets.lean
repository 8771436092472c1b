import TwinStore.Converge.Members
import TwinStore.Program.Backend
import TwinStore.Proofs.View

/-!
# Pairs of base sets

`SetPair.view` is the view of two base sets. Under any faults each operation does to what a set
holds what its `Effect` says, or fails (`SetPair.carries_add` and its likes), and overwriting a set
makes it equal to its source, or fails on the way, when it has kept every member of the source that
it had and gained no member from elsewhere (`SetPair.converges_overwrite`).
-/

namespace TwinStore

variable {V : Type}

/-! ## What operations do to what a set holds -/

namespace Members

theorem mem_insert_iff {c : MemberSet} {x y : String} : y ∈ c.insert x ↔ x = y ∨ y ∈ c := by
  rw [Std.ExtTreeSet.mem_insert, Std.LawfulEqCmp.compare_eq_iff_eq]

theorem mem_erase_iff {c : MemberSet} {x y : String} : y ∈ c.erase x ↔ x ≠ y ∧ y ∈ c := by
  rw [Std.ExtTreeSet.mem_erase, ne_eq, Std.LawfulEqCmp.compare_eq_iff_eq]

/-- To add a member that is there changes nothing. -/
theorem insert_of_mem {c : MemberSet} {x : String} (hx : x ∈ c) : c.insert x = c := by
  refine Std.ExtTreeSet.ext_mem fun y => ?_
  rw [mem_insert_iff]
  exact ⟨fun hy => hy.elim (fun he => he ▸ hx) id, .inr⟩

/-- To remove a member that is not there changes nothing. -/
theorem erase_of_not_mem {c : MemberSet} {x : String} (hx : x ∉ c) : c.erase x = c := by
  refine Std.ExtTreeSet.ext_mem fun y => ?_
  rw [mem_erase_iff]
  exact ⟨And.right, fun hy => ⟨fun he => hx (he ▸ hy), hy⟩⟩

/-- No member is listed twice. -/
theorem nodup_toList (c : MemberSet) : c.toList.Nodup :=
  Std.ExtTreeSet.distinct_toList.imp fun hne he => hne (Std.LawfulEqCmp.compare_eq_iff_eq.2 he)

/-- Add a member. -/
def adding (x : String) : Effect MemberSet Unit where
  after c := c.insert x
  answers _ _ := True

/-- Remove a member; the answer says whether it was there. -/
def removing (x : String) : Effect MemberSet Bool where
  after c := c.erase x
  answers c a := a = c.contains x

/-- List the members, in any order. -/
def listing : Effect MemberSet (List String) where
  after := id
  answers c xs := ∀ x, x ∈ xs ↔ x ∈ c

/-- List the members, each of them once, in any order. -/
def streaming : Effect MemberSet (List String) where
  after := id
  answers c xs := xs.Perm c.toList

/-- Look for a member. -/
def finding (x : String) : Effect MemberSet Bool where
  after := id
  answers c a := a = c.contains x

/-- Count the members. -/
def counting : Effect MemberSet Nat where
  after := id
  answers c a := a = c.size

/-- Between a source and a target: what overwriting that fails may leave in the target. -/
def Between (source target c : MemberSet) : Prop :=
  (∀ x ∈ c, x ∈ source ∨ x ∈ target) ∧ ∀ x ∈ target, x ∈ source → x ∈ c

theorem between_target (source target : MemberSet) : Between source target target :=
  ⟨fun _ => .inr, fun _ h _ => h⟩

end Members

/-- Two base sets and a health record. -/
structure SetPair extends BasePair

namespace SetPair

variable (p : SetPair)

/-! ## The view -/

/-- Two base sets, seen by what they hold. -/
def view (V : Type) : View V MemberSet where
  core := p.core
  site side := .set (p.index side)
  contents w side := (w.sets.nth (p.index side)).content
  Fit _ := True
  contents_congr := by
    intro w w' h
    simp only [World.stores, Prod.mk.injEq] at h
    rw [h.2.2.1]
  fit_congr _ h := h
  site_injective h := p.index_injective (Site.set.inj h)

/-- What may go wrong with two base sets. -/
def hazard (faults : Faults V) : Hazard MemberSet :=
  (p.view V).hazard faults Members.Between

/-- The base set on a side. -/
def base (V : Type) (p : SetPair) (side : Side) : SetStore V :=
  Backend.set (p.index side)

/-! ## Calls -/

variable {p} {w : World V} {side : Side} {faults : Faults V}

theorem scene_perform (side : Side) (op : SetOp) :
    (p.view V).scene (w.perform (.set (p.index side) op)).2 =
      ((p.view V).scene w).put side
        (op.apply w.arrangement (w.sets.nth (p.index side)).content).2 := by
  ext side' : 2
  · by_cases he : side' = side
    · subst he
      rw [Scene.contents_put_self]
      simp [View.scene, view, World.perform]
    · have hne : p.index side ≠ p.index side' := fun h => he (p.index_injective h).symm
      rw [Scene.contents_put_of_ne _ _ he]
      simp [View.scene, view, World.perform, Shelf.nth_put_of_ne _ _ hne]
  · rfl
  · rfl

/-- A call does to what its set holds what the operation does to the set, or fails. -/
theorem carries_call (op : SetOp) {eff : Effect MemberSet op.Answer} (t : Token)
    (hwhole : ∀ i n cause a, (Call.set (V := V) i op).failAfter n cause a = none)
    (happly : ∀ (arrangement : Arrangement) (c : MemberSet),
      (op.apply arrangement c).2 = eff.after c ∧ eff.answers c (op.apply arrangement c).1) :
    (p.view V).Carries faults.regime (p.hazard faults)
      (fun side => Backend.onSet (p.index side) op t) eff := by
  intro side w hw
  refine View.wp_call (v := p.view V) rfl hw ?_ ?_ ?_
  · intro w' hw' hsame
    obtain ⟨hafter, hanswer⟩ :=
      happly w'.arrangement (((p.view V).scene w').contents side)
    refine ⟨hw', .done _ ?_ ?_⟩
    · rw [← hsame]
      exact hanswer
    · rw [scene_perform, ← hsame, ← hafter]
      rfl
  · intro cause w' hfrail hw' hblame
    exact ⟨hw', .failed cause hfrail hblame⟩
  · intro cause n a w' _ _ _ ha
    rw [hwhole] at ha
    cases ha

theorem carries_add (x : String) (t : Token) :
    (p.view V).Carries faults.regime (p.hazard faults)
      (fun side => (p.base V side).add x t) (Members.adding x) :=
  carries_call (.add x) t (fun _ _ _ _ => rfl) fun _ _ => ⟨rfl, trivial⟩

theorem carries_remove (x : String) (t : Token) :
    (p.view V).Carries faults.regime (p.hazard faults)
      (fun side => (p.base V side).remove x t) (Members.removing x) :=
  carries_call (.remove x) t (fun _ _ _ _ => rfl) fun _ _ => ⟨rfl, rfl⟩

theorem carries_contains (x : String) (t : Token) :
    (p.view V).Carries faults.regime (p.hazard faults)
      (fun side => (p.base V side).contains x t) (Members.finding x) :=
  carries_call (.contains x) t (fun _ _ _ _ => rfl) fun _ _ => ⟨rfl, rfl⟩

theorem carries_count (t : Token) :
    (p.view V).Carries faults.regime (p.hazard faults)
      (fun side => (p.base V side).count t) Members.counting :=
  carries_call .count t (fun _ _ _ _ => rfl) fun _ _ => ⟨rfl, rfl⟩

theorem carries_stream (t : Token) :
    (p.view V).Carries faults.regime (p.hazard faults)
      (fun side => (p.base V side).collect t) Members.streaming := by
  intro side w hw
  unfold SetStore.collect
  rw [Action.wp_bind]
  -- Listing puts back what the set holds.
  have hback : ∀ w', ((p.view V).scene (w'.perform (.set (p.index side) .members)).2) =
      (p.view V).scene w' := by
    intro w'
    rw [scene_perform]
    exact Scene.put_contents _ side
  refine View.wp_call (v := p.view V) rfl hw ?_ ?_ ?_
  · intro w' hw' hsame
    refine ⟨hw', .done (α := List String) _ ?_ ?_⟩
    · rw [← hsame]
      exact w'.arrangement.members_perm _
    · exact (hback w').trans (hsame.trans (Scene.put_contents _ side).symm)
  · intro cause w' hfrail hw' hblame
    exact ⟨hw', .failed cause hfrail hblame⟩
  · intro cause n a w' hfrail hw' hblame ha
    cases ha
    exact ⟨hw', .failed cause hfrail ((hback w').trans hblame)⟩

theorem carries_collect (t : Token) :
    (p.view V).Carries faults.regime (p.hazard faults)
      (fun side => (p.base V side).collect t) Members.listing :=
  (carries_stream t).mono rfl fun _ _ hperm _ => hperm.mem_iff.trans Std.ExtTreeSet.mem_toList

/-! ## Overwriting -/

section Overwriting

open Converge

variable {source target : Side}

/-- A walk that removes some members leaves the target without them, or without some of them. -/
theorem wp_removeMembers (t : Token) (xs : List String) (n : Tally) {T : MemberSet}
    (hw : (p.view V).Fit w) (hT : ((p.view V).scene w).contents target = T) :
    (Walk.each xs fun x => Walk.removing ((p.base V target).remove x t)).wp faults.regime
      (fun r _ w' => (p.view V).Fit w' ∧
        Scene.Wrote (p.hazard faults) (fun _ c => ∀ x, x ∈ c ↔ x ∈ T ∧ x ∉ xs)
          (fun c => ∀ x, (x ∈ c → x ∈ T) ∧ (x ∈ T → x ∉ xs → x ∈ c)) target
          ((p.view V).scene w) ((p.view V).scene w') r) n w := by
  induction xs generalizing w n T with
  | nil =>
    refine ⟨hw, .done () T (fun x => by simp) ?_⟩
    rw [← hT, Scene.put_contents]
    rfl
  | cons x xs ih =>
    unfold Walk.each
    rw [Walk.wp_bind, Walk.wp_removing]
    refine Action.wp_mono (carries_remove x t target w hw) ?_
    rintro r w₁ ⟨hw₁, first⟩
    cases first with
    | failed cause frail eq =>
      exact ⟨hw₁, .of_blame cause hT (fun x => ⟨id, fun h _ => h⟩) frail eq⟩
    | done a _ eq =>
      have hput : (p.view V).scene w₁ = ((p.view V).scene w).put target (T.erase x) := by
        rw [eq, hT]
        rfl
      have hT₁ : ((p.view V).scene w₁).contents target = T.erase x := by
        rw [hput, Scene.contents_put_self]
      rw [Walk.afterRemoving, Walk.andThen_ok]
      refine Walk.wp_mono (ih _ hw₁ hT₁) ?_
      rintro r _ w' ⟨hw', hwrote⟩
      rw [hput] at hwrote
      refine ⟨hw', hwrote.of_put.mono (fun _ c hc y => ?_) fun c hc y => ?_⟩
      · rw [hc y, Members.mem_erase_iff, List.mem_cons]
        grind
      · obtain ⟨hin, hout⟩ := hc y
        rw [Members.mem_erase_iff] at hin hout
        refine ⟨fun h => (hin h).2, fun hy hxs => ?_⟩
        rw [List.mem_cons, not_or] at hxs
        exact hout ⟨fun h => hxs.1 h.symm, hy⟩ hxs.2

/-- A walk that adds some members leaves the target with them, or with some of them. -/
theorem wp_addMembers (t : Token) (xs : List String) (n : Tally) {T : MemberSet}
    (hw : (p.view V).Fit w) (hT : ((p.view V).scene w).contents target = T) :
    (Walk.each xs fun x => (do
      (p.base V target).add x t
      Walk.wrote : Walk V Unit)).wp faults.regime
      (fun r _ w' => (p.view V).Fit w' ∧
        Scene.Wrote (p.hazard faults) (fun _ c => ∀ x, x ∈ c ↔ x ∈ T ∨ x ∈ xs)
          (fun c => ∀ x, (x ∈ T → x ∈ c) ∧ (x ∈ c → x ∈ T ∨ x ∈ xs)) target
          ((p.view V).scene w) ((p.view V).scene w') r) n w := by
  induction xs generalizing w n T with
  | nil =>
    refine ⟨hw, .done () T (fun x => by simp) ?_⟩
    rw [← hT, Scene.put_contents]
    rfl
  | cons x xs ih =>
    unfold Walk.each
    rw [Walk.wp_bind, Walk.wp_bind, Walk.wp_lift]
    refine Action.wp_mono (carries_add x t target w hw) ?_
    rintro r w₁ ⟨hw₁, first⟩
    cases first with
    | failed cause frail eq =>
      exact ⟨hw₁, .of_blame cause hT (fun x => ⟨id, .inl⟩) frail eq⟩
    | done a _ eq =>
      have hput : (p.view V).scene w₁ = ((p.view V).scene w).put target (T.insert x) := by
        rw [eq, hT]
        rfl
      have hT₁ : ((p.view V).scene w₁).contents target = T.insert x := by
        rw [hput, Scene.contents_put_self]
      rw [Walk.andThen_ok, Walk.wp_wrote, Walk.andThen_ok]
      refine Walk.wp_mono (ih _ hw₁ hT₁) ?_
      rintro r _ w' ⟨hw', hwrote⟩
      rw [hput] at hwrote
      refine ⟨hw', hwrote.of_put.mono (fun _ c hc y => ?_) fun c hc y => ?_⟩
      · rw [hc y, Members.mem_insert_iff, List.mem_cons]
        grind
      · obtain ⟨hin, hout⟩ := hc y
        rw [Members.mem_insert_iff] at hin hout
        refine ⟨fun h => hin (.inr h), fun h => ?_⟩
        rw [List.mem_cons]
        rcases hout h with (rfl | h) | h
        · exact .inr (.inl rfl)
        · exact .inl h
        · exact .inr (.inr h)

/-- Overwriting ends with the target equal to the source, or fails between the two. -/
theorem wp_overwriteWalk (t : Token) (n : Tally) {S T : MemberSet} (hw : (p.view V).Fit w)
    (hS : ((p.view V).scene w).contents source = S)
    (hT : ((p.view V).scene w).contents target = T) :
    (overwriteWalk (p.base V source) (p.base V target) t).wp faults.regime
      (fun r _ w' => (p.view V).Fit w' ∧
        Scene.Wrote (p.hazard faults) (fun _ c => c = S) (Members.Between S T) target
          ((p.view V).scene w) ((p.view V).scene w') r) n w := by
  unfold overwriteWalk
  rw [Walk.wp_bind, Walk.wp_lift]
  refine Action.wp_mono (carries_collect t source w hw) ?_
  rintro r w₁ ⟨hw₁, hsource⟩
  cases hsource with
  | failed cause frail eq =>
    exact ⟨hw₁, .of_blame cause hT (Members.between_target S T) frail eq⟩
  | done wanted hwanted eq =>
    have hsame₁ : (p.view V).scene w₁ = (p.view V).scene w :=
      eq.trans (Scene.put_contents _ source)
    rw [Walk.andThen_ok, Walk.wp_bind, Walk.wp_lift]
    refine Action.wp_mono (carries_collect t target w₁ hw₁) ?_
    rintro r w₂ ⟨hw₂, htarget⟩
    rw [hsame₁] at htarget
    cases htarget with
    | failed cause frail eq =>
      exact ⟨hw₂, .of_blame cause hT (Members.between_target S T) frail eq⟩
    | done present hpresent eq =>
      have hsame₂ : (p.view V).scene w₂ = (p.view V).scene w :=
        eq.trans (Scene.put_contents _ target)
      have hwanted : ∀ x, x ∈ wanted ↔ x ∈ S := by
        rw [← hS]
        exact hwanted
      have hpresent : ∀ x, x ∈ present ↔ x ∈ T := by
        rw [← hT]
        exact hpresent
      rw [Walk.andThen_ok, Walk.wp_bind]
      refine Walk.wp_mono (wp_removeMembers t _ n hw₂ (by rw [hsame₂, hT])) ?_
      rintro r n' w₃ ⟨hw₃, hremoved⟩
      rw [hsame₂] at hremoved
      cases hremoved with
      | failed cause side c hc frail worse =>
        refine ⟨hw₃, .failed cause side c ⟨fun x hx => .inr ((hc x).1 hx), ?_⟩ frail worse⟩
        intro x hx hs
        refine (hc x).2 hx ?_
        simp [(hwanted x).2 hs]
      | done _ c hc eq₃ =>
        -- The members in both have stayed.
        have hkept : ∀ x, x ∈ c ↔ x ∈ T ∧ x ∈ S := by
          intro x
          rw [hc x, List.mem_filter, hpresent, ← hwanted]
          simp only [Bool.not_eq_true', List.contains_eq_mem, decide_eq_false_iff_not, not_and,
            Decidable.not_not]
          exact ⟨fun h => ⟨h.1, h.2 h.1⟩, fun h => ⟨h.1, fun _ => h.2⟩⟩
        have hmembers : ∀ x, x ∈ wanted.eraseDups ↔ x ∈ S := by
          intro x
          rw [List.mem_eraseDups, hwanted]
        rw [Walk.andThen_ok]
        refine Walk.wp_mono (wp_addMembers t _ n' hw₃ (by rw [eq₃, Scene.contents_put_self])) ?_
        rintro r _ w₄ ⟨hw₄, hadded⟩
        rw [eq₃] at hadded
        refine ⟨hw₄, hadded.of_put.mono (fun _ c' hc' => ?_) fun c' hc' => ⟨?_, ?_⟩⟩
        · refine Std.ExtTreeSet.ext_mem fun x => ?_
          rw [hc' x, hkept x, hmembers x]
          exact ⟨fun h => h.elim And.right id, .inr⟩
        · intro x hx
          rcases (hc' x).2 hx with h | h
          · exact .inr ((hkept x).1 h).1
          · exact .inl ((hmembers x).1 h)
        · intro x ht hs
          exact (hc' x).1 ((hkept x).2 ⟨ht, hs⟩)

/-- Overwriting either set with the other converges. -/
theorem converges_overwrite (faults : Faults V) (limit : Nat) :
    (p.view V).Converges faults.regime (p.hazard faults) fun source target =>
      (overwriteSet limit).run (p.base V source) (p.base V target) none := by
  intro source target _ w hw
  change Action.wp _ (pure () >>= fun _ => drive _ _ _ _) _ w
  rw [pure_bind]
  refine View.wp_driveWriting _ _ hw fun w₁ hw₁ hsame => ?_
  refine Walk.wp_mono (wp_overwriteWalk none {} hw₁ (by rw [hsame]) (by rw [hsame])) ?_
  rintro r _ w' ⟨hw', hwrote⟩
  rw [hsame] at hwrote
  exact ⟨hw', hwrote⟩

end Overwriting

/-- The engine of two base sets that are overwritten with each other. -/
def engine (V : Type) (p : SetPair) (name : String) (limit : Nat) : Engine V (SetStore V) :=
  .root p.core name (p.base V .primary) (p.base V .secondary) (Converge.overwriteSet limit)

theorem runs_engine (name : String) (limit : Nat) :
    (p.view V).Runs faults.regime (p.hazard faults) (p.engine V name limit) where
  core := rfl
  recovery := rfl
  converges source target hne := by
    have h := converges_overwrite (V := V) (p := p) faults limit source target hne
    cases source <;> cases target <;> exact h

end SetPair

end TwinStore
