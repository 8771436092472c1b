import TwinStore.Program.Backend
import TwinStore.Proofs.Copying
import TwinStore.Proofs.PairedSets

/-!
# Pairs of base maps of sets

A key of a map of sets exists while it has a member, so what such a map holds is a `Roster` under
each of its keys. `SetMapPair.view` is the view of two base maps of sets that grant the listing of
their keys, and in which no set is empty or expires before a horizon. Operations on the set under a
key are those on a set, read as operations on the map (`Rosters.under`). A copy asks the source for
a way to its set under a key, and the target reads that set when it stores it
(`SetMapPair.keyed`).
-/

namespace TwinStore

variable {V : Type}

/-! ## Rosters -/

/-- The members under a key that exists. -/
@[ext] structure Roster where
  members : MemberSet
  occupied : members.isEmpty = false

namespace Roster

/-- A key whose last member goes does not exist any more. -/
def ofMembers (members : MemberSet) : Option Roster :=
  if h : members.isEmpty = false then some ⟨members, h⟩ else none

/-- A key that does not exist has no members. -/
def toMembers (r : Option Roster) : MemberSet :=
  r.elim ∅ members

@[simp] theorem toMembers_ofMembers (members : MemberSet) :
    toMembers (ofMembers members) = members := by
  unfold ofMembers
  split
  · rfl
  · rename_i h
    exact (Std.ExtTreeSet.isEmpty_iff.1 (Bool.not_eq_false _ ▸ h)).symm

@[simp] theorem ofMembers_toMembers (r : Option Roster) : ofMembers (toMembers r) = r := by
  cases r with
  | none => rfl
  | some r => exact dif_pos r.occupied

theorem isSome_ofMembers (members : MemberSet) :
    (ofMembers members).isSome = !members.isEmpty := by
  unfold ofMembers
  split <;> simp [*]

end Roster

namespace MemberMap

variable {m : MemberMap} {now horizon : Nat}

/-- No slot holds an empty set, and something holds of every deadline. -/
def Furnished (P : Option Nat → Prop) (m : MemberMap) : Prop :=
  m.Every fun slot => P slot.deadline ∧ slot.value.isEmpty = false

/-- No slot is expired at the horizon, and none holds an empty set. -/
def Tidy (m : MemberMap) (horizon : Nat) : Prop :=
  m.Every fun slot => slot.isExpired horizon = false ∧ slot.value.isEmpty = false

theorem isEmpty_insert (s : MemberSet) (x : String) : (s.insert x).isEmpty = false :=
  Std.ExtTreeSet.isEmpty_eq_false_iff.2 Std.ExtTreeSet.insert_ne_empty

namespace Furnished

variable {P : Option Nat → Prop}

theorem store (h : m.Furnished P) (hP : P none) (k : Key) (members : MemberSet) :
    (store m k members).Furnished P := by
  unfold MemberMap.store
  split
  · exact EntryMap.Every.erase h k
  · rename_i hm
    exact EntryMap.Every.insert h k ⟨hP, eq_false_of_ne_true hm⟩

theorem addMember (h : m.Furnished P) (hP : P none) (k : Key) (x : String) :
    (addMember m now k x).Furnished P := by
  unfold MemberMap.addMember
  split
  · rename_i slot hs
    split
    · exact EntryMap.Every.insert h k ⟨hP, isEmpty_insert _ x⟩
    · exact EntryMap.Every.insert h k ⟨(h k slot hs).1, isEmpty_insert _ x⟩
  · exact EntryMap.Every.insert h k ⟨hP, isEmpty_insert _ x⟩

theorem removeMember (h : m.Furnished P) (k : Key) (x : String) :
    (removeMember m now k x).2.Furnished P := by
  unfold MemberMap.removeMember
  split
  · rename_i slot hs
    split
    · exact h
    · dsimp only
      split
      · exact EntryMap.Every.erase h k
      · rename_i hrest
        exact EntryMap.Every.insert h k ⟨(h k slot hs).1, eq_false_of_ne_true hrest⟩
  · exact h

theorem ofList (hP : P none) (entries : List (Key × List String)) :
    (ofList entries).Furnished P := by
  have h : ∀ m : MemberMap, m.Furnished P → (entries.foldl (fun m entry =>
      MemberMap.store m entry.1 (Std.ExtTreeSet.ofList entry.2)) m).Furnished P := by
    induction entries with
    | nil => exact fun m hm => hm
    | cons entry entries ih => exact fun m hm => ih _ (hm.store hP entry.1 _)
  exact h {} EntryMap.every_empty

/-- The keys with a member are those under which there is a live set. -/
theorem isSome_live? (h : m.Furnished P) (now : Nat) (k : Key) :
    (m.live? now k).isSome = !(m.liveMembers now k).isEmpty := by
  unfold liveMembers
  cases hl : m.live? now k with
  | none => rw [Option.getD_none, Std.ExtTreeSet.isEmpty_empty]; rfl
  | some members =>
    obtain ⟨slot, hs, -, rfl⟩ := (m.live?_eq_some_iff now).1 hl
    rw [Option.getD_some, (h k slot hs).2]
    rfl

end Furnished

theorem Tidy.outlasts (h : m.Tidy horizon) : m.Outlasts horizon :=
  fun k slot hs => (h k slot hs).1

theorem Tidy.furnished (h : m.Tidy horizon) :
    m.Furnished fun deadline => deadline.any (· ≤ horizon) = false := h

theorem Tidy.store (h : m.Tidy horizon) (k : Key) (members : MemberSet) :
    (store m k members).Tidy horizon :=
  h.furnished.store rfl k members

theorem Tidy.addMember (h : m.Tidy horizon) (k : Key) (x : String) :
    (addMember m now k x).Tidy horizon :=
  h.furnished.addMember rfl k x

theorem Tidy.removeMember (h : m.Tidy horizon) (k : Key) (x : String) :
    (removeMember m now k x).2.Tidy horizon :=
  h.furnished.removeMember k x

theorem tidy_ofList (entries : List (Key × List String)) (horizon : Nat) :
    (ofList entries).Tidy horizon :=
  Furnished.ofList (P := fun deadline => deadline.any (· ≤ horizon) = false) rfl entries

/-- The members under every key. -/
def rosters (m : MemberMap) (now : Nat) : Entries Roster :=
  fun k => Roster.ofMembers (liveMembers m now k)

/-- In a tidy map, the keys with a member are those under which there is a live set. -/
theorem Tidy.isSome_rosters (h : m.Tidy horizon) (k : Key) :
    (m.rosters now k).isSome = (m.live? now k).isSome :=
  (Roster.isSome_ofMembers _).trans (h.furnished.isSome_live? now k).symm

/-- Until the horizon, time does not matter. -/
theorem Tidy.rosters_eq {now' : Nat} (h : m.Tidy horizon) (hnow : now ≤ horizon)
    (hnow' : now' ≤ horizon) : m.rosters now = m.rosters now' := by
  funext k
  unfold rosters liveMembers
  rw [h.outlasts.live? hnow, h.outlasts.live? hnow']

theorem rosters_evict (m : MemberMap) (now : Nat) (k : Key) :
    rosters (m.evict now k) now = m.rosters now := by
  funext k'
  unfold rosters liveMembers
  rw [m.live?_evict]

theorem rosters_erase (m : MemberMap) (now : Nat) (k : Key) :
    rosters ⟨m.slots.erase k⟩ now = (m.rosters now).set k none := by
  funext k'
  unfold rosters liveMembers Entries.set
  rw [m.live?_erase]
  split <;> rfl

theorem rosters_store (m : MemberMap) (now : Nat) (k : Key) (members : MemberSet) :
    rosters (m.store k members) now = (m.rosters now).set k (Roster.ofMembers members) := by
  funext k'
  unfold rosters Entries.set
  rw [m.liveMembers_store]
  split <;> rfl

theorem rosters_addMember (m : MemberMap) (now : Nat) (k : Key) (x : String) :
    rosters (m.addMember now k x) now = (m.rosters now).set k
      (Roster.ofMembers ((Roster.toMembers (m.rosters now k)).insert x)) := by
  funext k'
  unfold rosters Entries.set
  rw [m.liveMembers_addMember, Roster.toMembers_ofMembers]
  split <;> rfl

theorem rosters_removeMember (m : MemberMap) (now : Nat) (k : Key) (x : String) :
    rosters (m.removeMember now k x).2 now = (m.rosters now).set k
      (Roster.ofMembers ((Roster.toMembers (m.rosters now k)).erase x)) := by
  funext k'
  unfold rosters Entries.set
  rw [m.liveMembers_removeMember, Roster.toMembers_ofMembers]
  split <;> rfl

end MemberMap

/-! ## What operations do to what a map of sets holds -/

/-- What an operation does to what a set holds, and what it answers. -/
def SetOp.effect : (op : SetOp) → Effect MemberSet op.Answer
  | .add x => Members.adding x
  | .remove x => Members.removing x
  | .members =>
    { after := id
      answers := fun c xs => xs.failure = none ∧ Members.listing.answers c xs.items }
  | .contains x => Members.finding x
  | .count => Members.counting

namespace Rosters

variable {α : Type}

/-- Do something to the set under a key. -/
def under (k : Key) (e : Effect MemberSet α) : Effect (Entries Roster) α where
  after c := c.update k fun r => Roster.ofMembers (e.after (Roster.toMembers r))
  answers c a := e.answers (Roster.toMembers (c k)) a

/-- Store a whole set under a key; a set that is there is replaced only if it may be overwritten. -/
def storing (k : Key) (members : MemberSet) (overwrite : Bool) : Effect (Entries Roster) Bool where
  after c := c.update k fun r =>
    if !overwrite && r.isSome then r else Roster.ofMembers members
  answers c a := a = !(!overwrite && (c k).isSome)

/-- Ask whether a whole set may be stored under a key. -/
def admitting (k : Key) (overwrite : Bool) : Effect (Entries Roster) Bool where
  after := id
  answers c a := a = !(!overwrite && (c k).isSome)

/-- Ask for a way to the set under a key: to a base map's, the direct one. -/
def reaching : Effect (Entries Roster) Route where
  after := id
  answers _ route := route = .direct

/-- What leaves a set as it is leaves the map as it is. -/
theorem under_after_of_eq (k : Key) {e : Effect MemberSet α} {c : Entries Roster}
    (h : e.after (Roster.toMembers (c k)) = Roster.toMembers (c k)) : (under k e).after c = c := by
  refine Entries.update_of_eq (fun r => Roster.ofMembers (e.after (Roster.toMembers r))) ?_
  rw [h, Roster.ofMembers_toMembers]

theorem under_after_of_read (k : Key) {e : Effect MemberSet α} (h : e.after = id) :
    (under k e).after = id :=
  funext fun _ => under_after_of_eq k (congrFun h _)

/-- What is under a key in the end depends on what was there. -/
theorem under_after_congr (k : Key) (e : Effect MemberSet α) {c c' : Entries Roster} {k' : Key}
    (h : c k' = c' k') : (under k e).after c k' = (under k e).after c' k' :=
  Entries.update_congr k (fun r => Roster.ofMembers (e.after (Roster.toMembers r))) h

section Storing

variable {k : Key} {members : MemberSet} {overwrite : Bool} {c : Entries Roster}

theorem storing_after_congr {c' : Entries Roster} {k' : Key} (h : c k' = c' k') :
    (storing k members overwrite).after c k' = (storing k members overwrite).after c' k' :=
  Entries.update_congr k
    (fun r => if !overwrite && r.isSome then r else Roster.ofMembers members) h

theorem storing_after_of_kept (h : (!overwrite && (c k).isSome) = true) :
    (storing k members overwrite).after c = c :=
  Entries.update_of_eq (fun r => if !overwrite && r.isSome then r else Roster.ofMembers members)
    (if_pos h)

theorem storing_after_of_free (h : (!overwrite && (c k).isSome) = false) :
    (storing k members overwrite).after c = c.set k (Roster.ofMembers members) :=
  congrArg (c.set k) (if_neg (Bool.eq_false_iff.1 h))

end Storing

end Rosters

/-! ## The view -/

/-- Two base maps of sets and a health record, up to a horizon. -/
structure SetMapPair extends BasePair where
  horizon : Nat

namespace SetMapPair

variable (p : SetMapPair)

/-- The members under a key of the map on a side. -/
def members (w : World V) (side : Side) (k : Key) : MemberSet :=
  MemberMap.liveMembers (w.setMaps.nth (p.index side)).content w.clock k

/-- The map on a side lists its keys, and its sets have members and do not expire before the
horizon. -/
structure Holds (w : World V) (side : Side) : Prop where
  tidy : (w.setMaps.nth (p.index side)).content.Tidy p.horizon
  lists : (w.setMaps.nth (p.index side)).grants.keys = true

/-- Two base maps of sets, seen by the members under their keys. -/
def view (V : Type) : View V (Entries Roster) where
  core := p.core
  site side := .setMap (p.index side)
  contents w side := (w.setMaps.nth (p.index side)).content.rosters w.clock
  Fit w := w.clock ≤ p.horizon ∧ ∀ side, p.Holds w side
  contents_congr := by
    intro w w' h
    simp only [World.stores, Prod.mk.injEq] at h
    rw [h.1, h.2.2.2.1]
  fit_congr := by
    intro w w' h
    simp only [World.stores, Prod.mk.injEq] at h
    rintro ⟨hclock, hholds⟩
    refine ⟨h.1 ▸ hclock, fun side => ⟨?_, ?_⟩⟩
    · rw [h.2.2.2.1]
      exact (hholds side).tidy
    · rw [h.2.2.2.1]
      exact (hholds side).lists
  site_injective h := p.index_injective (Site.setMap.inj h)

/-- What may go wrong with two base maps of sets. -/
def hazard (faults : Faults V) : Hazard (Entries Roster) :=
  (p.view V).hazard faults Entries.Mixed

/-- The base map of sets on a side. -/
def base (V : Type) (p : SetMapPair) (side : Side) : SetMapStore V :=
  Backend.setMap (p.index side)

/-- The set under a key of the base map on a side. -/
def baseSet (V : Type) (p : SetMapPair) (side : Side) (k : Key) : SetStore V :=
  Backend.setUnder (p.index side) k

/-! ## Calls -/

variable {p} {w : World V} {side : Side} {faults : Faults V}

/-- Writing the map on a side puts its rosters into the scene. -/
theorem scene_put (w : World V) (side : Side) (b : Base MemberMap) :
    (p.view V).scene { w with setMaps := w.setMaps.put (p.index side) b } =
      ((p.view V).scene w).put side (b.content.rosters w.clock) := by
  ext side' : 2
  · by_cases he : side' = side
    · subst he
      rw [Scene.contents_put_self]
      simp [View.scene, view]
    · have hne : p.index side ≠ p.index side' := fun h => he (p.index_injective h).symm
      rw [Scene.contents_put_of_ne _ _ he]
      simp [View.scene, view, Shelf.nth_put_of_ne _ _ hne]
  · rfl
  · rfl

theorem fit_put (hw : (p.view V).Fit w) (side : Side) {b : Base MemberMap}
    (htidy : b.content.Tidy p.horizon) (hlists : b.grants.keys = true) :
    (p.view V).Fit { w with setMaps := w.setMaps.put (p.index side) b } := by
  refine ⟨hw.1, fun side' => ?_⟩
  by_cases he : side' = side
  · subst he
    refine ⟨?_, ?_⟩
    · simpa using htidy
    · simpa using hlists
  · have hne : p.index side ≠ p.index side' := fun h => he (p.index_injective h).symm
    refine ⟨?_, ?_⟩
    · simpa [Shelf.nth_put_of_ne _ _ hne] using (hw.2 side').tidy
    · simpa [Shelf.nth_put_of_ne _ _ hne] using (hw.2 side').lists

/-- An operation on a map does to the members under its keys what its effect says, and keeps the map
tidy. -/
def Applies (op : SetMapOp) (eff : Effect (Entries Roster) op.Answer) : Prop :=
  ∀ (arrangement : Arrangement) (now date horizon : Nat) (m : MemberMap), m.Tidy horizon →
    (op.apply arrangement now date m).2.Tidy horizon ∧
      (op.apply arrangement now date m).2.rosters now = eff.after (m.rosters now) ∧
      eff.answers (m.rosters now) (op.apply arrangement now date m).1

/-- Carrying a call out does to its map what the operation does. -/
theorem perform_applies {op : SetMapOp} {eff : Effect (Entries Roster) op.Answer}
    (h : Applies op eff) (hw : (p.view V).Fit w) (side : Side) :
    (p.view V).Fit (w.perform (.setMap (p.index side) op)).2 ∧
      (p.view V).scene (w.perform (.setMap (p.index side) op)).2 = ((p.view V).scene w).put side
        (eff.after (((p.view V).scene w).contents side)) ∧
      eff.answers (((p.view V).scene w).contents side)
        (w.perform (.setMap (p.index side) op)).1 := by
  obtain ⟨htidy, hafter, hanswers⟩ := h w.arrangement w.clock w.date p.horizon _ (hw.2 side).tidy
  refine ⟨fit_put hw side htidy (hw.2 side).lists, ?_, hanswers⟩
  exact (scene_put w side _).trans (congrArg _ hafter)

/-- A call does to what its map holds what the operation does to the map, or fails. -/
theorem carries_call (op : SetMapOp) {eff : Effect (Entries Roster) op.Answer} (t : Token)
    (hwhole : ∀ i n cause a, (Call.setMap (V := V) i op).failAfter n cause a = none)
    (happly : Applies op eff) :
    (p.view V).Carries faults.regime (p.hazard faults)
      (fun side => Backend.onSetMap (p.index side) op t) eff := by
  intro side w hw
  refine View.wp_call (v := p.view V) rfl hw ?_ ?_ ?_
  · intro w' hw' hsame
    obtain ⟨hfit, hscene, hanswers⟩ := perform_applies happly hw' side
    rw [hsame] at hscene hanswers
    exact ⟨hfit, .done _ hanswers hscene⟩
  · intro cause w' hfrail hw' hblame
    exact ⟨hw', .failed cause hfrail hblame⟩
  · intro cause n a w' _ _ _ ha
    rw [hwhole] at ha
    cases ha

theorem carries_remove (k : Key) (t : Token) :
    (p.view V).Carries faults.regime (p.hazard faults)
      (fun side => (p.base V side).remove k t) (Entries.removing k) := by
  refine carries_call (.remove k) t (fun _ _ _ _ => rfl) fun _ now _ _ m hm => ?_
  exact ⟨EntryMap.Every.erase hm k, m.rosters_erase now k, (hm.isSome_rosters k).symm⟩

theorem carries_contains (k : Key) (t : Token) :
    (p.view V).Carries faults.regime (p.hazard faults)
      (fun side => (p.base V side).contains k t) (Entries.finding k) := by
  refine carries_call (.contains k) t (fun _ _ _ _ => rfl) fun _ now _ _ m hm => ?_
  exact ⟨EntryMap.Every.evict hm k, m.rosters_evict now k, (hm.isSome_rosters k).symm⟩

theorem carries_vet (k : Key) (overwrite : Bool) (t : Token) :
    (p.view V).Carries faults.regime (p.hazard faults)
      (fun side => Backend.onSetMap (p.index side) (.add k overwrite) t)
      (Rosters.admitting k overwrite) := by
  refine carries_call (.add k overwrite) t (fun _ _ _ _ => rfl) fun _ now _ _ m hm => ?_
  refine ⟨?_, ?_, ?_⟩
  · cases overwrite
    · exact EntryMap.Every.evict hm k
    · exact hm
  · cases overwrite
    · exact m.rosters_evict now k
    · rfl
  · change (overwrite || !(m.live? now k).isSome) = !(!overwrite && (m.rosters now k).isSome)
    rw [hm.isSome_rosters, Bool.not_and, Bool.not_not]

theorem carries_route (k : Key) (t : Token) :
    (p.view V).Carries faults.regime (p.hazard faults)
      (fun side => (p.base V side).route k t) Rosters.reaching := by
  intro side w hw
  change Action.wp _
    (Backend.onSetMap (p.index side) (.reach k) t >>= fun _ => pure Route.direct) _ w
  rw [Action.wp_bind]
  refine View.wp_call (v := p.view V) rfl hw ?_ ?_ ?_
  · intro w' hw' hsame
    refine ⟨fit_put hw' side (hw'.2 side).tidy (hw'.2 side).lists, .done Route.direct rfl ?_⟩
    exact (scene_put w' side _).trans (hsame ▸ rfl)
  · intro cause w' hfrail hw' hblame
    exact ⟨hw', .failed cause hfrail hblame⟩
  · intro cause n a w' _ _ _ ha
    cases ha

theorem carries_seek (k : Key) (t : Token) :
    (p.view V).Carries faults.regime (p.hazard faults)
      (fun side => Backend.onSetMap (p.index side) (.get k) t) (Entries.finding k) := by
  refine carries_call (.get k) t (fun _ _ _ _ => rfl) fun _ now _ _ m hm => ?_
  exact ⟨EntryMap.Every.evict hm k, m.rosters_evict now k, (hm.isSome_rosters k).symm⟩

/-! ## Members under a key -/

/-- An operation on the set under a key does to that set what it does to a set. -/
theorem applies_member (k : Key) (op : SetOp) :
    Applies (.member k op) (Rosters.under k op.effect) := by
  intro arrangement now date horizon m hm
  have hmembers : Roster.toMembers (m.rosters now k) = m.liveMembers now k :=
    Roster.toMembers_ofMembers _
  have hread : ∀ {α : Type} {e : Effect MemberSet α}, e.after = id →
      m.rosters now = (Rosters.under k e).after (m.rosters now) := fun h =>
    (Rosters.under_after_of_eq k (congrFun h _)).symm
  cases op with
  | add x => exact ⟨hm.addMember k x, m.rosters_addMember now k x, trivial⟩
  | remove x =>
    refine ⟨hm.removeMember k x, m.rosters_removeMember now k x, ?_⟩
    change (m.removeMember now k x).1 = (Roster.toMembers (m.rosters now k)).contains x
    rw [hmembers, m.removeMember_fst]
    rfl
  | members =>
    refine ⟨EntryMap.Every.evict hm k, (m.rosters_evict now k).trans (hread rfl), rfl, fun x => ?_⟩
    change x ∈ arrangement.members (m.liveMembers now k).toList ↔ _
    rw [(arrangement.members_perm _).mem_iff, Std.ExtTreeSet.mem_toList, hmembers]
  | contains x =>
    refine ⟨hm, hread rfl, ?_⟩
    change (m.liveMembers now k).contains x = (Roster.toMembers (m.rosters now k)).contains x
    rw [hmembers]
  | count =>
    refine ⟨EntryMap.Every.evict hm k, (m.rosters_evict now k).trans (hread rfl), ?_⟩
    change (m.liveMembers now k).size = (Roster.toMembers (m.rosters now k)).size
    rw [hmembers]

/-- An operation on the set under a key, unless it lists the members. -/
theorem carries_member (k : Key) (op : SetOp) (t : Token) (hop : op ≠ .members) :
    (p.view V).Carries faults.regime (p.hazard faults)
      (fun side => Backend.onSetMap (p.index side) (.member k op) t)
      (Rosters.under k op.effect) := by
  refine carries_call (.member k op) t (fun _ _ _ _ => ?_) (applies_member k op)
  cases op with
  | members => exact absurd rfl hop
  | _ => rfl

theorem carries_collect (k : Key) (t : Token) :
    (p.view V).Carries faults.regime (p.hazard faults)
      (fun side => (p.baseSet V side k).collect t) (Rosters.under k Members.listing) := by
  intro side w hw
  unfold SetStore.collect
  rw [Action.wp_bind]
  refine View.wp_call (v := p.view V) rfl hw ?_ ?_ ?_
  · intro w' hw' hsame
    obtain ⟨hfit, hscene, hanswers⟩ := perform_applies (applies_member k .members) hw' side
    rw [hsame] at hscene hanswers
    exact ⟨hfit, .done (α := List String) _ hanswers.2 hscene⟩
  · intro cause w' hfrail hw' hblame
    exact ⟨hw', .failed cause hfrail hblame⟩
  · intro cause n a w' hfrail hw' hblame ha
    cases ha
    obtain ⟨hfit, hscene, -⟩ := perform_applies (applies_member k .members) hw' side
    have hread : (Rosters.under k SetOp.members.effect).after
        (((p.view V).scene w').contents side) = ((p.view V).scene w').contents side :=
      Rosters.under_after_of_eq k rfl
    rw [hread, Scene.put_contents, hblame] at hscene
    exact ⟨hfit, .failed cause hfrail hscene⟩

/-! ## Whole sets -/

theorem ofList_eq {xs : List String} {members : MemberSet} (h : ∀ x, x ∈ xs ↔ x ∈ members) :
    Std.ExtTreeSet.ofList xs = members := by
  refine Std.ExtTreeSet.ext_mem fun x => ?_
  rw [Std.ExtTreeSet.mem_ofList, List.contains_iff_mem]
  exact h x

theorem storeSet_applies (hw : (p.view V).Fit w) (side : Side) (k : Key) {xs : List String}
    {members : MemberSet} (hxs : ∀ x, x ∈ xs ↔ x ∈ members) :
    (p.view V).Fit (w.storeSet (p.index side) k xs) ∧
      (p.view V).scene (w.storeSet (p.index side) k xs) = ((p.view V).scene w).put side
        ((((p.view V).scene w).contents side).set k (Roster.ofMembers members)) := by
  refine ⟨fit_put hw side ((hw.2 side).tidy.store k _) (hw.2 side).lists, ?_⟩
  refine (scene_put w side _).trans (congrArg _ ?_)
  rw [← ofList_eq hxs]
  exact MemberMap.rosters_store _ _ _ _

/-- A whole set is stored once the key is free and the set has been read. -/
theorem wp_addSet {k : Key} {value : SetStore V} {overwrite : Bool} {t : Token}
    {post : Except Halt Bool → World V → Prop} (hw : (p.view V).Fit w)
    (failed : ∀ cause w', (p.hazard faults).frail side → (p.view V).Fit w' →
      (p.view V).scene w' = ((p.view V).scene w).blame side → post (.error (.failed cause)) w')
    (refused : ∀ w', (p.view V).Fit w' → (p.view V).scene w' = (p.view V).scene w →
      (!overwrite && (((p.view V).scene w).contents side k).isSome) = true → post (.ok false) w')
    (accepted : ∀ w₁, (p.view V).Fit w₁ → (p.view V).scene w₁ = (p.view V).scene w →
      (!overwrite && (((p.view V).scene w).contents side k).isSome) = false →
      (value.collect t).wp faults.regime (fun r w₂ =>
        match r with
        | .ok xs => post (.ok true) (w₂.storeSet (p.index side) k xs)
        | .error halt => post (.error halt) w₂) w₁) :
    (Backend.addSet (p.index side) k value overwrite t).wp faults.regime post w := by
  unfold Backend.addSet
  rw [Action.wp_bind]
  refine Action.wp_mono (carries_vet k overwrite t side w hw) ?_
  rintro r w₁ ⟨hw₁, admitted⟩
  cases admitted with
  | failed cause frail eq => exact failed cause w₁ frail hw₁ eq
  | done a answers eq =>
    have hsame : (p.view V).scene w₁ = (p.view V).scene w :=
      eq.trans (Scene.put_contents _ side)
    have ha : a = !(!overwrite && (((p.view V).scene w).contents side k).isSome) := answers
    rw [Action.andThen_ok]
    cases a with
    | false => exact refused w₁ hw₁ hsame ((Bool.not_eq_false' _).mp ha.symm)
    | true =>
      rw [if_pos rfl, Action.wp_bind]
      refine Action.wp_mono (accepted w₁ hw₁ hsame ((Bool.not_eq_true' _).mp ha.symm)) ?_
      rintro (halt | xs) w₂ hpost <;> exact hpost

/-- A set of the caller's own shows its members without asking any store. -/
theorem wp_collect_ofMembers {g : Regime V} (members : MemberSet) (t : Token)
    (post : Except Halt (List String) → World V → Prop) :
    ((SetStore.ofMembers members).collect t).wp g post w ↔ post (.ok members.toList) w := Iff.rfl

theorem carries_add (k : Key) (members : MemberSet) (overwrite : Bool) (t : Token) :
    (p.view V).Carries faults.regime (p.hazard faults)
      (fun side => (p.base V side).add k (.ofMembers members) overwrite t)
      (Rosters.storing k members overwrite) := by
  intro side w hw
  refine wp_addSet hw (fun cause w' hfrail hw' hblame => ⟨hw', .failed cause hfrail hblame⟩) ?_ ?_
  · intro w' hw' hsame hkept
    refine ⟨hw', .done false (congrArg (!·) hkept).symm ?_⟩
    rw [hsame, Rosters.storing_after_of_kept hkept, Scene.put_contents]
  · intro w₁ hw₁ hsame hfree
    rw [wp_collect_ofMembers]
    obtain ⟨hw₂, hstored⟩ := storeSet_applies hw₁ side k
      (fun x => Std.ExtTreeSet.mem_toList (t := members) (k := x))
    refine ⟨hw₂, .done true (congrArg (!·) hfree).symm ?_⟩
    rw [hstored, hsame, Rosters.storing_after_of_free hfree]

/-! ## Copies -/

/-- The keys that a map lists are those with a member. -/
theorem mem_listed (hw : (p.view V).Fit w) (side : Side) (k : Key) :
    k ∈ w.arrangement.keys ((w.setMaps.nth (p.index side)).content.keys w.clock) ↔
      (((p.view V).scene w).contents side k).isSome := by
  rw [(w.arrangement.keys_perm _).mem_iff, EntryMap.mem_keys_iff]
  exact iff_of_eq (congrArg (· = true) ((hw.2 side).tidy.isSome_rosters k).symm)

theorem wp_keys (t : Token) (hw : (p.view V).Fit w) (side : Side) :
    ((p.base V side).keys t).wp faults.regime (fun r w' => (p.view V).Fit w' ∧
      Scene.Listed (p.hazard faults) side ((p.view V).scene w) ((p.view V).scene w') r) w := by
  -- Listing puts back what the map holds.
  have hback : ∀ w', (p.view V).scene (w'.perform (.setMap (p.index side) .keys)).2 =
      (p.view V).scene w' :=
    fun w' => (scene_put w' side _).trans (Scene.put_contents _ side)
  have hlists := View.wp_listing (v := p.view V) (c := .setMap (p.index side) .keys)
    (t := t) faults Entries.Mixed rfl id
    (fun w' hw' => ⟨fit_put hw' side (hw'.2 side).tidy (hw'.2 side).lists, hback w', _, rfl,
      mem_listed hw' side⟩)
    (fun _ _ _ _ h => (Option.some.inj h).symm) hw
  refine Action.wp_mono hlists ?_
  rintro (halt | l) w' hlisted <;> exact hlisted

/-- What is read stands for the set under its key, on the side where it was read. -/
theorem keyed (p : SetMapPair) (faults : Faults V) :
    (p.view V).Keyed faults.regime (p.hazard faults) (fun side => (p.base V side).toKeyedStore)
      fun side k _ value => value = p.baseSet V side k where
  canList side w hw := by
    change ((w.setMaps.nth (p.index side)).grants.keys, w) = (true, w)
    rw [(hw.2 side).lists]
  keys side t w hw := wp_keys t hw side
  get side k t w hw := by
    change Action.wp _ ((do
      if ← Backend.onSetMap (p.index side) (.get k) t then return some Route.direct
      else return none) >>= fun route => pure (route.map fun _ => p.baseSet V side k)) _ w
    rw [Action.wp_bind, Action.wp_bind]
    refine Action.wp_mono (carries_seek k t side w hw) ?_
    rintro r w' ⟨hw', sought⟩
    cases sought with
    | failed cause frail eq => exact ⟨hw', .failed cause frail eq⟩
    | done a answers eq =>
      have ha : a = (((p.view V).scene w).contents side k).isSome := answers
      rw [Action.andThen_ok]
      cases a with
      | false =>
        have hnone := Option.isNone_iff_eq_none.1 (Option.isSome_eq_false_iff.1 ha.symm)
        exact ⟨hw', .done none (.inl ⟨hnone, rfl⟩) eq⟩
      | true =>
        obtain ⟨x, hx⟩ := Option.isSome_iff_exists.1 ha.symm
        exact ⟨hw', .done (some (p.baseSet V side k)) (.inr ⟨x, _, hx, rfl, rfl⟩) eq⟩
  add source target k x value t w hne hstands hw hx := by
    cases hstands
    refine wp_addSet hw ?_ ?_ ?_
    · intro cause w' hfrail hw' hblame
      exact ⟨hw', .of_blame cause rfl rfl hfrail hblame⟩
    · intro w' _ _ hkept
      cases hkept
    · intro w₁ hw₁ hsame _
      refine Action.wp_mono (carries_collect k t source w₁ hw₁) ?_
      rintro r w₂ ⟨hw₂, collected⟩
      rw [hsame] at collected
      cases collected with
      | failed cause frail eq => exact ⟨hw₂, .of_blame cause rfl rfl frail eq⟩
      | done xs answers eq =>
        have hxs : ∀ y, y ∈ xs ↔ y ∈ x.members := by
          have hmembers :
              Roster.toMembers (((p.view V).scene w).contents source k) = x.members := by
            rw [hx]
            rfl
          rw [← hmembers]
          exact answers
        have hback : (p.view V).scene w₂ = (p.view V).scene w := by
          rw [eq, Rosters.under_after_of_eq k rfl, Scene.put_contents]
        obtain ⟨hw₃, hstored⟩ := storeSet_applies hw₂ target k hxs
        rw [hback] at hstored
        exact ⟨hw₃, .done true _ (congrArg _ (Roster.ofMembers_toMembers (some x))) hstored⟩
  remove k t := carries_remove k t

theorem carries_collectKeys (role : String) (t : Token) :
    (p.view V).Carries faults.regime (p.hazard faults)
      (fun side => (p.base V side).collectKeys role t) Entries.listing :=
  (keyed p faults).carries_collectKeys role t

/-- The engine of two base maps of sets that converge by copies. -/
def engine (V : Type) (p : SetMapPair) (name : String) (limit : Nat) :
    Engine V (SetMapStore V) :=
  .root p.core name (p.base V .primary) (p.base V .secondary)
    ((Converge.Strategy.copy.synchronizer limit).contramap SetMapStore.toKeyedStore)

theorem runs_engine (name : String) (limit : Nat) :
    (p.view V).Runs faults.regime (p.hazard faults) (p.engine V name limit) where
  core := rfl
  recovery := rfl
  converges source target hne := by
    have h := (keyed (V := V) p faults).converges_copy (fun _ _ _ h => h) limit source target hne
    cases source <;> cases target <;> exact h

end SetMapPair

end TwinStore
