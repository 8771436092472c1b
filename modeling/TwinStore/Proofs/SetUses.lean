import TwinStore.Proofs.Moments
import TwinStore.Proofs.PairedSetMaps
import TwinStore.Proofs.Stands
import TwinStore.Proofs.Turns

/-!
# What callers ask of maps of sets, and what base maps of sets do

Callers of several maps of sets may ask something of one of the maps or of a set that one of them
has handed out earlier, and may store a set of the latter kind under a key (`SetUse`). What has been
handed out is kept (`Custody`): a set is used in turns that may come long after.

On base maps of sets, where no call fails, a use answers and leaves what the members under its key
decide. What the members under a key become is said by `Stand.Becomes`, which also says that nothing
else changes; a map stays `Populated`: no set in it is empty, so that a key exists exactly while it
has a member.
-/

namespace TwinStore

variable {V ι α : Type}

/-! ## Uses -/

/-- A set that one of several maps has handed out: which map, under which key, and the way that was
found to it. -/
structure Lent (ι : Type) where
  map : ι
  key : Key
  route : Route

/-- A whole set to be stored: one of the caller's own, or one that was handed out in the given
place. -/
inductive Whole where
  | own (members : MemberSet)
  | lent (place : Nat)

/-- What a caller may ask of several maps of sets, or of a set that one of them has handed out. -/
inductive SetUse (ι : Type) where
  | add (map : ι) (key : Key) (value : Whole) (overwrite : Bool)
  | remove (map : ι) (key : Key)
  | contains (map : ι) (key : Key)
  | keys (map : ι)
  /-- Hand out the set under a key, if the key exists. -/
  | find (map : ι) (key : Key)
  /-- Hand out the set under a key. -/
  | reach (map : ι) (key : Key)
  | expire (map : ι) (key : Key) (ttl : Nat)
  | expireAt (map : ι) (key : Key) (instant : Nat)
  /-- Ask something of the set that was handed out in the given place. -/
  | member (place : Nat) (op : SetOp)

/-- The set that was handed out. -/
def Lent.follow (maps : ι → SetMapStore V) (l : Lent ι) : SetStore V :=
  (maps l.map).follow l.key l.route

/-- The set to be stored. Where nothing was handed out there is nothing to store. -/
def Whole.set (maps : ι → SetMapStore V) (lent : List (Lent ι)) : Whole → SetStore V
  | .own members => .ofMembers members
  | .lent place => (lent[place]?.map (Lent.follow maps)).getD (.ofMembers ∅)

/-- The key of the set to be stored, if that is one that was handed out. -/
def Whole.keys (lent : List (Lent ι)) : Whole → List Key
  | .own _ => []
  | .lent place => (lent[place]?.map Lent.key).toList

namespace SetUse

/-- What a use answers; none if nothing was handed out in the place. -/
@[reducible] def Answer : SetUse ι → Type
  | .keys _ => Listing Key
  | .find _ _ => Option Route
  | .reach _ _ => Route
  | .member _ op => Option op.Answer
  | _ => Bool

/-- Serve a caller, given what has been handed out so far. -/
def on (maps : ι → SetMapStore V) (lent : List (Lent ι)) (t : Token) :
    (use : SetUse ι) → Action V use.Answer
  | .add i k value overwrite => (maps i).add k (value.set maps lent) overwrite t
  | .remove i k => (maps i).remove k t
  | .contains i k => (maps i).contains k t
  | .keys i => (maps i).keys t
  | .find i k => (maps i).find k t
  | .reach i k => (maps i).route k t
  | .expire i k ttl => (maps i).expire k ttl t
  | .expireAt i k instant => (maps i).expireAt k instant t
  | .member place op =>
    match lent[place]? with
    | some l => do return some (← op.on (l.follow maps) t)
    | none => return none

section Member

variable {maps : ι → SetMapStore V} {lent : List (Lent ι)} {t : Token} {place : Nat} {op : SetOp}

theorem on_member_of_none (h : lent[place]? = none) :
    (member place op).on maps lent t = pure none := by
  simp only [on, h]

theorem on_member_of_some {l : Lent ι} (h : lent[place]? = some l) :
    (member place op).on maps lent t = (do return some (← op.on (l.follow maps) t)) := by
  simp only [on, h]

end Member

/-- What an answer hands out. -/
def handed : (use : SetUse ι) → use.Answer → List (Lent ι)
  | .find i k, route => (route.map (Lent.mk i k)).toList
  | .reach i k, route => [⟨i, k, route⟩]
  | _, _ => []

/-- An answer without the ways that it tells. -/
def plain : (use : SetUse ι) → use.Answer → use.Answer
  | .find _ _, route => route.map fun _ => .direct
  | .reach _ _, _ => .direct
  | _, a => a

/-- The keys of the sets that a use reads or writes. -/
def involved (lent : List (Lent ι)) : SetUse ι → List Key
  | .add _ k value _ => k :: value.keys lent
  | .remove _ k | .contains _ k | .find _ k | .reach _ k | .expire _ k _ | .expireAt _ k _ => [k]
  | .keys _ => []
  | .member place _ => (lent[place]?.map Lent.key).toList

end SetUse

/-- What has been handed out in the end was handed out before, or by the answer. -/
theorem mem_append_handed {lent : List (Lent ι)} {r : Except Halt α} {handed : α → List (Lent ι)}
    {l : Lent ι} (hl : l ∈ lent ++ (r.toOption.map handed).getD []) :
    l ∈ lent ∨ ∃ a, r = .ok a ∧ l ∈ handed a := by
  refine (List.mem_append.1 hl).imp id fun hl => ?_
  cases r with
  | error halt => exact absurd hl List.not_mem_nil
  | ok a => exact ⟨a, rfl, hl⟩

/-- A world, and the sets that have been handed out. -/
structure Custody (V ι : Type) where
  world : World V
  lent : List (Lent ι) := []

namespace Custody

variable (g : Regime V) (maps : ι → SetMapStore V)

/-- What a caller's turn ends with. -/
def turn (h : Custody V ι) (turn : Turn (SetUse ι)) : Except Halt turn.op.Answer × World V :=
  g.act (h.world.atTime turn.time) (turn.op.on maps h.lent turn.token)

/-- A caller is served. -/
def serve (h : Custody V ι) (turn : Turn (SetUse ι)) : Custody V ι where
  world := (h.turn g maps turn).2
  lent := h.lent ++ ((h.turn g maps turn).1.toOption.map turn.op.handed).getD []

variable {g maps} in
theorem mem_lent_serve {h : Custody V ι} {turn : Turn (SetUse ι)} {l : Lent ι}
    (hl : l ∈ (h.serve g maps turn).lent) :
    l ∈ h.lent ∨ ∃ a, (h.turn g maps turn).1 = .ok a ∧ l ∈ turn.op.handed a :=
  mem_append_handed hl

/-- Callers are served in turn. -/
def serveAll (h : Custody V ι) (turns : List (Turn (SetUse ι))) : Custody V ι :=
  turns.foldl (serve g maps) h

theorem clock_serve (faults : Faults V) (h : Custody V ι) (turn : Turn (SetUse ι)) :
    (h.serve faults.regime maps turn).world.clock = turn.time :=
  faults.act_clock _ _

theorem clock_serveAll (faults : Faults V) (h : Custody V ι) (turns : List (Turn (SetUse ι)))
    (last : Turn (SetUse ι))
    (htimes : (h.world.clock :: (turns ++ [last]).map Turn.time).Pairwise (· ≤ ·)) :
    (h.serveAll faults.regime maps turns).world.clock ≤ last.time := by
  obtain ⟨hle, hrest⟩ := List.pairwise_cons.1 htimes
  induction turns generalizing h with
  | nil => exact hle last.time List.mem_cons_self
  | cons turn rest ih =>
    refine ih (h.serve faults.regime maps turn) ?_ ?_ (List.pairwise_cons.1 hrest).2
    · rw [clock_serve]
      exact hrest
    · rw [clock_serve]
      exact (List.pairwise_cons.1 hrest).1

end Custody

/-! ## Members under keys -/

namespace MemberMap

variable (m : MemberMap) (now : Nat) (k k' : Key)

/-- No set is empty. -/
def Populated (m : MemberMap) : Prop :=
  m.Furnished fun _ => True

theorem populated_empty : Populated {} := EntryMap.every_empty

@[simp] theorem liveMembers_evict :
    liveMembers (m.evict now k) now k' = m.liveMembers now k' := by
  unfold liveMembers
  rw [m.live?_evict]

@[simp] theorem liveMembers_erase :
    liveMembers ⟨m.slots.erase k⟩ now k' = if k = k' then ∅ else m.liveMembers now k' := by
  unfold liveMembers
  rw [m.live?_erase]
  split <;> rfl

/-- A deadline leaves the members as they are, unless it has come already. -/
theorem liveMembers_expireAt (deadline : Nat) :
    liveMembers (m.expireAt now k deadline).2 now k' =
      if k = k' ∧ deadline ≤ now then ∅ else m.liveMembers now k' := by
  unfold EntryMap.expireAt liveMembers
  cases hl : m.live? now k with
  | none =>
    by_cases hk : k = k'
    · subst hk
      simp [hl]
    · simp [hk]
  | some members =>
    rw [EntryMap.live?_insert]
    by_cases hk : k = k'
    · subst hk
      by_cases hd : deadline ≤ now <;> simp [Slot.isExpired, hd, hl]
    · simp [hk]

variable {m now k}

/-- Members that are there at a later time were there before. -/
theorem liveMembers_of_later {later : Nat} (hle : now ≤ later)
    (hne : m.liveMembers later k ≠ ∅) : m.liveMembers later k = m.liveMembers now k := by
  unfold liveMembers at hne ⊢
  cases hl : m.live? later k with
  | none => exact absurd (by rw [hl]; rfl) hne
  | some members => rw [EntryMap.live?_of_later hle hl]

theorem Populated.expireAt (h : m.Populated) (k : Key) (deadline : Nat) :
    Populated (m.expireAt now k deadline).2 := by
  unfold EntryMap.expireAt
  split
  · rename_i members hl
    obtain ⟨slot, hs, -, rfl⟩ := (m.live?_eq_some_iff now).1 hl
    exact EntryMap.Every.insert h k ⟨trivial, (h k slot hs).2⟩
  · exact h

variable {order : Arrangement} (op : SetOp)

/-- The members under a key answer as a set of those members does. -/
theorem applyUnder_fst :
    (op.applyUnder order now k m).1 = (op.apply order (m.liveMembers now k)).1 := by
  cases op with
  | remove x => exact m.removeMember_fst now k x
  | _ => rfl

/-- The members under a key become what a set of those members becomes, and those under other keys
stay. -/
theorem liveMembers_applyUnder (k' : Key) :
    liveMembers (op.applyUnder order now k m).2 now k' =
      if k = k' then (op.apply order (m.liveMembers now k)).2 else m.liveMembers now k' := by
  cases op with
  | add x => exact m.liveMembers_addMember now k k' x
  | remove x => exact m.liveMembers_removeMember now k k' x
  | contains x =>
    change m.liveMembers now k' = _
    split
    · rename_i hk
      rw [← hk]
      rfl
    · rfl
  | members | count =>
    change liveMembers (m.evict now k) now k' = _
    rw [liveMembers_evict]
    split
    · rename_i hk
      rw [← hk]
      rfl
    · rfl

theorem Populated.applyUnder (h : m.Populated) : Populated (op.applyUnder order now k m).2 := by
  cases op with
  | add x => exact h.addMember trivial k x
  | remove x => exact h.removeMember k x
  | contains x => exact h
  | members | count => exact EntryMap.Every.evict h k

end MemberMap

/-! ## On a stand -/

namespace Stand

/-- The members under a key of a base map of sets. -/
def members (s : Stand V) (i : Nat) (k : Key) : MemberSet :=
  (s.setMaps i).liveMembers s.now k

/-- All but the members and the calls: what no use of a map of sets changes. -/
def setting (s : Stand V) : Nat × Nat × Arrangement × (Site → Grants) × (Nat → EntryMap V) :=
  (s.now, s.date, s.order, s.grants, s.maps)

/-- The members under a key of a base map of sets have become these; no other members have changed,
and no other map. -/
structure Becomes (i : Nat) (k : Key) (x : MemberSet) (s s' : Stand V) : Prop where
  setting : s'.setting = s.setting
  here : s'.members i k = x
  others : ∀ j k', j ≠ i ∨ k' ≠ k → s'.members j k' = s.members j k'
  rest : ∀ j, j ≠ i → s'.setMaps j = s.setMaps j
  populated : ∀ j, (s.setMaps j).Populated → (s'.setMaps j).Populated

namespace Becomes

variable {s s' s'' : Stand V} {i : Nat} {k : Key} {x y : MemberSet}

theorem refl (s : Stand V) (i : Nat) (k : Key) : Becomes i k (s.members i k) s s :=
  ⟨rfl, rfl, fun _ _ _ => rfl, fun _ _ => rfl, fun _ h => h⟩

theorem trans (h : Becomes i k x s s') (h' : Becomes i k y s' s'') : Becomes i k y s s'' where
  setting := h'.setting.trans h.setting
  here := h'.here
  rest j hj := (h'.rest j hj).trans (h.rest j hj)
  others j k' hne := (h'.others j k' hne).trans (h.others j k' hne)
  populated j hp := h'.populated j (h.populated j hp)

/-- Members that have become what they were have not changed. -/
theorem same (h : Becomes i k (s.members i k) s s') (j : Nat) (k' : Key) :
    s'.members j k' = s.members j k' := by
  by_cases hne : j ≠ i ∨ k' ≠ k
  · exact h.others j k' hne
  · obtain ⟨rfl, rfl⟩ := not_or.1 hne |>.imp not_not.1 not_not.1
    exact h.here

theorem members_eq (h : Becomes i k x s s') :
    s'.members i = Function.update (s.members i) k x := by
  funext k'
  by_cases hk : k' = k
  · subst hk
    rw [h.here, Function.update_self]
  · rw [h.others i k' (.inr hk), Function.update_of_ne hk]

theorem now_eq (h : Becomes i k x s s') : s'.now = s.now := congrArg (·.1) h.setting

theorem order_eq (h : Becomes i k x s s') : s'.order = s.order := congrArg (·.2.2.1) h.setting

theorem maps_eq (h : Becomes i k x s s') : s'.maps = s.maps := congrArg (·.2.2.2.2) h.setting

/-- Something else is put in the place of a base map of sets. -/
theorem of_putSets {m : MemberMap} (calls : List (Call V)) (hhere : m.liveMembers s.now k = x)
    (hothers : ∀ k' ≠ k, m.liveMembers s.now k' = s.members i k')
    (hpopulated : (s.setMaps i).Populated → m.Populated) :
    Becomes i k x s { s.putSets i m with calls } where
  setting := rfl
  here := by
    change ((s.putSets i m).setMaps i).liveMembers s.now k = x
    rw [setMaps_putSets_self, hhere]
  others j k' hne := by
    change ((s.putSets i m).setMaps j).liveMembers s.now k' = _
    by_cases hj : j = i
    · subst hj
      rw [setMaps_putSets_self]
      exact hothers k' (hne.resolve_left (not_not_intro rfl))
    · rw [setMaps_putSets_of_ne s m hj]
      rfl
  rest j hj := s.setMaps_putSets_of_ne m hj
  populated j hp := by
    change ((s.putSets i m).setMaps j).Populated
    by_cases hj : j = i
    · subst hj
      rw [setMaps_putSets_self]
      exact hpopulated hp
    · rwa [setMaps_putSets_of_ne s m hj]

end Becomes

end Stand

/-! ## Calls -/

namespace Faults.Spares

variable {faults : Faults V} {s : Stand V} {i : Nat} {k : Key} {t : Token}
  (h : faults.Spares (.setMap i))
include h

/-- A call that at most evicts a key answers for its operation, and keeps the members. -/
theorem ends_reading (op : SetMapOp) (k : Key)
    (hkeeps : (op.apply s.order s.now s.date (s.setMaps i)).2 = s.setMaps i ∨
      (op.apply s.order s.now s.date (s.setMaps i)).2 = (s.setMaps i).evict s.now k) :
    (Backend.onSetMap i op t).ends faults.regime (fun a s' =>
      a = (op.apply s.order s.now s.date (s.setMaps i)).1 ∧
        s.Becomes i k (s.members i k) s') s := by
  refine h.ends_onSetMap op ⟨rfl, .of_putSets _ ?_ ?_ ?_⟩
  · rcases hkeeps with he | he <;> rw [he]
    · rfl
    · exact MemberMap.liveMembers_evict _ _ _ _
  · intro k' _
    rcases hkeeps with he | he <;> rw [he]
    · rfl
    · exact MemberMap.liveMembers_evict _ _ _ _
  · intro hp
    rcases hkeeps with he | he <;> rw [he]
    · exact hp
    · exact EntryMap.Every.evict hp k

/-- An operation on the set under a key answers for its members, and changes only them. -/
theorem ends_under (op : SetOp) :
    (op.on (Backend.setUnder i k) t).ends faults.regime (fun a s' =>
      a = (op.apply s.order (s.members i k)).1 ∧
        s.Becomes i k (op.apply s.order (s.members i k)).2 s') s := by
  have hcall : op.on (Backend.setUnder i k) t = Backend.onSetMap (V := V) i (.member k op) t := by
    cases op <;> rfl
  rw [hcall]
  refine h.ends_onSetMap _ ⟨MemberMap.applyUnder_fst op, .of_putSets _ ?_ ?_ ?_⟩
  · exact (MemberMap.liveMembers_applyUnder op k).trans (if_pos rfl)
  · exact fun k' hk => (MemberMap.liveMembers_applyUnder op k').trans (if_neg hk.symm)
  · exact fun hp => hp.applyUnder op

/-- Listing the set under a key gives its members, and keeps them. -/
theorem ends_collect :
    ((Backend.setUnder i k).collect t).ends faults.regime (fun xs s' =>
      xs = s.order.members (s.members i k).toList ∧ s.Becomes i k (s.members i k) s') s := by
  unfold SetStore.collect
  refine Action.ends_bind (Action.ends_mono (h.ends_under .members) ?_)
  rintro _ s' ⟨rfl, hsame⟩
  exact Action.ends_pure ⟨rfl, hsame⟩

theorem ends_remove :
    ((Backend.setMap i).remove k t).ends faults.regime (fun removed s' =>
      removed = ((s.setMaps i).live? s.now k).isSome ∧ s.Becomes i k ∅ s') s := by
  refine h.ends_onSetMap (.remove k) ⟨rfl, .of_putSets _ ?_ ?_ fun hp => hp.erase k⟩
  · exact ((s.setMaps i).liveMembers_erase s.now k k).trans (if_pos rfl)
  · exact fun k' hk => ((s.setMaps i).liveMembers_erase s.now k k').trans (if_neg hk.symm)

theorem ends_contains :
    ((Backend.setMap i).contains k t).ends faults.regime (fun found s' =>
      found = ((s.setMaps i).live? s.now k).isSome ∧ s.Becomes i k (s.members i k) s') s :=
  h.ends_reading (.contains k) k (.inr rfl)

theorem ends_find :
    ((Backend.setMap i).find k t).ends faults.regime (fun route s' =>
      route = (if ((s.setMaps i).live? s.now k).isSome then some .direct else none) ∧
        s.Becomes i k (s.members i k) s') s := by
  refine Action.ends_bind (Action.ends_mono (h.ends_reading (.get k) k (.inr rfl)) ?_)
  rintro found s' ⟨hfound, hsame⟩
  rw [show ((s.setMaps i).live? s.now k).isSome = found from hfound.symm]
  cases found <;> exact Action.ends_pure ⟨rfl, hsame⟩

theorem ends_route :
    ((Backend.setMap i).route k t).ends faults.regime (fun route s' =>
      route = .direct ∧ s.Becomes i k (s.members i k) s') s := by
  refine Action.ends_bind (Action.ends_mono (h.ends_reading (.reach k) k (.inl rfl)) ?_)
  rintro _ s' ⟨-, hsame⟩
  exact Action.ends_pure ⟨rfl, hsame⟩

/-- A key is given a deadline: its members stay, unless that has come already. -/
theorem ends_deadline (op : SetMapOp) {deadline : Nat}
    (hop : (op.apply s.order s.now s.date (s.setMaps i)).2 =
      ((s.setMaps i).expireAt s.now k deadline).2) :
    (Backend.onSetMap i op t).ends faults.regime (fun _ s' =>
      ∃ x, (x = s.members i k ∨ x = ∅) ∧ s.Becomes i k x s') s := by
  have hafter := fun k' => (s.setMaps i).liveMembers_expireAt s.now k k' deadline
  refine h.ends_onSetMap op ?_
  unfold Stand.onSetMap
  rw [hop]
  refine ⟨_, ?_, .of_putSets _ (hafter k) ?_ fun hp => hp.expireAt k _⟩
  · split
    · exact .inr rfl
    · exact .inl rfl
  · exact fun k' hk => (hafter k').trans (if_neg fun hc => hk hc.1.symm)

/-- The expiry of a key is put off, if the map grants that: its members stay, unless no time is
left. -/
theorem ends_touch (ttl : Nat) :
    ((Backend.setMap i).touch k ttl t).ends faults.regime (fun _ s' =>
      ∃ x, (x = s.members i k ∨ x = ∅) ∧ s.Becomes i k x s') s := by
  unfold KeyedStore.touch
  refine Action.ends_bind (Action.ends_grants ?_)
  cases (s.grants (.setMap i)).expiry with
  | false => exact Action.ends_pure ⟨_, .inl rfl, .refl s i k⟩
  | true => exact h.ends_deadline (.expire k ttl) rfl

/-- A whole set that can be read is stored, if its key is free or may be overwritten. -/
theorem ends_addSet {value : SetStore V} {overwrite : Bool} {post : Bool → Stand V → Prop}
    (hkept : ∀ s', s.Becomes i k (s.members i k) s' →
      (s.setMaps i).accepts s.now k overwrite = false → post false s')
    (hstored : ∀ s', s.Becomes i k (s.members i k) s' →
      (s.setMaps i).accepts s.now k overwrite = true →
      (value.collect t).ends faults.regime (fun xs s'' => ∀ s₃,
        s''.Becomes i k (Std.ExtTreeSet.ofList xs) s₃ → post true s₃) s') :
    ((Backend.setMap i).add k value overwrite t).ends faults.regime post s := by
  change (Backend.addSet i k value overwrite t).ends faults.regime post s
  unfold Backend.addSet
  have hkeeps : (SetMapOp.apply s.order s.now s.date (.add k overwrite) (s.setMaps i)).2 =
      s.setMaps i ∨ (SetMapOp.apply s.order s.now s.date (.add k overwrite) (s.setMaps i)).2 =
      (s.setMaps i).evict s.now k := ite_eq_or_eq _ _ _
  refine Action.ends_bind (Action.ends_mono (h.ends_reading _ k hkeeps) ?_)
  rintro accepted s' ⟨haccepted, hsame⟩
  have haccepts : (s.setMaps i).accepts s.now k overwrite = accepted := haccepted.symm
  cases accepted with
  | false => exact Action.ends_pure (hkept s' hsame haccepts)
  | true =>
    refine Action.ends_bind (Action.ends_mono (hstored s' hsame haccepts) ?_)
    intro xs s'' hpost
    refine Action.ends_bind (Action.ends_storeSet (Action.ends_pure (hpost _ ?_)))
    refine .of_putSets _ ?_ ?_ fun hp => hp.store trivial k _
    · exact (MemberMap.liveMembers_store _ _ _ _ _).trans (if_pos rfl)
    · exact fun k' hk => (MemberMap.liveMembers_store _ _ _ _ _).trans (if_neg hk.symm)

end Faults.Spares

/-! ## What a base map of sets answers -/

/-- The members of a whole set to be stored, as a base map of sets has them. -/
def Whole.members (s : Stand V) (i : Nat) (lent : List (Lent ι)) : Whole → MemberSet
  | .own members => members
  | .lent place => (lent[place]?.map fun l => s.members i l.key).getD ∅

/-- A whole set is the caller's own, or one that was handed out. -/
theorem Whole.set_cases (value : Whole) (maps : ι → SetMapStore V) (lent : List (Lent ι)) :
    (∃ c, value.set maps lent = .ofMembers c ∧
      ∀ (s : Stand V) i, value.members s i lent = c) ∨
    ∃ l ∈ lent, l.key ∈ value.keys lent ∧ value.set maps lent = l.follow maps ∧
      ∀ (s : Stand V) i, value.members s i lent = s.members i l.key := by
  cases value with
  | own c => exact .inl ⟨c, rfl, fun _ _ => rfl⟩
  | lent place =>
    cases hl : lent[place]? with
    | none => exact .inl ⟨∅, by simp [Whole.set, hl], by simp [Whole.members, hl]⟩
    | some l =>
      refine .inr ⟨l, List.mem_of_getElem? hl, ?_, ?_, ?_⟩
      · simp [Whole.keys, hl]
      · simp [Whole.set, hl]
      · simp [Whole.members, hl]

theorem Whole.members_congr (value : Whole) {s s' : Stand V} {i : Nat} {lent : List (Lent ι)}
    (h : s'.members i = s.members i) : value.members s' i lent = value.members s i lent := by
  unfold Whole.members
  rw [h]

namespace SetUse

/-- The uses of sets and their keys: all but to list the keys and to let them expire. -/
def OfSets : SetUse ι → Prop
  | .keys _ | .expire _ _ _ | .expireAt _ _ _ => False
  | _ => True

/-- What a base map of sets answers to a use of sets and their keys. -/
def expected (s : Stand V) (i : Nat) (lent : List (Lent ι)) : (use : SetUse ι) → Option use.Answer
  | .add _ k _ overwrite => some ((s.setMaps i).accepts s.now k overwrite)
  | .remove _ k => some ((s.setMaps i).live? s.now k).isSome
  | .contains _ k => some ((s.setMaps i).live? s.now k).isSome
  | .find _ k => some (if ((s.setMaps i).live? s.now k).isSome then some .direct else none)
  | .reach _ _ => some .direct
  | .member place op => some (lent[place]?.map fun l => (op.apply s.order (s.members i l.key)).1)
  | .keys _ => none
  | .expire _ _ _ => none
  | .expireAt _ _ _ => none

/-- The members that a base map of sets has under its keys after a use. -/
def leaves (s : Stand V) (i : Nat) (lent : List (Lent ι)) : SetUse ι → Key → MemberSet
  | .add _ k value overwrite =>
    if (s.setMaps i).accepts s.now k overwrite then
      Function.update (s.members i) k (value.members s i lent)
    else s.members i
  | .remove _ k => Function.update (s.members i) k ∅
  | .member place op =>
    match lent[place]? with
    | some l => Function.update (s.members i) l.key (op.apply s.order (s.members i l.key)).2
    | none => s.members i
  | _ => s.members i

theorem OfSets.isSome_expected {use : SetUse ι} (h : use.OfSets) (s : Stand V) (i : Nat)
    (lent : List (Lent ι)) : (use.expected s i lent).isSome := by
  cases use with
  | keys | expire | expireAt => exact h.elim
  | _ => rfl

end SetUse

namespace Faults.Spares

variable {faults : Faults V} {s : Stand V} {i : Nat} {t : Token} {lent : List (Lent ι)}
  (h : faults.Spares (.setMap i))
include h

theorem ends_collectWhole (value : Whole) :
    ((value.set (fun _ => Backend.setMap i) lent).collect t).ends faults.regime (fun xs s' =>
      Std.ExtTreeSet.ofList xs = value.members s i lent ∧ s'.members i = s.members i) s := by
  rcases value.set_cases (fun _ => Backend.setMap i) lent with
    ⟨c, hset, hmembers⟩ | ⟨l, -, -, hset, hmembers⟩
  · rw [hset, hmembers]
    exact Action.ends_bind (Action.ends_pure (Action.ends_pure
      ⟨SetMapPair.ofList_eq fun _ => Std.ExtTreeSet.mem_toList, rfl⟩))
  · rw [hset, hmembers]
    refine Action.ends_mono h.ends_collect ?_
    rintro xs s' ⟨rfl, hsame⟩
    refine ⟨SetMapPair.ofList_eq fun x => ?_, funext (hsame.same i)⟩
    rw [(s.order.members_perm _).mem_iff, Std.ExtTreeSet.mem_toList]

/-- A base map of sets answers what is expected of it, and leaves what is expected. -/
theorem ends_use {use : SetUse ι} {a : use.Answer} (ha : use.expected s i lent = some a) :
    (use.on (fun _ => Backend.setMap i) lent t).ends faults.regime (fun b s' =>
      b = a ∧ s'.members i = use.leaves s i lent) s := by
  cases use with
  | add j k value overwrite =>
    cases ha
    refine h.ends_addSet (fun s' hsame hdenied => ?_) fun s' hsame haccepted => ?_
    · refine ⟨hdenied.symm, (funext (hsame.same i)).trans (if_neg ?_).symm⟩
      rw [hdenied]
      exact Bool.false_ne_true
    · refine Action.ends_mono (h.ends_collectWhole value) ?_
      rintro xs s'' ⟨hxs, hread⟩ s₃ hstored
      refine ⟨haccepted.symm, (hstored.members_eq.trans ?_).trans (if_pos haccepted).symm⟩
      rw [hxs, hread, value.members_congr (funext (hsame.same i)), funext (hsame.same i)]
  | remove j k =>
    cases ha
    exact Action.ends_mono h.ends_remove fun _ _ ⟨hb, hgone⟩ => ⟨hb, hgone.members_eq⟩
  | contains j k =>
    cases ha
    exact Action.ends_mono h.ends_contains fun _ _ ⟨hb, hsame⟩ => ⟨hb, funext (hsame.same i)⟩
  | find j k =>
    cases ha
    exact Action.ends_mono h.ends_find fun _ _ ⟨hb, hsame⟩ => ⟨hb, funext (hsame.same i)⟩
  | reach j k =>
    cases ha
    exact Action.ends_mono h.ends_route fun _ _ ⟨hb, hsame⟩ => ⟨hb, funext (hsame.same i)⟩
  | member place op =>
    cases ha
    cases hl : lent[place]? with
    | none =>
      rw [SetUse.on_member_of_none hl]
      exact Action.ends_pure ⟨rfl, by simp only [SetUse.leaves, hl]⟩
    | some l =>
      rw [SetUse.on_member_of_some hl]
      refine Action.ends_bind (Action.ends_mono (h.ends_under op) ?_)
      rintro b s' ⟨rfl, hdone⟩
      refine Action.ends_pure ⟨rfl, ?_⟩
      simpa only [SetUse.leaves, hl] using hdone.members_eq
  | keys | expire | expireAt => cases ha

end Faults.Spares

end TwinStore
