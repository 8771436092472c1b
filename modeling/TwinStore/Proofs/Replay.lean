import TwinStore.Proofs.Reporting

/-!
# Reported writes, replayed

Where nothing expires, what a base store holds is decided by the writes that were applied to it, and
those are the writes that a notifying store reports: an addition overwrites, a removal deletes, a
write to a member set goes to the set under its key (`Write.onMap`, `Write.onSet`,
`Write.onSetMap`). So it is for a notifying map, for a notifying set, and for the sets that a
notifying map of sets hands out (`Service.map_reports`, `Service.set_reports`,
`Service.setMap_reports`), and with it for all that callers do to them
(`notices_replay_to_contents`).
-/

namespace TwinStore

variable {V α σ : Type}

/-! ## Replaying a write -/

/-- Make a write to a member set. -/
def MemberWrite.replay : MemberWrite → MemberSet → MemberSet
  | .added x, s => s.insert x
  | .removed x, s => s.erase x

namespace Write

/-- Make a write to a map. -/
def onMap : Write V → EntryMap V → EntryMap V
  | .entryAdded k v, m => m.put k v
  | .entryRemoved k, m => ⟨m.slots.erase k⟩
  | _, m => m

/-- Make a write to a set. -/
def onSet : Write V → MemberSet → MemberSet
  | .member write, s => write.replay s
  | _, s => s

/-- Make a write to a map of sets that keeps no deadlines, so that any time will do. -/
def onSetMap : Write V → MemberMap → MemberMap
  | .setRemoved k, m => ⟨m.slots.erase k⟩
  | .setMember k write, m => m.store k (write.replay (m.liveMembers 0 k))
  | _, m => m

end Write

/-! ## What is reported -/

/-- The write that a map reports of an operation. -/
def PlainOp.told : (op : PlainOp V) → Except Halt op.Answer → List (Write V)
  | .add k v _, .ok true => [.entryAdded k v]
  | .remove k, .ok true => [.entryRemoved k]
  | _, _ => []

/-- The write that a set reports of an operation. -/
def SetOp.told (describe : MemberWrite → Write V) :
    (op : SetOp) → Except Halt op.Answer → List (Write V)
  | .add x, .ok () => [describe (.added x)]
  | .remove x, .ok true => [describe (.removed x)]
  | _, _ => []

theorem SetOp.told_error (describe : MemberWrite → Write V) (op : SetOp) (h : Halt) :
    op.told describe (.error h) = [] := by
  cases op <;> rfl

namespace SetUse

/-- The uses that write no whole set and let nothing expire. -/
def KeepsTrack : SetUse Unit → Prop
  | .add _ _ _ _ | .expire _ _ _ | .expireAt _ _ _ => False
  | _ => True

/-- The write that is reported of a use. -/
def told (lent : List (Lent Unit)) : (use : SetUse Unit) → Except Halt use.Answer → List (Write V)
  | .remove _ k, .ok true => [.setRemoved k]
  | .member place op, .ok (some a) =>
    match lent[place]? with
    | some l => op.told (.setMember l.key) (.ok a)
    | none => []
  | _, _ => []

end SetUse

/-! ## Where nothing expires -/

namespace EntryMap

variable {m : EntryMap α} {now : Nat} {k : Key}

theorem erase_of_absent (h : m.slots[k]? = none) : (⟨m.slots.erase k⟩ : EntryMap α) = m := by
  congr 1
  apply Std.ExtTreeMap.ext_getElem?
  intro k'
  by_cases hk : k = k'
  · subst hk
    simp [h]
  · simp [Std.ExtTreeMap.getElem?_erase, hk]

theorem insert_of_present {slot : Slot α} (h : m.slots[k]? = some slot) :
    (⟨m.slots.insert k slot⟩ : EntryMap α) = m := by
  congr 1
  apply Std.ExtTreeMap.ext_getElem?
  intro k'
  by_cases hk : k = k'
  · subst hk
    simp [h]
  · simp [Std.ExtTreeMap.getElem?_insert, hk]

variable (h : m.Every (·.deadline = none))
include h

theorem isExpired_of_lasting {slot : Slot α} (hs : m.slots[k]? = some slot) :
    slot.isExpired now = false := by
  simp [Slot.isExpired, h k slot hs]

theorem evict_of_lasting : m.evict now k = m := by
  unfold evict
  cases hs : m.slots[k]? with
  | none => rfl
  | some slot => simp [isExpired_of_lasting h hs]

theorem live?_of_every (k : Key) : m.live? now k = m.slots[k]?.map Slot.value := by
  unfold live?
  cases hs : m.slots[k]? with
  | none => rfl
  | some slot => simp [isExpired_of_lasting h hs]

/-- Removing what is not there changes nothing. -/
theorem erase_of_dead (hl : (m.live? now k).isSome = false) :
    (⟨m.slots.erase k⟩ : EntryMap α) = m := by
  apply erase_of_absent
  rwa [live?_of_every h, Option.isSome_map, Option.isSome_eq_false_iff, Option.isNone_iff_eq_none]
    at hl

end EntryMap

namespace Service

/-! ## Calls -/

namespace Record

variable (r : Record V σ) {Fit : World V → Prop} {faults : Faults V}

@[simp] theorem replayAll_nil (c : σ) : r.replayAll [] c = c := rfl

@[simp] theorem replayAll_singleton (write : Write V) (c : σ) :
    r.replayAll [write] c = r.replay write c := rfl

/-- Of a call that lists nothing, no answer is cut off. -/
theorem told_of_whole {c : Call V} {told : Except Halt c.Answer → List (Write V)}
    (h : ∀ n cause a, c.failAfter n cause a = none) (n : Nat) (cause : StoreError) (a b : c.Answer)
    (hb : c.failAfter n cause a = some b) : told (.ok b) = told (.ok a) := by
  rw [h] at hb
  cases hb

/-- A call leaves what the write that is reported of it leaves, if carrying it out does. -/
theorem wp_call {c : Call V} {t : Token} {told : Except Halt c.Answer → List (Write V)}
    (hfit : ∀ {w w' : World V}, w'.shelves = w.shelves → Fit w → Fit w')
    (hperform : ∀ w, Fit w → Fit (w.perform c).2 ∧
      r.content (w.perform c).2.shelves =
        r.replayAll (told (.ok (w.perform c).1)) (r.content w.shelves))
    (herror : ∀ halt, told (.error halt) = [])
    (hlisting : ∀ n cause a b, c.failAfter n cause a = some b → told (.ok b) = told (.ok a))
    {w : World V} (hw : Fit w) :
    (Action.call c t).wp faults.regime (fun a w' => Fit w' ∧ w'.notices = w.notices ∧
      r.content w'.shelves = r.replayAll (told a) (r.content w.shelves)) w := by
  have hnotices : ∀ w : World V, (w.perform c).2.notices = w.notices := by
    intro w
    cases c <;> rfl
  apply Action.wp_call_cases
  · intro v _ _
    obtain ⟨hw', hcontent⟩ := hperform (w.visit v) (hfit (w := w) rfl hw)
    exact ⟨hw', hnotices _, hcontent⟩
  · intro v f _ _
    refine ⟨hfit (w := w) rfl hw, rfl, ?_⟩
    rw [herror]
    rfl
  · intro v n f a _ _ ha
    obtain ⟨hw', hcontent⟩ := hperform (w.visit v) (hfit (w := w) rfl hw)
    refine ⟨hw', hnotices _, ?_⟩
    rw [hlisting n f.cause _ a ha]
    exact hcontent

end Record

/-! ## Maps -/

section Maps

variable {faults : Faults V} {i : Nat}

/-- What a map may be asked. -/
def map (m : MapStore V) : Service V (PlainOp V) PlainOp.Answer where
  on _ t op := op.on m t

/-- What base map `i` holds. -/
def Record.map (i : Nat) : Record V (EntryMap V) where
  content s := (s.1.nth i).content
  replay := Write.onMap

/-- Base map `i` lists its keys, and nothing in it expires. -/
structure MapFit (i : Nat) (w : World V) : Prop where
  lists : (w.maps.nth i).grants.keys = true
  lasts : (w.maps.nth i).content.Every (·.deadline = none)

theorem MapFit.congr {w w' : World V} (h : w'.shelves = w.shelves) (hw : MapFit i w) :
    MapFit i w' := by
  have hmaps : w'.maps = w.maps := congrArg (·.1) h
  exact ⟨by rw [hmaps]; exact hw.lists, by rw [hmaps]; exact hw.lasts⟩

theorem wp_onMap (op : MapOp V) {t : Token} (told : Except Halt op.Answer → List (Write V))
    (happly : ∀ order now date (m : EntryMap V), m.Every (·.deadline = none) →
      (op.apply order now date m).2.Every (·.deadline = none) ∧
        (op.apply order now date m).2 =
          (Record.map i).replayAll (told (.ok (op.apply order now date m).1)) m)
    (herror : ∀ halt, told (.error halt) = [])
    (hlisting : ∀ n cause a b, (Call.map i op).failAfter n cause a = some b →
      told (.ok b) = told (.ok a))
    {w : World V} (hw : MapFit i w) :
    (Backend.onMap i op t).wp faults.regime (fun a w' => MapFit i w' ∧ w'.notices = w.notices ∧
      (Record.map i).content w'.shelves =
        (Record.map i).replayAll (told a) ((Record.map i).content w.shelves)) w := by
  refine (Record.map i).wp_call MapFit.congr ?_ herror hlisting hw
  intro w hw
  obtain ⟨hlasts, hreplayed⟩ := happly w.arrangement w.clock w.date _ hw.lasts
  refine ⟨⟨?_, ?_⟩, ?_⟩
  · simpa [World.perform] using hw.lists
  · simpa [World.perform] using hlasts
  · simpa [Record.map, World.perform, World.shelves] using hreplayed

/-- A notifying map reports every write, and only writes. -/
theorem map_reports (faults : Faults V) (i handler : Nat) :
    Reports faults handler (map (Notify.map (Backend.map i) handler)) (map (Backend.map i))
      (fun _ => PlainOp.told) (fun _ => True) (MapFit i) (Record.map i) where
  handed_eq := rfl
  fit_congr := MapFit.congr
  echoes lent t op w _ hw := by
    cases op with
    | add k v overwrite =>
      refine Action.echoes_report .mapAdded t
        (fun added => if added then some (.entryAdded k v) else none)
        (fun added => ?_) (fun _ => rfl) (fun added => ?_) <;> cases added <;> rfl
    | remove k =>
      refine Action.echoes_report .mapRemoved t
        (fun removed => if removed then some (.entryRemoved k) else none)
        (fun removed => ?_) (fun _ => rfl) (fun removed => ?_) <;> cases removed <;> rfl
    | get k | contains k => exact Action.echoes_self fun _ => rfl
    | keys =>
      -- The keys of the store within are listed once it is seen to grant that.
      change ((Backend.map i).listAs "inner" t).Echoes _ _ _ _ _
      unfold Action.Echoes KeyedStore.listAs
      rw [Action.wp_bind, wp_requireKeys_map, if_pos hw.lists, Action.andThen_ok]
      exact Action.echoes_self fun _ => rfl
  replays lent t op w _ hw := by
    cases op with
    | add k v overwrite =>
      refine wp_onMap (.add k v overwrite) (PlainOp.told (.add k v overwrite))
        (fun _ now _ m hm => ?_) (fun _ => rfl) (Record.told_of_whole fun _ _ _ => rfl) hw
      simp only [MapOp.apply, EntryMap.add]
      split
      · exact ⟨hm, rfl⟩
      · exact ⟨EntryMap.Every.insert hm k rfl, rfl⟩
    | remove k =>
      refine wp_onMap (.remove k) (PlainOp.told (.remove k))
        (fun _ now _ m hm => ⟨hm.erase k, ?_⟩) (fun _ => rfl)
        (Record.told_of_whole fun _ _ _ => rfl) hw
      simp only [MapOp.apply, EntryMap.remove]
      cases hl : (m.live? now k).isSome with
      | false => exact EntryMap.erase_of_dead hm hl
      | true => rfl
    | get k =>
      refine wp_onMap (.get k) (PlainOp.told (.get k))
        (fun _ now _ m hm => ⟨hm.evict k, ?_⟩) (fun _ => rfl)
        (Record.told_of_whole fun _ _ _ => rfl) hw
      exact EntryMap.evict_of_lasting hm
    | contains k =>
      refine wp_onMap (.contains k) (PlainOp.told (.contains k))
        (fun _ now _ m hm => ⟨hm.evict k, ?_⟩) (fun _ => rfl)
        (Record.told_of_whole fun _ _ _ => rfl) hw
      exact EntryMap.evict_of_lasting hm
    | keys =>
      exact wp_onMap .keys (PlainOp.told .keys) (fun _ _ _ _ hm => ⟨hm, rfl⟩) (fun _ => rfl)
        (fun _ _ _ _ _ => rfl) hw

end Maps

/-! ## Sets -/

section Sets

variable {faults : Faults V} {i : Nat}

/-- A notifying set, wherever the set within is, reports every write to it. -/
theorem echoes_set (handler : Nat) (inner : SetStore V) (describe : MemberWrite → Write V)
    (t : Token) (op : SetOp) (w : World V) :
    (op.on (Notify.set inner handler describe) t).Echoes faults handler (op.on inner t)
      (op.told describe) w := by
  cases op with
  | add x =>
    exact Action.echoes_report .setAdded t (fun _ => some (describe (.added x))) (fun _ => rfl)
      (fun _ => rfl) (fun _ => rfl)
  | remove x =>
    refine Action.echoes_report .setRemoved t
      (fun removed => if removed then some (describe (.removed x)) else none)
      (fun removed => ?_) (fun _ => rfl) (fun removed => ?_) <;> cases removed <;> rfl
  | members | contains x | count => exact Action.echoes_self fun _ => rfl

/-- The write that is reported of an operation, if any, does to a set what the operation does. -/
theorem apply_told (order : Arrangement) (op : SetOp) (s : MemberSet)
    (describe : MemberWrite → Write V) (r : Record V σ) {c : σ} (place : MemberSet → σ)
    (hhere : place s = c)
    (hreplay : ∀ write, r.replay (describe write) c = place (write.replay s)) :
    place (op.apply order s).2 = r.replayAll (op.told describe (.ok (op.apply order s).1)) c := by
  cases op with
  | add x => exact (hreplay (.added x)).symm
  | remove x =>
    change place (s.erase x) = r.replayAll (SetOp.told describe (.remove x) (.ok (s.contains x))) c
    cases hx : s.contains x with
    | true => exact (hreplay (.removed x)).symm
    | false =>
      have hsame : s.erase x = s := by
        refine Std.ExtTreeSet.ext_mem fun y => ?_
        rw [Members.mem_erase_iff, ← Std.ExtTreeSet.contains_iff_mem (k := y)]
        refine and_iff_right_of_imp fun hy he => ?_
        rw [he, hy] at hx
        cases hx
      rw [hsame]
      exact hhere
  | members | contains x | count => exact hhere

/-- What a set may be asked. -/
def set (s : SetStore V) : Service V SetOp SetOp.Answer where
  on _ t op := op.on s t

/-- What base set `i` holds. -/
def Record.set (i : Nat) : Record V MemberSet where
  content s := (s.2.1.nth i).content
  replay := Write.onSet

/-- A notifying set reports every write, and only writes. -/
theorem set_reports (faults : Faults V) (i handler : Nat) :
    Reports faults handler (set (Notify.set (Backend.set i) handler .member)) (set (Backend.set i))
      (fun _ => SetOp.told .member) (fun _ => True) (fun _ => True) (Record.set i) where
  handed_eq := rfl
  fit_congr _ h := h
  echoes _ t op w _ _ := echoes_set handler (Backend.set i) .member t op w
  replays _ t op w _ hw := by
    have hcall : op.on (Backend.set i) t = Action.call (V := V) (.set i op) t := by
      cases op <;> rfl
    change (op.on (Backend.set i) t).wp _ _ _
    rw [hcall]
    refine (Record.set i).wp_call (c := .set i op) (fun _ h => h) ?_ (op.told_error _) ?_ hw
    · intro w _
      refine ⟨trivial, ?_⟩
      have h := apply_told w.arrangement op (w.sets.nth i).content .member (Record.set (V := V) i)
        id rfl fun _ => rfl
      simpa [Record.set, World.perform, World.shelves] using h
    · intro n cause a b hb
      cases op with
      | members => rfl
      | _ => cases hb

end Sets

/-! ## Maps of sets -/

section SetMaps

variable {faults : Faults V} {i : Nat}

/-- What a map of sets, and the sets that it has handed out, may be asked. -/
def setMap (m : SetMapStore V) : Service V (SetUse Unit) SetUse.Answer where
  on lent t use := use.on (fun _ => m) lent t
  handed := SetUse.handed

/-- What base map of sets `i` holds. -/
def Record.setMap (i : Nat) : Record V MemberMap where
  content s := (s.2.2.nth i).content
  replay := Write.onSetMap

/-- Base map of sets `i` lists its keys, nothing in it expires, and no set in it is empty. -/
structure SetMapFit (i : Nat) (w : World V) : Prop where
  lists : (w.setMaps.nth i).grants.keys = true
  furnished : (w.setMaps.nth i).content.Furnished (· = none)

theorem SetMapFit.congr {w w' : World V} (h : w'.shelves = w.shelves) (hw : SetMapFit i w) :
    SetMapFit i w' := by
  have hmaps : w'.setMaps = w.setMaps := congrArg (·.2.2) h
  exact ⟨by rw [hmaps]; exact hw.lists, by rw [hmaps]; exact hw.furnished⟩

theorem wp_onSetMap (op : SetMapOp) {t : Token} (told : Except Halt op.Answer → List (Write V))
    (happly : ∀ order now date (m : MemberMap), m.Furnished (· = none) →
      MemberMap.Furnished (· = none) (op.apply order now date m).2 ∧
        (op.apply order now date m).2 =
          (Record.setMap i).replayAll (told (.ok (op.apply order now date m).1)) m)
    (herror : ∀ halt, told (.error halt) = [])
    (hlisting : ∀ n cause a b, (Call.setMap (V := V) i op).failAfter n cause a = some b →
      told (.ok b) = told (.ok a))
    {w : World V} (hw : SetMapFit i w) :
    (Backend.onSetMap i op t).wp faults.regime (fun a w' => SetMapFit i w' ∧
      w'.notices = w.notices ∧ (Record.setMap i).content w'.shelves =
        (Record.setMap i).replayAll (told a) ((Record.setMap i).content w.shelves)) w := by
  refine (Record.setMap i).wp_call SetMapFit.congr ?_ herror hlisting hw
  intro w hw
  obtain ⟨hfurnished, hreplayed⟩ := happly w.arrangement w.clock w.date _ hw.furnished
  refine ⟨⟨?_, ?_⟩, ?_⟩
  · simpa [World.perform] using hw.lists
  · simpa [World.perform] using hfurnished
  · simpa [Record.setMap, World.perform, World.shelves] using hreplayed

section Furnished

variable {m : MemberMap} (h : m.Furnished (· = none))
include h

theorem lasting_of_furnished : EntryMap.Every m (·.deadline = none) :=
  fun k slot hs => (h k slot hs).1

/-- A slot that is there is told by its members. -/
theorem slot_eq_of_furnished {k : Key} {slot : Slot MemberSet} (hs : m.slots[k]? = some slot) :
    slot = { value := slot.value } := by
  obtain ⟨value, deadline⟩ := slot
  exact congrArg (Slot.mk value) (h k _ hs).1

/-- Storing the members that are there changes nothing. -/
theorem store_same (k : Key) : m.store k (m.liveMembers 0 k) = m := by
  unfold MemberMap.store MemberMap.liveMembers
  rw [EntryMap.live?_of_every (lasting_of_furnished h)]
  cases hs : m.slots[k]? with
  | none => simp [EntryMap.erase_of_absent hs]
  | some slot =>
    have hput : EntryMap.put m k slot.value = m := by
      unfold EntryMap.put
      rw [← slot_eq_of_furnished h hs, EntryMap.insert_of_present hs]
    simpa [(h k slot hs).2] using hput

/-- An operation on the set under a key stores what becomes of its members. -/
theorem applyUnder_eq_store (order : Arrangement) (now : Nat) (k : Key) (op : SetOp) :
    (op.applyUnder order now k m).2 = m.store k (op.apply order (m.liveMembers 0 k)).2 := by
  have hlasts := lasting_of_furnished h
  have hlive : m.liveMembers 0 k = (m.slots[k]?.map Slot.value).getD ∅ := by
    unfold MemberMap.liveMembers
    rw [EntryMap.live?_of_every hlasts]
  cases op with
  | contains x => exact (store_same h k).symm
  | members | count => exact (EntryMap.evict_of_lasting hlasts).trans (store_same h k).symm
  | add x =>
    change m.addMember now k x = m.store k ((m.liveMembers 0 k).insert x)
    rw [hlive]
    unfold MemberMap.addMember MemberMap.store
    rw [if_neg (by simp)]
    cases hs : m.slots[k]? with
    | none => rfl
    | some slot =>
      simp [EntryMap.isExpired_of_lasting hlasts hs, EntryMap.put, (h k slot hs).1]
  | remove x =>
    change (m.removeMember now k x).2 = m.store k ((m.liveMembers 0 k).erase x)
    rw [hlive]
    unfold MemberMap.removeMember MemberMap.store
    cases hs : m.slots[k]? with
    | none => simp [EntryMap.erase_of_absent hs]
    | some slot => simp [EntryMap.isExpired_of_lasting hlasts hs, EntryMap.put, (h k slot hs).1]

/-- What is answered does not depend on the time. -/
theorem applyUnder_fst_eq (order : Arrangement) (now : Nat) (k : Key) (op : SetOp) :
    (op.applyUnder order now k m).1 = (op.apply order (m.liveMembers 0 k)).1 := by
  rw [MemberMap.applyUnder_fst]
  unfold MemberMap.liveMembers
  rw [EntryMap.live?_of_every (lasting_of_furnished h),
    EntryMap.live?_of_every (lasting_of_furnished h)]

theorem furnished_applyUnder (order : Arrangement) (now : Nat) (k : Key) (op : SetOp) :
    MemberMap.Furnished (· = none) (op.applyUnder order now k m).2 := by
  rw [applyUnder_eq_store h]
  exact MemberMap.Furnished.store h rfl k _

end Furnished

/-- What is reported of a use of a set that was handed out is reported of the operation. -/
theorem told_member {lent : List (Lent Unit)} {place : Nat} {l : Lent Unit}
    (hl : lent[place]? = some l) (op : SetOp) (r : Except Halt op.Answer) :
    SetUse.told (V := V) lent (.member place op) (r.map some) = op.told (.setMember l.key) r := by
  rcases r with _ | _
  · cases op <;> rfl
  · simp [SetUse.told, hl, Except.map]

/-- A notifying map of sets reports every removal of a key, and every write to a set that it has
handed out, and only these. -/
theorem setMap_reports (faults : Faults V) (i handler : Nat) :
    Reports faults handler (setMap (Notify.setMap (Backend.setMap i) handler))
      (setMap (Backend.setMap i)) SetUse.told SetUse.KeepsTrack (SetMapFit i)
      (Record.setMap i) where
  handed_eq := rfl
  fit_congr := SetMapFit.congr
  echoes lent t use w huse hw := by
    cases use with
    | add | expire | expireAt => exact huse.elim
    | contains | find | reach => exact Action.echoes_self fun _ => rfl
    | remove j k =>
      refine Action.echoes_report .setMapRemoved t
        (fun removed => if removed then some (.setRemoved k) else none)
        (fun removed => ?_) (fun _ => rfl) (fun removed => ?_) <;> cases removed <;> rfl
    | keys =>
      change ((Backend.setMap i).listAs "inner" t).Echoes _ _ _ _ _
      unfold Action.Echoes KeyedStore.listAs
      have hgrants : (w.grants (.setMap i)).keys = true := hw.lists
      rw [Action.wp_bind, wp_requireKeys rfl, if_pos hgrants, Action.andThen_ok]
      exact Action.echoes_self fun _ => rfl
    | member place op =>
      change ((SetUse.member place op).on _ lent t).Echoes _ _
        ((SetUse.member place op).on _ lent t) _ _
      cases hl : lent[place]? with
      | none =>
        rw [SetUse.on_member_of_none hl, SetUse.on_member_of_none hl]
        refine Action.echoes_self fun r => ?_
        rcases r with _ | _ | _ <;> simp [SetUse.told, hl]
      | some l =>
        rw [SetUse.on_member_of_some hl, SetUse.on_member_of_some hl]
        exact Action.Echoes.bind_pure
          (echoes_set handler (Backend.setUnder i l.key) (.setMember l.key) t op w) some
          (told_member hl op)
  replays lent t use w huse hw := by
    cases use with
    | add | expire | expireAt => exact huse.elim
    | contains j k =>
      refine wp_onSetMap (.contains k) (SetUse.told lent (.contains j k))
        (fun _ _ _ m hm => ⟨EntryMap.Every.evict hm k, ?_⟩) (fun _ => rfl)
        (Record.told_of_whole fun _ _ _ => rfl) hw
      exact EntryMap.evict_of_lasting (lasting_of_furnished hm)
    | find j k =>
      change ((Backend.setMap i).find k t).wp _ _ _
      refine (Action.wp_bind _ _ _).2 (Action.wp_mono (wp_onSetMap (.get k) (fun _ => [])
        (fun _ _ _ m hm => ⟨EntryMap.Every.evict hm k, ?_⟩) (fun _ => rfl)
        (fun _ _ _ _ _ => rfl) hw) ?_)
      · exact EntryMap.evict_of_lasting (lasting_of_furnished hm)
      · rintro (halt | found) w' hleft
        · exact hleft
        · cases found <;> exact hleft
    | reach j k =>
      change ((Backend.setMap i).route k t).wp _ _ _
      refine (Action.wp_bind _ _ _).2 (Action.wp_mono (wp_onSetMap (.reach k) (fun _ => [])
        (fun _ _ _ _ hm => ⟨hm, rfl⟩) (fun _ => rfl) (fun _ _ _ _ _ => rfl) hw) ?_)
      rintro (halt | _) w' hleft <;> exact hleft
    | remove j k =>
      refine wp_onSetMap (.remove k) (SetUse.told lent (.remove j k))
        (fun _ now _ m hm => ⟨EntryMap.Every.erase hm k, ?_⟩) (fun _ => rfl)
        (Record.told_of_whole fun _ _ _ => rfl) hw
      simp only [SetMapOp.apply, EntryMap.remove]
      cases hl : (m.live? now k).isSome with
      | false => exact EntryMap.erase_of_dead (lasting_of_furnished hm) hl
      | true => rfl
    | keys j =>
      exact wp_onSetMap .keys (SetUse.told lent (.keys j)) (fun _ _ _ _ hm => ⟨hm, rfl⟩)
        (fun _ => rfl) (fun _ _ _ _ _ => rfl) hw
    | member place op =>
      change ((SetUse.member place op).on _ lent t).wp _ _ _
      cases hl : lent[place]? with
      | none =>
        rw [SetUse.on_member_of_none hl]
        exact ⟨hw, rfl, rfl⟩
      | some l =>
        rw [SetUse.on_member_of_some hl]
        have hcall : op.on (Backend.setUnder i l.key) t =
            Backend.onSetMap (V := V) i (.member l.key op) t := by
          cases op <;> rfl
        change (op.on (Backend.setUnder i l.key) t >>= fun a => pure (some a)).wp _ _ _
        rw [hcall]
        refine Action.wp_bind_pure some (Action.wp_mono (wp_onSetMap (.member l.key op)
          (op.told (.setMember l.key)) (fun order now _ m hm => ?_) (op.told_error _) ?_ hw)
          fun r w' hleft => ?_)
        · refine ⟨furnished_applyUnder hm order now l.key op, ?_⟩
          change (op.applyUnder order now l.key m).2 =
            (Record.setMap i).replayAll (op.told _ (.ok (op.applyUnder order now l.key m).1)) m
          rw [applyUnder_eq_store hm, applyUnder_fst_eq hm]
          exact apply_told order op _ (.setMember l.key) (Record.setMap i) (m.store l.key)
            (store_same hm l.key) fun _ => rfl
        · intro n cause a b hb
          cases op with
          | members => rfl
          | _ => cases hb
        · rwa [told_member hl]

end SetMaps

end Service

open Service in
/-- **Notices are transparent and complete.** Callers of a notifying store over a base store are
served one after the other, whichever calls fail and whenever the handler does not cope. What each
is answered is what callers of the base store itself are answered, and the world that is left is the
same but for what was reported. Where nothing in the base store expires, the writes that the handler
has been told of, replayed in order on what the base store held at first, give what it holds. So it
is for maps, for sets, and for the sets that a map of sets has handed out. -/
theorem notices_replay_to_contents (faults : Faults V) (handler i : Nat) (w : World V) :
    (MapFit i w → ∀ (os : List (Occasion (PlainOp V))) (last : Occasion (PlainOp V)),
      let loud := map (Notify.map (Backend.map i) handler)
      let quiet := map (Backend.map i)
      let h := loud.serveAll faults ⟨w, []⟩ os
      let h' := quiet.serveAll faults ⟨w, []⟩ os
      (loud.turn faults h last).1 = (quiet.turn faults h' last).1 ∧
        Faithful handler (MapFit i) (Record.map i) w (loud.serve faults h last)
          (quiet.serve faults h' last)) ∧
    (∀ (os : List (Occasion SetOp)) (last : Occasion SetOp),
      let loud := set (Notify.set (Backend.set i) handler .member)
      let quiet := set (Backend.set i)
      let h := loud.serveAll faults ⟨w, []⟩ os
      let h' := quiet.serveAll faults ⟨w, []⟩ os
      (loud.turn faults h last).1 = (quiet.turn faults h' last).1 ∧
        Faithful handler (fun _ => True) (Record.set i) w (loud.serve faults h last)
          (quiet.serve faults h' last)) ∧
    (SetMapFit i w → ∀ (os : List (Occasion (SetUse Unit))) (last : Occasion (SetUse Unit)),
      (∀ o ∈ os, o.op.KeepsTrack) → last.op.KeepsTrack →
      let loud := setMap (Notify.setMap (Backend.setMap i) handler)
      let quiet := setMap (Backend.setMap i)
      let h := loud.serveAll faults ⟨w, []⟩ os
      let h' := quiet.serveAll faults ⟨w, []⟩ os
      (loud.turn faults h last).1 = (quiet.turn faults h' last).1 ∧
        Faithful handler (SetMapFit i) (Record.setMap i) w (loud.serve faults h last)
          (quiet.serve faults h' last)) := by
  refine ⟨fun hw os last => ?_, fun os last => ?_, fun hw os last hos hlast => ?_⟩
  · have hr := map_reports faults i handler
    exact hr.turn (hr.serveAll (fun _ _ => trivial) (.refl hw)) trivial
  · have hr := set_reports faults i handler
    exact hr.turn (hr.serveAll (fun _ _ => trivial) (.refl trivial)) trivial
  · have hr := setMap_reports faults i handler
    exact hr.turn (hr.serveAll hos (.refl hw)) hlast

/-- A map with a call that fails and a handler that does not cope in the end, and a set that is
written to long after it was handed out: of three calls each, two are reported. -/
theorem notices_replay_despite_failures :
    let k : Key := .text "k"
    let w : World Nat :=
      { setMaps := (∅ : Shelf (Base MemberMap)).put 0 { content := .ofList [(k, ["a"])] } }
    let faults : Faults Nat := .hitting [1]
    let loud := Service.map (Notify.map (Backend.map (V := Nat) 0) 3)
    let quiet := Service.map (Backend.map (V := Nat) 0)
    let os : List (Occasion (PlainOp Nat)) := [{ op := .add k 7 false }, { op := .remove k }]
    let last : Occasion (PlainOp Nat) := { op := .add k 8 true, failing := [3] }
    let h := loud.serve faults (loud.serveAll faults ⟨w, []⟩ os) last
    let loudSets := Service.setMap (Notify.setMap (Backend.setMap (V := Nat) 0) 3)
    let quietSets := Service.setMap (Backend.setMap (V := Nat) 0)
    let uses : List (Occasion (SetUse Unit)) :=
      [{ op := .reach () k }, { op := .member 0 (.add "b") }, { op := .member 0 (.remove "a") }]
    let lastUse : Occasion (SetUse Unit) :=
      { op := .member 0 (.add "c"), time := 90, failing := [3] }
    let q := loudSets.serve faults (loudSets.serveAll faults ⟨w, []⟩ uses) lastUse
    (h.world.heard 3).length = 2 ∧
      Service.Faithful 3 (Service.MapFit 0) (Service.Record.map 0) w h
        (quiet.serve faults (quiet.serveAll faults ⟨w, []⟩ os) last) ∧
      (q.world.heard 3).length = 2 ∧
      Service.Faithful 3 (Service.SetMapFit 0) (Service.Record.setMap 0) w q
        (quietSets.serve faults (quietSets.serveAll faults ⟨w, []⟩ uses) lastUse) := by
  intro k w faults loud quiet os last h loudSets quietSets uses lastUse q
  have hmap : Service.MapFit 0 w := ⟨rfl, EntryMap.every_empty⟩
  have hsetMap : Service.SetMapFit 0 w :=
    ⟨rfl, MemberMap.Furnished.ofList (P := (· = none)) rfl _⟩
  obtain ⟨hmaps, -, hsetMaps⟩ := notices_replay_to_contents faults 3 0 w
  refine ⟨by decide +kernel, (hmaps hmap os last).2, by decide +kernel, ?_⟩
  exact (hsetMaps hsetMap uses lastUse (by simp [uses, SetUse.KeepsTrack]) trivial).2

end TwinStore
