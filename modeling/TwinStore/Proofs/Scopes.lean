import Mathlib.Data.Sum.Basic
import TwinStore.Proofs.SetUses
import TwinStore.Scope

/-!
# What a scope records

A `ScopeLayout` is a scope with its decorated maps and maps of sets, each over a base store of its
own; the members of the scope are kept in yet another base store. The text of a member tells which
store it is about and which key (`ScopeLayout.Text.inj`), since no identifier holds the separator
and what is written can be read back.

What is done to the base stores and to the record is told apart. A call to a base store adds no key
but the one it inserts, and leaves the record alone (`ScopeLayout.Grows`); a key is recorded or
forgotten by a call that leaves all other stores alone (`ScopeLayout.Notes`). A use of a decorator
is made of one and perhaps the other, and `ScopeLayout.Step` is what remains of both: a key that has
been inserted through its decorator is recorded, and no recorded key is forgotten that is still
there.
-/

namespace TwinStore

variable {V α : Type}

/-! ## The text of a member -/

namespace Scope

/-- A member is split where its identifier ends, whatever its key is written like. -/
theorem split?_member {mapId : String} (h : separator ∉ mapId.toList) (raw : String) :
    split? (member mapId raw) = some (mapId, raw) := by
  have htext : (member mapId raw).toList = mapId.toList ++ separator :: raw.toList := by
    simp [member]
  have hplain : ∀ c ∈ mapId.toList, decide (c ≠ separator) = true := by
    intro c hc
    exact decide_eq_true fun heq => h (heq ▸ hc)
  unfold split?
  rw [htext, List.takeWhile_append_of_pos hplain, List.dropWhile_append_of_pos hplain]
  simp

/-- An identifier that is accepted does not hold the separator. -/
theorem not_mem_of_checkIdentifier {role identifier : String}
    (h : checkIdentifier role identifier = .ok ()) : separator ∉ identifier.toList := by
  intro hmem
  unfold checkIdentifier at h
  split at h
  · cases h
  · rw [if_pos (List.contains_iff_mem.2 hmem)] at h
    cases h

end Scope

/-! ## Sets that stay -/

/-- A set is kept without a deadline. -/
def MemberMap.Lasting (m : MemberMap) (k : Key) : Prop :=
  ∀ slot : Slot MemberSet, m.slots[k]? = some slot → slot.deadline = none

namespace MemberMap.Lasting

variable {m : MemberMap} {k : Key}

theorem insert (m : MemberMap) {slot : Slot MemberSet} (hslot : slot.deadline = none) :
    MemberMap.Lasting ⟨m.slots.insert k slot⟩ k := by
  intro slot' hs
  rw [Std.ExtTreeMap.getElem?_insert_self] at hs
  cases hs
  exact hslot

theorem erase (m : MemberMap) : MemberMap.Lasting ⟨m.slots.erase k⟩ k := by
  intro slot hs
  rw [Std.ExtTreeMap.getElem?_erase_self] at hs
  cases hs

theorem evict (h : m.Lasting k) (now : Nat) : MemberMap.Lasting (m.evict now k) k := by
  unfold EntryMap.evict
  split
  · split
    · exact erase m
    · exact h
  · exact h

/-- What is done to the members of a set without a deadline gives it none. -/
theorem applyUnder (h : m.Lasting k) (order : Arrangement) (now : Nat) (op : SetOp) :
    MemberMap.Lasting (op.applyUnder order now k m).2 k := by
  cases op with
  | add x =>
    change MemberMap.Lasting (MemberMap.addMember m now k x) k
    unfold MemberMap.addMember
    split
    · rename_i slot hs
      split
      · exact insert m rfl
      · exact insert m (h slot hs)
    · exact insert m rfl
  | remove x =>
    change MemberMap.Lasting (MemberMap.removeMember m now k x).2 k
    unfold MemberMap.removeMember
    split
    · rename_i slot hs
      split
      · exact h
      · dsimp only
        split
        · exact erase m
        · exact insert m (h slot hs)
    · exact h
  | contains x => exact h
  | members | count => exact h.evict now

/-- Time changes nothing. -/
theorem liveMembers_eq (h : m.Lasting k) (now later : Nat) :
    m.liveMembers later k = m.liveMembers now k := by
  cases hs : m.slots[k]? with
  | none => simp [MemberMap.liveMembers, EntryMap.live?, hs]
  | some slot => simp [MemberMap.liveMembers, EntryMap.live?, hs, Slot.isExpired, h slot hs]

end MemberMap.Lasting

/-! ## Keys that operations insert -/

namespace EntryMap

/-- A deadline makes no entry appear. -/
theorem isSome_live?_of_expireAt {m : EntryMap α} {now deadline : Nat} {k k' : Key}
    (h : ((m.expireAt now k deadline).2.live? now k').isSome) : (m.live? now k').isSome := by
  unfold expireAt at h
  split at h
  · rename_i v hv
    rw [live?_insert] at h
    by_cases hk : k = k'
    · subst hk
      rw [hv]
      rfl
    · rwa [if_neg hk] at h
  · exact h

end EntryMap

namespace MapOp

/-- The key that an operation is about. -/
def key? : MapOp V → Option Key
  | add k _ _ | get k | remove k | contains k | expire k _ | expireAt k _ => some k
  | keys => none

/-- The key that an operation inserts, given what it answers. -/
def inserted : (op : MapOp V) → op.Answer → Option Key
  | .add k _ _, true => some k
  | _, _ => none

/-- An entry that is there after an operation was there before, or was inserted. -/
theorem isSome_of_apply {op : MapOp V} {order : Arrangement} {now date : Nat} {m : EntryMap V}
    {k : Key} (h : ((op.apply order now date m).2.live? now k).isSome) :
    (m.live? now k).isSome ∨ op.inserted (op.apply order now date m).1 = some k := by
  cases op with
  | add k' v overwrite =>
    change ((m.add now k' v overwrite).2.live? now k).isSome at h
    rw [EntryMap.live?_add] at h
    split at h
    · rename_i hadded
      obtain ⟨rfl, hadded⟩ := hadded
      right
      change inserted (.add k' v overwrite) (m.add now k' v overwrite).1 = some k'
      rw [hadded]
      rfl
    · exact .inl h
  | get k' =>
    left
    rwa [← m.live?_get now k' k]
  | remove k' =>
    change ((m.remove now k').2.live? now k).isSome at h
    rw [EntryMap.live?_remove] at h
    split at h
    · cases h
    · exact .inl h
  | contains k' =>
    left
    rwa [← m.live?_contains now k' k]
  | keys => exact .inl h
  | expire | expireAt => exact .inl (EntryMap.isSome_live?_of_expireAt h)

end MapOp

/-! ## Layouts -/

/-- A map or a map of sets taking part in a scope: its identifier there, which keys are of its type
and how they are written, and the base store that it decorates. -/
structure Recorder where
  mapId : String
  accepted : Scope.checkIdentifier "map" mapId = .ok ()
  keys : Key → Prop
  serializer : KeySerializer
  undoes : ∀ k raw, keys k → serializer.encode k = .ok raw → serializer.decode raw = .ok k
  store : Nat

/-- Which of the maps, or which of the maps of sets. -/
abbrev Place (n m : Nat) := Fin n ⊕ Fin m

/-- A scope, the maps and the maps of sets that it decorates, each with an identifier and a base
store of its own, and the base map of sets that keeps its members. -/
structure ScopeLayout (n m : Nat) where
  identifier : String
  members : Nat
  maps : Fin n → Recorder
  sets : Fin m → Recorder
  ids : Function.Injective fun q => (Sum.elim maps sets q).mapId
  mapStores : Function.Injective fun i => (maps i).store
  setStores : Function.Injective fun j => (sets j).store
  apart : ∀ j, (sets j).store ≠ members

namespace ScopeLayout

variable {n m : Nat} (L : ScopeLayout n m)

/-- Who takes part in which place. -/
def recorder : Place n m → Recorder := Sum.elim L.maps L.sets

/-- The scope. -/
def scope (V : Type) : Scope V where
  identifier := L.identifier
  members := Backend.setMap L.members

/-- What the decorator in a place needs. -/
def enrolment (V : Type) (q : Place n m) : Enrolment V where
  scope := L.scope V
  mapId := (L.recorder q).mapId
  serializer := (L.recorder q).serializer

/-- How a decorated store takes part in the scope. -/
def participant (V : Type) : Place n m → Participant V
  | .inl i => (L.enrolment V (.inl i)).participant (Backend.map (L.maps i).store)
  | .inr j => (L.enrolment V (.inr j)).participant (Backend.setMap (L.sets j).store).toKeyedStore

/-- All who take part. -/
def participants (V : Type) : List (Participant V) :=
  List.ofFn (fun i => L.participant V (.inl i)) ++ List.ofFn (fun j => L.participant V (.inr j))

/-- A key in a place, and the text that records it. -/
def Text (q : Place n m) (k : Key) (text : String) : Prop :=
  (L.recorder q).keys k ∧ ∃ raw, (L.recorder q).serializer.encode k = .ok raw ∧
    text = Scope.member (L.recorder q).mapId raw

theorem split?_member (q : Place n m) (raw : String) :
    Scope.split? (Scope.member (L.recorder q).mapId raw) = some ((L.recorder q).mapId, raw) :=
  Scope.split?_member (Scope.not_mem_of_checkIdentifier (L.recorder q).accepted) raw

variable {L} {q q' : Place n m} {k k' : Key} {text : String}

/-- A text is about one key of one store. -/
theorem Text.inj (h : L.Text q k text) (h' : L.Text q' k' text) : q = q' ∧ k = k' := by
  obtain ⟨hk, raw, hraw, rfl⟩ := h
  obtain ⟨hk', raw', hraw', htext⟩ := h'
  have hsplit : some ((L.recorder q).mapId, raw) = some ((L.recorder q').mapId, raw') :=
    (L.split?_member q raw).symm.trans
      ((congrArg Scope.split? htext).trans (L.split?_member q' raw'))
  obtain ⟨hid, rfl⟩ := Prod.mk.inj (Option.some.inj hsplit)
  obtain rfl : q = q' := L.ids hid
  have hread := (L.recorder q).undoes k raw hk hraw
  exact ⟨rfl, Except.ok.inj (hread.symm.trans ((L.recorder q).undoes k' raw hk' hraw'))⟩

@[simp] theorem mapId_participant (q : Place n m) :
    (L.participant V q).mapId = (L.recorder q).mapId := by
  cases q <;> rfl

theorem mem_participants {p : Participant V} :
    p ∈ L.participants V ↔ ∃ q, L.participant V q = p := by
  unfold participants
  rw [List.mem_append, List.mem_ofFn, List.mem_ofFn, Sum.exists]

/-- Who takes part is found by the identifier. -/
theorem find?_participants (q : Place n m) :
    (L.participants V).find? (·.mapId = (L.recorder q).mapId) = some (L.participant V q) := by
  have hsome : ((L.participants V).find? (·.mapId = (L.recorder q).mapId)).isSome := by
    rw [List.find?_isSome]
    exact ⟨_, mem_participants.2 ⟨q, rfl⟩, by simp⟩
  obtain ⟨p, hp⟩ := Option.isSome_iff_exists.1 hsome
  obtain ⟨q', rfl⟩ := mem_participants.1 (List.mem_of_find?_eq_some hp)
  have hid : (L.recorder q').mapId = (L.recorder q).mapId := by simpa using List.find?_some hp
  rw [hp, L.ids hid]

/-! ## What is there and what is recorded -/

section Defs

variable (L) (s : Stand V)

/-- Whether a key is there. -/
def there : Place n m → Key → Bool
  | .inl i, k => ((s.maps (L.maps i).store).live? s.now k).isSome
  | .inr j, k => ((s.setMaps (L.sets j).store).live? s.now k).isSome

/-- What is kept under a key, whether it has expired or not. -/
def slot : Place n m → Key → Option (Slot V ⊕ Slot MemberSet)
  | .inl i, k => ((s.maps (L.maps i).store).slots[k]?).map .inl
  | .inr j, k => ((s.setMaps (L.sets j).store).slots[k]?).map .inr

/-- The members of the scope. -/
def record : MemberSet := s.members L.members (.text L.identifier)

/-- A key is recorded. -/
def Records (q : Place n m) (k : Key) : Prop := ∃ text ∈ L.record s, L.Text q k text

/-- All that is recorded is about keys, the record does not expire, and no set is empty. -/
structure Orderly : Prop where
  written : ∀ text ∈ L.record s, ∃ q k, L.Text q k text
  lasting : (s.setMaps L.members).Lasting (.text L.identifier)
  populated : ∀ j, (s.setMaps (L.sets j).store).Populated

end Defs

variable {s s' s'' : Stand V}

/-- With one more text about a key, the record still holds only texts about keys. -/
theorem Orderly.written_insert (h : L.Orderly s) (ht : L.Text q k text) :
    ∀ text' ∈ (L.record s).insert text, ∃ q k, L.Text q k text' := by
  intro text' hmem
  rcases Members.mem_insert_iff.1 hmem with rfl | hmem
  · exact ⟨q, k, ht⟩
  · exact h.written text' hmem

theorem there_inl (i : Fin n) (k : Key) :
    L.there s (.inl i) k = ((s.maps (L.maps i).store).live? s.now k).isSome := rfl

theorem there_inr (j : Fin m) (k : Key) :
    L.there s (.inr j) k = ((s.setMaps (L.sets j).store).live? s.now k).isSome := rfl

theorem slot_inl (i : Fin n) (k : Key) :
    L.slot s (.inl i) k = ((s.maps (L.maps i).store).slots[k]?).map .inl := rfl

theorem slot_inr (j : Fin m) (k : Key) :
    L.slot s (.inr j) k = ((s.setMaps (L.sets j).store).slots[k]?).map .inr := rfl

/-- A call about the scope leaves what is kept elsewhere as it was. -/
theorem slot_onSetMap_members (op : SetMapOp) (q : Place n m) (k : Key) :
    L.slot (s.onSetMap L.members op) q k = L.slot s q k := by
  cases q with
  | inl i => rfl
  | inr j => rw [slot_inr, slot_inr, Stand.setMaps_onSetMap_of_ne s op (L.apart j)]

/-- What is there is decided by what is kept under the key, and the time. -/
theorem there_congr (hslot : L.slot s' q k = L.slot s q k) (hnow : s'.now = s.now) :
    L.there s' q k = L.there s q k := by
  cases q with
  | inl i =>
    have h := Option.map_injective Sum.inl_injective hslot
    simp only [there, EntryMap.live?, h, hnow]
  | inr j =>
    have h := Option.map_injective Sum.inr_injective hslot
    simp only [there, EntryMap.live?, h, hnow]

theorem there_of_slot_none (hslot : L.slot s q k = none) : L.there s q k = false := by
  cases q with
  | inl i =>
    have h := Option.map_eq_none_iff.1 hslot
    simp [there, EntryMap.live?, h]
  | inr j =>
    have h := Option.map_eq_none_iff.1 hslot
    simp [there, EntryMap.live?, h]

/-- A call to a base store: no key appears but the one that is inserted, and the record is as it
was. -/
structure Grows (L : ScopeLayout n m) (inserted : Option (Place n m × Key)) (s s' : Stand V) :
    Prop where
  now : s'.now = s.now
  there : ∀ q k, L.there s' q k = true → L.there s q k = true ∨ inserted = some (q, k)
  members : s'.setMaps L.members = s.setMaps L.members
  populated : ∀ j, (s.setMaps j).Populated → (s'.setMaps j).Populated

/-- The members of the scope have become these; all that is there is as it was. -/
structure Notes (L : ScopeLayout n m) (x : MemberSet) (s s' : Stand V) : Prop where
  now : s'.now = s.now
  slot : ∀ q k, L.slot s' q k = L.slot s q k
  record : L.record s' = x
  lasting : (s.setMaps L.members).Lasting (.text L.identifier) →
    (s'.setMaps L.members).Lasting (.text L.identifier)
  populated : ∀ j, (s.setMaps j).Populated → (s'.setMaps j).Populated

/-- What a use leaves, given the key that it has inserted and whether it went through the decorator:
such a key is recorded, no other key appears, and no recorded key is forgotten that is still
there. -/
structure Step (L : ScopeLayout n m) (inserted : Option (Bool × Place n m × Key))
    (s s' : Stand V) : Prop where
  now : s'.now = s.now
  there : ∀ q k, L.there s' q k = true →
    L.there s q k = true ∨ ∃ through, inserted = some (through, q, k)
  records : ∀ q k, inserted = some (true, q, k) → L.Records s' q k
  keeps : ∀ q k, L.Records s q k → L.there s' q k = true → L.Records s' q k
  orderly : L.Orderly s → L.Orderly s'

namespace Grows

variable {inserted : Option (Place n m × Key)}

theorem refl (s : Stand V) : L.Grows none s s := ⟨rfl, fun _ _ => .inl, rfl, fun _ => id⟩

theorem trans (h : L.Grows none s s') (h' : L.Grows inserted s' s'') : L.Grows inserted s s'' where
  now := h'.now.trans h.now
  there q k ht := (h'.there q k ht).imp (fun ht => (h.there q k ht).resolve_right nofun) id
  members := h'.members.trans h.members
  populated j hp := h'.populated j (h.populated j hp)

theorem record (h : L.Grows inserted s s') : L.record s' = L.record s := by
  unfold ScopeLayout.record Stand.members
  rw [h.members, h.now]

theorem records (h : L.Grows inserted s s') : L.Records s' q k ↔ L.Records s q k := by
  unfold Records
  rw [h.record]

theorem orderly (h : L.Grows inserted s s') (hs : L.Orderly s) : L.Orderly s' where
  written := h.record ▸ hs.written
  lasting := h.members ▸ hs.lasting
  populated j := h.populated _ (hs.populated j)

/-- A call to a base store that does not go through a decorator. -/
theorem step (h : L.Grows inserted s s') : L.Step (inserted.map (Prod.mk false)) s s' where
  now := h.now
  there q k ht := (h.there q k ht).imp id fun hq => ⟨false, by rw [hq]; rfl⟩
  records q k hq := by
    cases inserted <;> simp at hq
  keeps q k hr _ := h.records.2 hr
  orderly := h.orderly

theorem of_map (i : Fin n) (op : MapOp V) :
    L.Grows ((op.inserted (op.apply s.order s.now s.date (s.maps (L.maps i).store)).1).map
      (Prod.mk (.inl i))) s (s.onMap (L.maps i).store op) where
  now := rfl
  there q k ht := by
    cases q with
    | inr j => exact .inl ht
    | inl i' =>
      by_cases hi : i' = i
      · subst hi
        rw [there_inl, Stand.maps_onMap_self] at ht
        refine (MapOp.isSome_of_apply ht).imp id fun hk => ?_
        rw [hk]
        rfl
      · left
        have hstore : (L.maps i').store ≠ (L.maps i).store := fun h => hi (L.mapStores h)
        rwa [there_inl, Stand.maps_onMap_of_ne s op hstore] at ht
  members := rfl
  populated _ := id

theorem there_sets {j : Fin m} (hp : (s.setMaps (L.sets j).store).Populated) (k : Key) :
    L.there s (.inr j) k = !(s.members (L.sets j).store k).isEmpty :=
  hp.isSome_live? s.now k

/-- A set has become another; its key is inserted unless it was there. -/
theorem of_becomes {j : Fin m} {x : MemberSet} (hp : (s.setMaps (L.sets j).store).Populated)
    (h : s.Becomes (L.sets j).store k x s')
    (hx : x.isEmpty = false → (s.members (L.sets j).store k).isEmpty = false ∨
      inserted = some (.inr j, k)) : L.Grows inserted s s' where
  now := h.now_eq
  there q k' ht := by
    cases q with
    | inl i =>
      left
      rwa [there_inl, h.now_eq, h.maps_eq] at ht
    | inr j' =>
      by_cases hj : j' = j
      · subst hj
        rw [there_sets (h.populated _ hp)] at ht
        rw [there_sets hp]
        by_cases hk : k' = k
        · subst hk
          rw [h.here] at ht
          refine (hx (by simpa using ht)).imp (fun hne => by rw [hne]; rfl) id
        · rw [h.others _ _ (.inr hk)] at ht
          exact .inl ht
      · left
        have hstore : (L.sets j').store ≠ (L.sets j).store := fun h => hj (L.setStores h)
        rwa [there_inr, h.now_eq, h.rest _ hstore] at ht
  members := h.rest _ (L.apart j).symm
  populated := h.populated

end Grows

namespace Notes

theorem there {x : MemberSet} (h : L.Notes x s s') (q : Place n m) (k : Key) :
    L.there s' q k = L.there s q k :=
  there_congr (h.slot q k) h.now

/-- What was recorded still is, if nothing has been forgotten. -/
theorem keeps {x : MemberSet} (h : L.Notes x s s') (hx : ∀ text ∈ L.record s, text ∈ x)
    (hr : L.Records s q k) : L.Records s' q k := by
  obtain ⟨text, hmem, ht⟩ := hr
  exact ⟨text, h.record ▸ hx text hmem, ht⟩

theorem orderly {x : MemberSet} (h : L.Notes x s s') (hx : ∀ text ∈ x, ∃ q k, L.Text q k text)
    (hs : L.Orderly s) : L.Orderly s' where
  written := h.record ▸ hx
  lasting := h.lasting hs.lasting
  populated j := h.populated _ (hs.populated j)

/-- An operation on a member of the scope changes nothing but the record. -/
theorem of_member (op : SetOp) :
    L.Notes (op.apply s.order (L.record s)).2 s
      (s.onSetMap L.members (.member (.text L.identifier) op)) := by
  have hhere := s.setMaps_onSetMap_self L.members (.member (.text L.identifier) op)
  have hrest (j : Nat) (hj : j ≠ L.members) :=
    s.setMaps_onSetMap_of_ne (.member (.text L.identifier) op) hj
  refine ⟨rfl, slot_onSetMap_members _, ?_, fun h => ?_, fun j hp => ?_⟩
  · unfold ScopeLayout.record Stand.members
    rw [hhere]
    exact (MemberMap.liveMembers_applyUnder op _).trans (if_pos rfl)
  · rw [hhere]
    exact h.applyUnder s.order s.now op
  · by_cases hj : j = L.members
    · subst hj
      rw [hhere]
      exact hp.applyUnder op
    · rwa [hrest j hj]

/-- Reaching for the set of the record changes nothing. -/
theorem of_reach :
    L.Notes (L.record s) s (s.onSetMap L.members (.reach (.text L.identifier))) := by
  have hsame : (s.onSetMap L.members (.reach (.text L.identifier))).setMaps = s.setMaps :=
    Function.update_eq_self ..
  refine ⟨rfl, slot_onSetMap_members _, ?_, fun h => ?_, fun j hp => ?_⟩
  · unfold ScopeLayout.record Stand.members
    rw [hsame]
    rfl
  · rwa [hsame]
  · rwa [hsame]

theorem trans {x y : MemberSet} (h : L.Notes x s s') (h' : L.Notes y s' s'') :
    L.Notes y s s'' where
  now := h'.now.trans h.now
  slot q k := (h'.slot q k).trans (h.slot q k)
  record := h'.record
  lasting hl := h'.lasting (h.lasting hl)
  populated j hp := h'.populated j (h.populated j hp)

end Notes

namespace Step

theorem refl (s : Stand V) : L.Step none s s := (Grows.refl s).step

/-- A key has been inserted, and then recorded. -/
theorem of_insert (h : L.Grows (some (q, k)) s s') (ht : L.Text q k text)
    (h' : L.Notes ((L.record s').insert text) s' s'') : L.Step (some (true, q, k)) s s'' where
  now := h'.now.trans h.now
  there q' k' hthere := by
    rw [h'.there] at hthere
    refine (h.there q' k' hthere).imp id fun hq => ⟨true, ?_⟩
    cases hq
    rfl
  records q' k' hq := by
    cases hq
    refine ⟨text, ?_, ht⟩
    rw [h'.record]
    exact Members.mem_insert_iff.2 (.inl rfl)
  keeps q' k' hr _ :=
    h'.keeps (fun text' hmem => Members.mem_insert_iff.2 (.inr hmem)) (h.records.2 hr)
  orderly hs := by
    have hs' := h.orderly hs
    exact h'.orderly (hs'.written_insert ht) hs'

/-- Forgetting a key that is gone is a step that inserts nothing. -/
theorem of_removal (h : L.Grows none s s') (hgone : L.there s' q k = false)
    (ht : L.Text q k text) (h' : L.Notes ((L.record s').erase text) s' s'') :
    L.Step none s s'' where
  now := h'.now.trans h.now
  there q' k' hthere := by
    rw [h'.there] at hthere
    exact .inl ((h.there q' k' hthere).resolve_right nofun)
  records _ _ hq := nomatch hq
  keeps q' k' hr hthere := by
    obtain ⟨text', hmem, ht'⟩ := h.records.2 hr
    refine ⟨text', ?_, ht'⟩
    rw [h'.record]
    refine Std.ExtTreeSet.mem_erase.2 ⟨fun heq => ?_, hmem⟩
    -- What is forgotten is about a key that is not there.
    obtain rfl : text = text' := Std.LawfulEqCmp.compare_eq_iff_eq.1 heq
    obtain ⟨rfl, rfl⟩ := ht.inj ht'
    rw [h'.there, hgone] at hthere
    cases hthere
  orderly hs := by
    have hs' := h.orderly hs
    exact h'.orderly
      (fun text' hmem => hs'.written text' (Std.ExtTreeSet.mem_of_mem_erase hmem)) hs'

end Step

/-! ## The record -/

section Record

variable {faults : Faults V} {t : Token} (hmembers : faults.Spares (.setMap L.members))
include hmembers

/-- Asking for the record gives the set under the scope's identifier, and changes nothing. -/
theorem ends_reached :
    ((L.scope V).record t).ends faults.regime (fun set s' =>
      set = Backend.setUnder L.members (.text L.identifier) ∧ L.Notes (L.record s) s s') s :=
  Action.ends_bind (Action.ends_bind (hmembers.ends_onSetMap (.reach (.text L.identifier))
    (Action.ends_pure (Action.ends_pure ⟨rfl, .of_reach⟩))))

/-- An operation on the record answers for its members, and changes nothing but them. -/
theorem ends_noted (op : SetOp) :
    (op.on (Backend.setUnder L.members (.text L.identifier)) t).ends faults.regime (fun a s' =>
      a = (op.apply s.order (L.record s)).1 ∧
        L.Notes (op.apply s.order (L.record s)).2 s s') s := by
  have hcall : op.on (Backend.setUnder L.members (.text L.identifier)) t =
      Backend.onSetMap (V := V) L.members (.member (.text L.identifier) op) t := by
    cases op <;> rfl
  rw [hcall]
  exact hmembers.ends_onSetMap _ ⟨MemberMap.applyUnder_fst op, .of_member op⟩

theorem ends_addKey (mapId raw : String) :
    ((L.scope V).addKey mapId raw t).ends faults.regime (fun _ s' =>
      L.Notes ((L.record s).insert (Scope.member mapId raw)) s s') s := by
  refine Action.ends_bind (Action.ends_mono (ends_reached hmembers) ?_)
  rintro _ s' ⟨rfl, hreach⟩
  refine Action.ends_mono (ends_noted hmembers (.add (Scope.member mapId raw))) fun _ s'' h => ?_
  have hadded := hreach.trans h.2
  rwa [hreach.record] at hadded

theorem ends_removeKey (mapId raw : String) :
    ((L.scope V).removeKey mapId raw t).ends faults.regime (fun _ s' =>
      L.Notes ((L.record s).erase (Scope.member mapId raw)) s s') s := by
  refine Action.ends_bind (Action.ends_mono (ends_reached hmembers) ?_)
  rintro _ s' ⟨rfl, hreach⟩
  refine Action.ends_mono (ends_noted hmembers (.remove (Scope.member mapId raw))) fun _ s'' h => ?_
  have hremoved := hreach.trans h.2
  rwa [hreach.record] at hremoved

end Record

end ScopeLayout

end TwinStore
