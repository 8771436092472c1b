import TwinStore.Memory.EntryMap

/-!
# Member sets under keys

A member map keeps a set of members under each key, with the deadlines of `EntryMap`. A key exists
exactly while its set has a member: storing an empty set erases the key, and so does taking the last
member away. Members are added and removed one at a time through the key.
-/

namespace TwinStore

/-- A memory map from keys to member sets. -/
abbrev MemberMap := EntryMap MemberSet

namespace MemberMap

/-- The live members under a key, none if the key is absent. -/
def liveMembers (m : MemberMap) (now : Nat) (k : Key) : MemberSet :=
  (m.live? now k).getD ∅

/-- Whether a whole set may be stored under a key. -/
def accepts (m : MemberMap) (now : Nat) (k : Key) (overwrite : Bool) : Bool :=
  overwrite || !(m.live? now k).isSome

/-- Store a whole set under a key; an empty set erases the key. -/
def store (m : MemberMap) (k : Key) (members : MemberSet) : MemberMap :=
  if members.isEmpty then ⟨m.slots.erase k⟩ else m.put k members

/-- Add a member: a live set keeps its deadline, an expired or absent one starts afresh. -/
def addMember (m : MemberMap) (now : Nat) (k : Key) (x : String) : MemberMap :=
  match m.slots[k]? with
  | some slot =>
    if slot.isExpired now then m.put k ((∅ : MemberSet).insert x)
    else ⟨m.slots.insert k { slot with value := slot.value.insert x }⟩
  | none => m.put k ((∅ : MemberSet).insert x)

/-- Remove a member from a live set, and the key with the last one. -/
def removeMember (m : MemberMap) (now : Nat) (k : Key) (x : String) : Bool × MemberMap :=
  match m.slots[k]? with
  | some slot =>
    if slot.isExpired now then (false, m)
    else
      let rest := slot.value.erase x
      (slot.value.contains x,
        if rest.isEmpty then ⟨m.slots.erase k⟩
        else ⟨m.slots.insert k { slot with value := rest }⟩)
  | none => (false, m)

/-- The members under a key, dropping an expired set. -/
def members (m : MemberMap) (now : Nat) (k : Key) : List String × MemberMap :=
  ((liveMembers m now k).toList, m.evict now k)

/-- Whether a member is in the live set under a key. -/
def hasMember (m : MemberMap) (now : Nat) (k : Key) (x : String) : Bool :=
  (liveMembers m now k).contains x

/-- The number of members under a key, dropping an expired set. -/
def memberCount (m : MemberMap) (now : Nat) (k : Key) : Nat × MemberMap :=
  ((liveMembers m now k).size, m.evict now k)

/-- The map with the given sets, stored one after the other. -/
def ofList (entries : List (Key × List String)) : MemberMap :=
  entries.foldl (fun m (k, xs) => store m k (Std.ExtTreeSet.ofList xs)) {}

/-! ## What operations do to the view -/

section View

variable (m : MemberMap) (now : Nat)

@[simp] theorem liveMembers_store (k k' : Key) (members : MemberSet) :
    liveMembers (store m k members) now k' =
      if k = k' then members else liveMembers m now k' := by
  unfold store liveMembers
  cases h : members.isEmpty with
  | false =>
    by_cases hk : k = k' <;> simp [hk]
  | true =>
    by_cases hk : k = k'
    · simp [hk, Std.ExtTreeSet.isEmpty_iff.1 h]
    · simp [hk]

@[simp] theorem liveMembers_addMember (k k' : Key) (x : String) :
    liveMembers (addMember m now k x) now k' =
      if k = k' then (liveMembers m now k).insert x else liveMembers m now k' := by
  unfold addMember
  cases h : m.slots[k]? with
  | none =>
    have hm : m.live? now k = none := by simp [EntryMap.live?, h]
    by_cases hk : k = k'
    · subst hk
      simp [liveMembers, hm]
    · simp [liveMembers, hk]
  | some slot =>
    cases hx : slot.isExpired now with
    | true =>
      have hm : m.live? now k = none := by simp [EntryMap.live?, h, hx]
      by_cases hk : k = k'
      · subst hk
        simp [liveMembers, hx, hm]
      · simp [liveMembers, hx, hk]
    | false =>
      have hm : m.live? now k = some slot.value := by simp [EntryMap.live?, h, hx]
      have hy : (Slot.mk (slot.value.insert x) slot.deadline).isExpired now = false := hx
      by_cases hk : k = k'
      · subst hk
        simp [liveMembers, EntryMap.live?_insert, hx, hy, hm]
      · simp [liveMembers, EntryMap.live?_insert, hx, hk]

@[simp] theorem liveMembers_removeMember (k k' : Key) (x : String) :
    liveMembers (removeMember m now k x).2 now k' =
      if k = k' then (liveMembers m now k).erase x else liveMembers m now k' := by
  unfold removeMember
  cases h : m.slots[k]? with
  | none =>
    have hm : m.live? now k = none := by simp [EntryMap.live?, h]
    by_cases hk : k = k'
    · subst hk
      simp [liveMembers, hm]
    · simp [hk]
  | some slot =>
    cases hx : slot.isExpired now with
    | true =>
      have hm : m.live? now k = none := by simp [EntryMap.live?, h, hx]
      by_cases hk : k = k'
      · subst hk
        simp [liveMembers, hx, hm]
      · simp [hx, hk]
    | false =>
      have hm : m.live? now k = some slot.value := by simp [EntryMap.live?, h, hx]
      have hy : (Slot.mk (slot.value.erase x) slot.deadline).isExpired now = false := hx
      by_cases hk : k = k'
      · subst hk
        cases he : (slot.value.erase x).isEmpty with
        | true => simp [liveMembers, hx, hm, Std.ExtTreeSet.isEmpty_iff.1 he]
        | false => simp [liveMembers, EntryMap.live?_insert, hx, hy, he, hm]
      · cases he : (slot.value.erase x).isEmpty <;>
          simp [liveMembers, EntryMap.live?_insert, hx, he, hk]

/-- A removal says whether the member was there. -/
theorem removeMember_fst (k : Key) (x : String) :
    (removeMember m now k x).1 = hasMember m now k x := by
  unfold removeMember hasMember liveMembers EntryMap.live?
  cases h : m.slots[k]? with
  | none => simp
  | some slot => cases hx : slot.isExpired now <;> simp [hx]

end View

end MemberMap

end TwinStore
