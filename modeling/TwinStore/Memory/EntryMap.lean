import TwinStore.Store.Key

/-!
# Entries with deadlines

A memory store keeps a `Slot` under each key: a value and, possibly, a deadline. A slot whose
deadline has come is expired: it counts as absent everywhere, although it may still be there until
some operation drops it. `EntryMap.live?` is the view that decides what a store holds.
-/

namespace TwinStore

/-- A stored value and the instant from which it counts as absent. -/
structure Slot (α : Type) where
  value : α
  deadline : Option Nat := none

/-- A slot is expired from its deadline on. -/
def Slot.isExpired (slot : Slot α) (now : Nat) : Bool :=
  slot.deadline.any (· ≤ now)

/-- The time left at a date until an instant, none once it has come. -/
def timeLeft (date instant : Nat) : Nat :=
  instant - date

/-- A memory map: one slot per key. -/
structure EntryMap (α : Type) where
  slots : KeyMap (Slot α) := ∅

namespace EntryMap

instance : Inhabited (EntryMap α) := ⟨{}⟩

/-- The live value under a key. -/
def live? (m : EntryMap α) (now : Nat) (k : Key) : Option α :=
  match m.slots[k]? with
  | some slot => if slot.isExpired now then none else some slot.value
  | none => none

/-- Drop the slot under a key if it is expired. -/
def evict (m : EntryMap α) (now : Nat) (k : Key) : EntryMap α :=
  match m.slots[k]? with
  | some slot => if slot.isExpired now then ⟨m.slots.erase k⟩ else m
  | none => m

/-- Put a value under a key, without a deadline. -/
def put (m : EntryMap α) (k : Key) (v : α) : EntryMap α :=
  ⟨m.slots.insert k { value := v }⟩

/-- Add an entry; a live entry is replaced only if `overwrite` is set. -/
def add (m : EntryMap α) (now : Nat) (k : Key) (v : α) (overwrite : Bool) : Bool × EntryMap α :=
  if !overwrite && (m.live? now k).isSome then (false, m) else (true, m.put k v)

/-- Read an entry, dropping it if it is expired. -/
def get (m : EntryMap α) (now : Nat) (k : Key) : Option α × EntryMap α :=
  (m.live? now k, m.evict now k)

/-- Remove an entry; the answer says whether it was live. -/
def remove (m : EntryMap α) (now : Nat) (k : Key) : Bool × EntryMap α :=
  ((m.live? now k).isSome, ⟨m.slots.erase k⟩)

/-- Look for an entry, dropping it if it is expired. -/
def contains (m : EntryMap α) (now : Nat) (k : Key) : Bool × EntryMap α :=
  ((m.live? now k).isSome, m.evict now k)

/-- Give a live entry a deadline; the answer says whether there was one. -/
def expireAt (m : EntryMap α) (now : Nat) (k : Key) (deadline : Nat) : Bool × EntryMap α :=
  match m.live? now k with
  | some v => (true, ⟨m.slots.insert k { value := v, deadline := some deadline }⟩)
  | none => (false, m)

/-- The live entries. -/
def entries (m : EntryMap α) (now : Nat) : List (Key × α) :=
  m.slots.toList.filterMap fun (k, slot) =>
    if slot.isExpired now then none else some (k, slot.value)

/-- The keys of the live entries. -/
def keys (m : EntryMap α) (now : Nat) : List Key :=
  (m.entries now).map (·.1)

/-- The number of live entries. -/
def size (m : EntryMap α) (now : Nat) : Nat :=
  (m.entries now).length

/-- Drop every expired slot; the answer says how many there were. -/
def purge (m : EntryMap α) (now : Nat) : Nat × EntryMap α :=
  let kept := m.slots.filter fun _ slot => !slot.isExpired now
  (m.slots.size - kept.size, ⟨kept⟩)

/-- The map with the given entries, the later of two under one key winning. -/
def ofList (entries : List (Key × α)) : EntryMap α :=
  entries.foldl (fun m (k, v) => m.put k v) {}

/-! ## What operations do to the view -/

section View

variable {α : Type} (m : EntryMap α) (now : Nat)

theorem live?_eq_some_iff {k : Key} {v : α} :
    m.live? now k = some v ↔
      ∃ slot, m.slots[k]? = some slot ∧ slot.isExpired now = false ∧ slot.value = v := by
  unfold live?
  cases h : m.slots[k]? with
  | none => simp
  | some slot => cases hx : slot.isExpired now <;> simp [hx]

@[simp] theorem live?_empty (k : Key) : ({} : EntryMap α).live? now k = none := by
  simp [live?]

/-- An inserted slot shows its value unless it is expired already. -/
theorem live?_insert (k k' : Key) (slot : Slot α) :
    (EntryMap.mk (m.slots.insert k slot)).live? now k' =
      if k = k' then (if slot.isExpired now then none else some slot.value)
      else m.live? now k' := by
  unfold live?
  by_cases h : k = k'
  · simp [h]
  · simp [Std.ExtTreeMap.getElem?_insert, h]

@[simp] theorem live?_put (k k' : Key) (v : α) :
    (m.put k v).live? now k' = if k = k' then some v else m.live? now k' := by
  simp [put, live?_insert, Slot.isExpired]

@[simp] theorem live?_erase (k k' : Key) :
    (EntryMap.mk (m.slots.erase k)).live? now k' =
      if k = k' then none else m.live? now k' := by
  unfold live?
  by_cases h : k = k'
  · simp [h]
  · simp [Std.ExtTreeMap.getElem?_erase, h]

/-- Dropping an expired slot changes nothing that can be seen. -/
@[simp] theorem live?_evict (k k' : Key) : (m.evict now k).live? now k' = m.live? now k' := by
  unfold evict
  cases h : m.slots[k]? with
  | none => rfl
  | some slot =>
    cases hx : slot.isExpired now with
    | false => simp [hx]
    | true =>
      by_cases hk : k = k'
      · subst hk
        simp [hx, live?, h]
      · simp [hx, hk]

@[simp] theorem live?_add (k k' : Key) (v : α) (overwrite : Bool) :
    (m.add now k v overwrite).2.live? now k' =
      if k = k' ∧ (m.add now k v overwrite).1 = true then some v else m.live? now k' := by
  unfold add
  split <;> simp

@[simp] theorem live?_get (k k' : Key) : (m.get now k).2.live? now k' = m.live? now k' :=
  m.live?_evict now k k'

@[simp] theorem live?_contains (k k' : Key) :
    (m.contains now k).2.live? now k' = m.live? now k' :=
  m.live?_evict now k k'

@[simp] theorem live?_remove (k k' : Key) :
    (m.remove now k).2.live? now k' = if k = k' then none else m.live? now k' :=
  m.live?_erase now k k'

/-- A deadline that has not come changes nothing that can be seen. -/
theorem live?_expireAt_of_lt (k k' : Key) {deadline : Nat} (h : now < deadline) :
    (m.expireAt now k deadline).2.live? now k' = m.live? now k' := by
  unfold expireAt
  split
  · rename_i v hv
    by_cases hk : k = k'
    · subst hk
      rw [hv]
      simp [live?, Slot.isExpired, Nat.not_le.2 h]
    · simp [live?, Std.ExtTreeMap.getElem?_insert, hk]
  · rfl

/-- The listed entries are the live ones. -/
theorem mem_entries_iff {k : Key} {v : α} :
    (k, v) ∈ m.entries now ↔ m.live? now k = some v := by
  simp only [entries, List.mem_filterMap, live?_eq_some_iff, Prod.exists,
    Std.ExtTreeMap.mem_toList_iff_getElem?_eq_some]
  constructor
  · rintro ⟨k', slot, hs, h⟩
    cases hx : slot.isExpired now <;> simp_all
  · rintro ⟨slot, hs, hx, hv⟩
    exact ⟨k, slot, hs, by simp [hx, hv]⟩

end View

end EntryMap

end TwinStore
