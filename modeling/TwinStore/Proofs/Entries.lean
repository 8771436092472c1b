import TwinStore.Memory.EntryMap
import TwinStore.Proofs.Scene

/-!
# Entries under keys

What a keyed store holds is a function from keys to values, `Entries`. Until the horizon that its
slots outlast, what a memory map holds is what its slots hold (`EntryMap.Outlasts`). Each operation
has its `Effect`. A copy from one store to another writes the source's entries under some keys
(`Entries.copied`) and removes what only the target has (`Entries.without`); one that breaks off
leaves under every key what the target had or what the source has (`Entries.Mixed`).
-/

namespace TwinStore

variable {V : Type}

/-! ## Entries that do not expire -/

namespace EntryMap

variable {α : Type} {m : EntryMap α} {horizon now : Nat}

/-- Something holds of every slot. -/
def Every (m : EntryMap α) (P : Slot α → Prop) : Prop :=
  ∀ (k : Key) (slot : Slot α), m.slots[k]? = some slot → P slot

section Every

variable {P : Slot α → Prop}

theorem every_empty : ({} : EntryMap α).Every P := by
  intro k slot hs
  rw [Std.ExtTreeMap.getElem?_empty] at hs
  cases hs

theorem Every.insert (h : m.Every P) (k : Key) {slot : Slot α} (hs : P slot) :
    (EntryMap.mk (m.slots.insert k slot)).Every P := by
  intro k' slot' hs'
  rw [Std.ExtTreeMap.getElem?_insert] at hs'
  split at hs'
  · cases hs'
    exact hs
  · exact h k' slot' hs'

theorem Every.erase (h : m.Every P) (k : Key) : (EntryMap.mk (m.slots.erase k)).Every P := by
  intro k' slot hs
  rw [Std.ExtTreeMap.getElem?_erase] at hs
  split at hs
  · cases hs
  · exact h k' slot hs

theorem Every.evict (h : m.Every P) (k : Key) : (m.evict now k).Every P := by
  unfold EntryMap.evict
  split
  · split
    · exact h.erase k
    · exact h
  · exact h

end Every

/-- No slot is expired at the horizon. -/
def Outlasts (m : EntryMap α) (horizon : Nat) : Prop :=
  ∀ (k : Key) (slot : Slot α), m.slots[k]? = some slot → slot.isExpired horizon = false

/-- Until the horizon, slots under the keys are all that matters. -/
theorem Outlasts.live? (h : m.Outlasts horizon) (hnow : now ≤ horizon) (k : Key) :
    m.live? now k = (m.slots[k]?).map Slot.value := by
  unfold EntryMap.live?
  cases hs : m.slots[k]? with
  | none => rfl
  | some slot =>
    have hx : slot.isExpired now = false := by
      have hh := h k slot hs
      unfold Slot.isExpired at hh ⊢
      cases hd : slot.deadline with
      | none => rfl
      | some d =>
        rw [hd] at hh
        simp only [Option.any_some, decide_eq_false_iff_not] at hh ⊢
        omega
    simp [hx]

theorem Outlasts.put (h : m.Outlasts horizon) (k : Key) (v : α) : (m.put k v).Outlasts horizon :=
  Every.insert h k rfl

theorem Outlasts.erase (h : m.Outlasts horizon) (k : Key) :
    (EntryMap.mk (m.slots.erase k)).Outlasts horizon :=
  Every.erase h k

theorem Outlasts.evict (h : m.Outlasts horizon) (k : Key) : (m.evict now k).Outlasts horizon :=
  Every.evict h k

theorem Outlasts.add (h : m.Outlasts horizon) (k : Key) (v : α) (overwrite : Bool) :
    (m.add now k v overwrite).2.Outlasts horizon := by
  unfold EntryMap.add
  split
  · exact h
  · exact h.put k v

theorem outlasts_ofList (entries : List (Key × α)) (horizon : Nat) :
    (EntryMap.ofList entries).Outlasts horizon := by
  have h : ∀ m : EntryMap α, m.Outlasts horizon →
      (entries.foldl (fun m entry => m.put entry.1 entry.2) m).Outlasts horizon := by
    induction entries with
    | nil => exact fun m hm => hm
    | cons entry entries ih => exact fun m hm => ih _ (hm.put entry.1 entry.2)
  exact h {} every_empty

/-- The listed keys are those under which there is a live entry. -/
theorem mem_keys_iff (k : Key) : k ∈ m.keys now ↔ (m.live? now k).isSome := by
  unfold EntryMap.keys
  rw [List.mem_map, Option.isSome_iff_exists]
  constructor
  · rintro ⟨⟨k', v⟩, hmem, rfl⟩
    exact ⟨v, (m.mem_entries_iff now).1 hmem⟩
  · rintro ⟨v, hv⟩
    exact ⟨(k, v), (m.mem_entries_iff now).2 hv, rfl⟩

end EntryMap

/-! ## What operations do to what a map holds -/

/-- What a map holds. -/
abbrev Entries (V : Type) := Key → Option V

namespace Entries

/-- A value under a key. -/
def set (c : Entries V) (k : Key) (x : Option V) : Entries V :=
  fun k' => if k = k' then x else c k'

@[simp] theorem set_self (c : Entries V) (k : Key) (x : Option V) : c.set k x k = x := if_pos rfl

theorem set_of_ne (c : Entries V) {k k' : Key} (x : Option V) (h : k ≠ k') :
    c.set k x k' = c k' := if_neg h

/-- What is under a key becomes something else. -/
def update (c : Entries V) (k : Key) (f : Option V → Option V) : Entries V :=
  c.set k (f (c k))

theorem update_of_eq {c : Entries V} {k : Key} (f : Option V → Option V) (h : f (c k) = c k) :
    c.update k f = c := by
  funext k'
  unfold update
  by_cases hk : k = k'
  · subst hk
    rw [set_self, h]
  · exact c.set_of_ne _ hk

/-- What is under a key in the end depends on what was there. -/
theorem update_congr {c c' : Entries V} {k' : Key} (k : Key) (f : Option V → Option V)
    (h : c k' = c' k') : c.update k f k' = c'.update k f k' := by
  unfold update
  by_cases hk : k = k'
  · subst hk
    rw [set_self, set_self, h]
  · rw [set_of_ne _ _ hk, set_of_ne _ _ hk, h]

/-- Add an entry; one that is there is replaced only if it may be overwritten. -/
def adding (k : Key) (v : V) (overwrite : Bool) : Effect (Entries V) Bool where
  after c := if !overwrite && (c k).isSome then c else c.set k (some v)
  answers c a := a = !(!overwrite && (c k).isSome)

/-- Read an entry. -/
def reading (k : Key) : Effect (Entries V) (Option V) where
  after := id
  answers c a := a = c k

/-- Read an entry, which the answer stands for in some other form. -/
def fetching {β : Type} (k : Key) (Stands : V → β → Prop) : Effect (Entries V) (Option β) where
  after := id
  answers c b := c k = none ∧ b = none ∨ ∃ x y, c k = some x ∧ b = some y ∧ Stands x y

/-- Remove an entry; the answer says whether it was there. -/
def removing (k : Key) : Effect (Entries V) Bool where
  after c := c.set k none
  answers c a := a = (c k).isSome

/-- Look for an entry. -/
def finding (k : Key) : Effect (Entries V) Bool where
  after := id
  answers c a := a = (c k).isSome

/-- List the keys, in any order. -/
def listing : Effect (Entries V) (List Key) where
  after := id
  answers c ks := ∀ k, k ∈ ks ↔ (c k).isSome

/-- Under each key, what one of two maps holds: what a copy that fails may leave. -/
def Mixed (source target c : Entries V) : Prop :=
  ∀ k, c k = target k ∨ c k = source k

theorem Mixed.of_set {source target c : Entries V} {k : Key}
    (h : Mixed source (target.set k (source k)) c) : Mixed source target c := by
  intro k'
  rcases h k' with ht | hs
  · by_cases hk : k = k'
    · subst hk
      exact .inr (by rw [ht, set_self])
    · exact .inl (by rw [ht, set_of_ne _ _ hk])
  · exact .inr hs

/-- What a target holds once the source's entries under some keys have been copied. -/
def copied (source : Entries V) (ks : List Key) (target : Entries V) : Entries V :=
  fun k => if k ∈ ks ∧ (source k).isSome then source k else target k

theorem copied_nil (source target : Entries V) : copied source [] target = target := by
  funext k
  exact if_neg fun h => nomatch h.1

theorem copied_cons_of_some {source target : Entries V} {k : Key} {x : V} (ks : List Key)
    (h : source k = some x) :
    copied source (k :: ks) target = copied source ks (target.set k (some x)) := by
  funext k'
  unfold copied
  by_cases hk : k = k'
  · subst hk
    simp [h]
  · rw [set_of_ne _ _ hk]
    simp [Ne.symm hk]

theorem copied_cons_of_none {source target : Entries V} {k : Key} (ks : List Key)
    (h : source k = none) : copied source (k :: ks) target = copied source ks target := by
  funext k'
  unfold copied
  by_cases hk : k' = k
  · subst hk
    simp [h]
  · simp [hk]

theorem mixed_copied (source : Entries V) (ks : List Key) (target : Entries V) :
    Mixed source target (copied source ks target) := by
  intro k
  unfold copied
  split
  · exact .inr rfl
  · exact .inl rfl

/-- What a target holds once the entries under some keys have been removed. -/
def without (ks : List Key) (c : Entries V) : Entries V :=
  fun k => if k ∈ ks then none else c k

theorem without_cons (k : Key) (ks : List Key) (c : Entries V) :
    without (k :: ks) c = without ks (c.set k none) := by
  funext k'
  unfold without
  by_cases hk : k = k'
  · subst hk
    simp
  · rw [set_of_ne _ _ hk]
    simp [Ne.symm hk]

/-- All keys of the source copied, and what only the target had removed. -/
theorem without_copied {source target : Entries V} {ks rest : List Key}
    (hks : ∀ k, k ∈ ks ↔ (source k).isSome)
    (hrest : ∀ k, k ∈ rest ↔ (target k).isSome ∧ source k = none) :
    without rest (copied source ks target) = source := by
  funext k
  unfold without copied
  by_cases hk : k ∈ rest
  · rw [if_pos hk, ((hrest k).1 hk).2]
  · rw [if_neg hk]
    cases hs : source k with
    | some x => simp [(hks k).2, hs]
    | none =>
      have ht : target k = none := by
        cases ht : target k with
        | none => rfl
        | some x => exact absurd ((hrest k).2 ⟨by simp [ht], hs⟩) hk
      simp [ht]

end Entries

end TwinStore
