import TwinStore.Proofs.SetUses

/-!
# Stores that forget at once

A `Prompt` store drops every entry at the instant its deadline comes, so that no operation has to
ask what has expired: a key is there, or it is not. `PromptSets` keeps sets in such a store, and a
key in it exists exactly while its set has a member. Both are what the memory stores pretend to be.

`EntryMap.prompt` drops from a memory store what has expired. What an operation answers, and what it
leaves once the expired is dropped, is what it answers and leaves in a store that forgets at once
(`MapOp.apply_prompt`, `SetMapOp.apply_prompt`): each operation may treat an expired slot in its own
way, and none of that can be seen.
-/

namespace TwinStore

variable {V α : Type}

/-! ## Entries -/

/-- Entries with deadlines, dropped at the instant these come. -/
structure Prompt (α : Type) where
  slots : KeyMap (Slot α) := ∅

namespace Prompt

/-- The time has come: whatever has its deadline by now is dropped. -/
def drop (p : Prompt α) (now : Nat) : Prompt α :=
  ⟨p.slots.filter fun _ slot => !slot.isExpired now⟩

/-- The value under a key. -/
def value? (p : Prompt α) (k : Key) : Option α :=
  p.slots[k]?.map Slot.value

/-- Whether there is an entry under a key. -/
def has (p : Prompt α) (k : Key) : Bool :=
  (p.value? k).isSome

/-- Put a slot under a key. -/
def put (p : Prompt α) (k : Key) (slot : Slot α) : Prompt α :=
  ⟨p.slots.insert k slot⟩

/-- Take a key away. -/
def erase (p : Prompt α) (k : Key) : Prompt α :=
  ⟨p.slots.erase k⟩

/-- All keys. -/
def keys (p : Prompt α) : List Key :=
  p.slots.keys

/-- The number of keys. -/
def size (p : Prompt α) : Nat :=
  p.slots.size

/-- When an entry is to be dropped, if ever. -/
def deadline? (p : Prompt α) (k : Key) : Option Nat :=
  p.slots[k]?.bind Slot.deadline

/-- Add an entry, unless there is one that may not be overwritten. -/
def add (p : Prompt α) (k : Key) (v : α) (overwrite : Bool) : Bool × Prompt α :=
  if !overwrite && p.has k then (false, p) else (true, p.put k { value := v })

/-- Give an entry a deadline; the answer says whether there was one. -/
def expireAt (p : Prompt α) (k : Key) (deadline : Nat) : Bool × Prompt α :=
  match p.slots[k]? with
  | some slot => (true, p.put k { slot with deadline := some deadline })
  | none => (false, p)

section Slots

variable {p q : Prompt α} {now later : Nat} {k k' : Key} {slot : Slot α}

theorem ext_slots (h : ∀ k : Key, p.slots[k]? = q.slots[k]?) : p = q :=
  congrArg Prompt.mk (Std.ExtTreeMap.ext_getElem? h)

@[simp] theorem slots_drop :
    (p.drop now).slots[k]? = p.slots[k]?.filter fun slot => !slot.isExpired now := by
  unfold drop
  rw [Std.ExtTreeMap.getElem?_filter, Option.pfilter_eq_filter]

@[simp] theorem slots_put :
    (p.put k slot).slots[k']? = if k = k' then some slot else p.slots[k']? := by
  simp [put, Std.ExtTreeMap.getElem?_insert]

@[simp] theorem slots_erase :
    (p.erase k).slots[k']? = if k = k' then none else p.slots[k']? := by
  simp [erase, Std.ExtTreeMap.getElem?_erase]

/-- What has expired stays expired. -/
theorem isExpired_of_le (hle : now ≤ later) (h : slot.isExpired now = true) :
    slot.isExpired later = true := by
  unfold Slot.isExpired at h ⊢
  cases hd : slot.deadline with
  | none => simp [hd] at h
  | some d =>
    simp only [hd, Option.any_some, decide_eq_true_eq] at h ⊢
    omega

/-- Dropping early what has expired makes no difference later. -/
theorem drop_drop (hle : now ≤ later) : (p.drop now).drop later = p.drop later := by
  apply ext_slots
  intro k
  rw [slots_drop, slots_drop, slots_drop, Option.filter_filter]
  congr 1
  funext slot
  cases h : slot.isExpired now with
  | false => rfl
  | true => simp [isExpired_of_le hle h]

theorem drop_put : (p.put k slot).drop now = ((p.drop now).put k slot).drop now := by
  apply ext_slots
  intro k'
  by_cases hk : k = k'
  · simp [hk]
  · rw [slots_drop, slots_put, if_neg hk, slots_drop, slots_put, if_neg hk, slots_drop,
      Option.filter_filter]
    simp

theorem drop_erase : (p.erase k).drop now = (p.drop now).erase k := by
  apply ext_slots
  intro k'
  by_cases hk : k = k' <;> simp [hk]

/-- Taking a key away leaves nothing to drop. -/
theorem drop_erase_drop : ((p.drop now).erase k).drop now = (p.drop now).erase k := by
  rw [drop_erase, drop_drop (Nat.le_refl _)]

end Slots

end Prompt

/-! ## What a memory store pretends to be -/

namespace EntryMap

/-- What is left of a memory store once the expired is dropped. -/
def prompt (m : EntryMap α) (now : Nat) : Prompt α :=
  (Prompt.mk m.slots).drop now

section Prompt

variable (m : EntryMap α) (now : Nat) (k : Key)

theorem prompt_drop {later : Nat} (hle : now ≤ later) :
    (m.prompt now).drop later = m.prompt later :=
  Prompt.drop_drop hle

@[simp] theorem prompt_drop_self : (m.prompt now).drop now = m.prompt now :=
  m.prompt_drop now (Nat.le_refl _)

@[simp] theorem value?_prompt : (m.prompt now).value? k = m.live? now k := by
  unfold prompt Prompt.value? live?
  rw [Prompt.slots_drop]
  cases hs : m.slots[k]? with
  | none => rfl
  | some slot => cases hx : slot.isExpired now <;> simp [Option.filter, hx]

@[simp] theorem has_prompt : (m.prompt now).has k = (m.live? now k).isSome := by
  unfold Prompt.has
  rw [value?_prompt]

@[simp] theorem prompt_insert (slot : Slot α) :
    EntryMap.prompt ⟨m.slots.insert k slot⟩ now = ((m.prompt now).put k slot).drop now :=
  Prompt.drop_put (p := ⟨m.slots⟩)

@[simp] theorem prompt_erase :
    EntryMap.prompt ⟨m.slots.erase k⟩ now = (m.prompt now).erase k :=
  Prompt.drop_erase (p := ⟨m.slots⟩)

/-- A key with an expired slot is not there. -/
theorem erase_prompt_of_expired {slot : Slot α} (hs : m.slots[k]? = some slot)
    (hx : slot.isExpired now = true) : (m.prompt now).erase k = m.prompt now := by
  apply Prompt.ext_slots
  intro k'
  by_cases hk : k = k'
  · subst hk
    simp [prompt, hs, Option.filter, hx]
  · simp [hk]

/-- Whether an expired slot is still there cannot be seen. -/
@[simp] theorem prompt_evict : (m.evict now k).prompt now = m.prompt now := by
  unfold evict
  cases hs : m.slots[k]? with
  | none => rfl
  | some slot =>
    cases hx : slot.isExpired now with
    | false => simp [hx]
    | true => simp [hx, m.erase_prompt_of_expired now k hs hx]

@[simp] theorem prompt_purge : (m.purge now).2.prompt now = m.prompt now :=
  Prompt.drop_drop (p := ⟨m.slots⟩) (Nat.le_refl _)

/-- A key is there with its slot, or there is no such key. -/
theorem slots_prompt_cases :
    (m.live? now k = none ∧ (m.prompt now).slots[k]? = none) ∨
      ∃ slot, m.slots[k]? = some slot ∧ slot.isExpired now = false ∧
        m.live? now k = some slot.value ∧ (m.prompt now).slots[k]? = some slot := by
  unfold prompt live?
  rw [Prompt.slots_drop]
  cases hs : m.slots[k]? with
  | none => exact .inl ⟨rfl, rfl⟩
  | some slot =>
    cases hx : slot.isExpired now with
    | true => exact .inl ⟨by simp [hx], by simp [Option.filter, hx]⟩
    | false => exact .inr ⟨slot, rfl, hx, by simp [hx], by simp [Option.filter, hx]⟩

/-- The entries that are listed are those that are left. -/
theorem entries_eq_prompt :
    m.entries now = (m.prompt now).slots.toList.map fun (k, slot) => (k, slot.value) := by
  unfold entries prompt Prompt.drop
  rw [Std.ExtTreeMap.toList_filter, ← List.filterMap_eq_map, List.filterMap_filter]
  congr 1
  funext ⟨k, slot⟩
  cases hx : slot.isExpired now <;> simp [hx]

@[simp] theorem keys_prompt : (m.prompt now).keys = m.keys now := by
  unfold keys Prompt.keys
  rw [entries_eq_prompt, List.map_map, ← Std.ExtTreeMap.map_fst_toList_eq_keys]
  rfl

@[simp] theorem size_prompt : (m.prompt now).size = m.size now := by
  unfold size Prompt.size
  rw [entries_eq_prompt, List.length_map, Std.ExtTreeMap.length_toList]

end Prompt

end EntryMap

/-! ## Operations of maps -/

/-- Carry out an operation on a map that forgets at once. -/
def MapOp.promptly (order : Arrangement) (now date : Nat) :
    (op : MapOp V) → Prompt V → op.Answer × Prompt V
  | .add k v overwrite, p => p.add k v overwrite
  | .get k, p => (p.value? k, p)
  | .remove k, p => (p.has k, p.erase k)
  | .contains k, p => (p.has k, p)
  | .keys, p => (.full (order.keys p.keys), p)
  | .expire k ttl, p => p.expireAt k (now + ttl)
  | .expireAt k instant, p => p.expireAt k (now + timeLeft date instant)

namespace EntryMap

variable (m : EntryMap α) (now : Nat) (k : Key)

theorem add_prompt (v : α) (overwrite : Bool) :
    (m.add now k v overwrite).1 = ((m.prompt now).add k v overwrite).1 ∧
      (m.add now k v overwrite).2.prompt now =
        ((m.prompt now).add k v overwrite).2.drop now := by
  unfold add Prompt.add
  rw [has_prompt]
  split
  · exact ⟨rfl, (m.prompt_drop_self now).symm⟩
  · exact ⟨rfl, m.prompt_insert now k _⟩

theorem expireAt_prompt (deadline : Nat) :
    (m.expireAt now k deadline).1 = ((m.prompt now).expireAt k deadline).1 ∧
      (m.expireAt now k deadline).2.prompt now =
        ((m.prompt now).expireAt k deadline).2.drop now := by
  unfold expireAt Prompt.expireAt
  rcases m.slots_prompt_cases now k with ⟨hl, hp⟩ | ⟨slot, -, -, hl, hp⟩
  · simp only [hl, hp]
    exact ⟨trivial, (m.prompt_drop_self now).symm⟩
  · simp only [hl, hp]
    exact ⟨trivial, m.prompt_insert now k _⟩

end EntryMap

/-- An operation answers and leaves what it does in a map that forgets at once. -/
theorem MapOp.apply_prompt (op : MapOp V) (order : Arrangement) (now date : Nat)
    (m : EntryMap V) :
    (op.apply order now date m).1 = (op.promptly order now date (m.prompt now)).1 ∧
      (op.apply order now date m).2.prompt now =
        (op.promptly order now date (m.prompt now)).2.drop now := by
  cases op with
  | add k v overwrite => exact m.add_prompt now k v overwrite
  | expire k ttl => exact m.expireAt_prompt now k _
  | expireAt k instant => exact m.expireAt_prompt now k _
  | remove k =>
    refine ⟨(m.has_prompt now k).symm, ?_⟩
    exact (m.prompt_erase now k).trans Prompt.drop_erase_drop.symm
  | get k => exact ⟨(m.value?_prompt now k).symm, by simp [apply, promptly, EntryMap.get]⟩
  | contains k =>
    exact ⟨(m.has_prompt now k).symm, by simp [apply, promptly, EntryMap.contains]⟩
  | keys => exact ⟨by simp [apply, promptly], (m.prompt_drop_self now).symm⟩

/-! ## Sets -/

/-- Sets with deadlines under keys, dropped at the instant these come. No set is empty: a key exists
exactly while its set has a member. -/
structure PromptSets extends Prompt MemberSet where
  nonempty : ∀ (k : Key) slot, slots[k]? = some slot → slot.value.isEmpty = false

namespace PromptSets

/-- The time has come: whatever has its deadline by now is dropped. -/
def drop (p : PromptSets) (now : Nat) : PromptSets where
  toPrompt := p.toPrompt.drop now
  nonempty k slot h := by
    rw [Prompt.slots_drop, Option.filter_eq_some_iff] at h
    exact p.nonempty k slot h.1

/-- The members under a key, none if there is no such key. -/
def members (p : PromptSets) (k : Key) : MemberSet :=
  (p.value? k).getD ∅

/-- From now on the set under a key is this one. With its last member a key goes. -/
def hold (p : PromptSets) (k : Key) (slot : Slot MemberSet) : PromptSets where
  toPrompt := if slot.value.isEmpty then p.erase k else p.put k slot
  nonempty k' slot' h := by
    by_cases hk : k = k'
    · cases he : slot.value.isEmpty <;> simp [he, hk] at h
      rwa [← h]
    · have hs : p.slots[k']? = some slot' := by
        cases he : slot.value.isEmpty <;> simpa [he, hk] using h
      exact p.nonempty k' slot' hs

/-- Give the set under a key a deadline; the answer says whether there was one. -/
def expireAt (p : PromptSets) (k : Key) (deadline : Nat) : Bool × PromptSets :=
  (p.has k, p.hold k { value := p.members k, deadline := some deadline })

/-- Carry out an operation on the set under a key, which keeps its deadline. -/
def applyUnder (order : Arrangement) (k : Key) (op : SetOp) (p : PromptSets) :
    op.Answer × PromptSets :=
  let (a, members) := op.apply order (p.members k)
  (a, p.hold k { value := members, deadline := p.deadline? k })

section Hold

variable (p : PromptSets) (k : Key)

theorem ext_prompt {p q : PromptSets} (h : p.toPrompt = q.toPrompt) : p = q := by
  cases p
  cases q
  cases h
  rfl

@[simp] theorem toPrompt_drop (now : Nat) : (p.drop now).toPrompt = p.toPrompt.drop now := rfl

theorem toPrompt_hold_of_isEmpty {slot : Slot MemberSet} (h : slot.value.isEmpty = true) :
    (p.hold k slot).toPrompt = p.erase k :=
  if_pos h

theorem toPrompt_hold_of_nonempty {slot : Slot MemberSet} (h : slot.value.isEmpty = false) :
    (p.hold k slot).toPrompt = p.put k slot :=
  if_neg (h ▸ Bool.false_ne_true)

/-- A key that is not there has no members. -/
theorem members_of_none (h : p.slots[k]? = none) : p.members k = ∅ := by
  simp [members, Prompt.value?, h]

theorem members_of_some {slot : Slot MemberSet} (h : p.slots[k]? = some slot) :
    p.members k = slot.value := by
  simp [members, Prompt.value?, h]

theorem deadline?_of_some {slot : Slot MemberSet} (h : p.slots[k]? = some slot) :
    p.deadline? k = slot.deadline := by
  simp [Prompt.deadline?, h]

/-- Nothing changes if a key that is not there is given no members. -/
theorem toPrompt_hold_of_none (h : p.slots[k]? = none) {slot : Slot MemberSet}
    (he : slot.value.isEmpty = true) : (p.hold k slot).toPrompt = p.toPrompt := by
  rw [p.toPrompt_hold_of_isEmpty k he]
  apply Prompt.ext_slots
  intro k'
  by_cases hk : k = k'
  · subst hk
    simp [h]
  · simp [hk]

/-- Nothing changes if the set under a key is what it was. -/
theorem hold_same : p.hold k { value := p.members k, deadline := p.deadline? k } = p := by
  apply ext_prompt
  cases hs : p.slots[k]? with
  | none => exact p.toPrompt_hold_of_none k hs (by simp [p.members_of_none k hs])
  | some slot =>
    rw [p.members_of_some k hs, p.deadline?_of_some k hs]
    refine (p.toPrompt_hold_of_nonempty k (p.nonempty k slot hs)).trans (Prompt.ext_slots ?_)
    intro k'
    by_cases hk : k = k'
    · subst hk
      simp [hs]
    · simp [hk]

end Hold

end PromptSets

/-- Carry out an operation on a map of sets that forgets at once. -/
def SetMapOp.promptly (order : Arrangement) (now date : Nat) :
    (op : SetMapOp) → PromptSets → op.Answer × PromptSets
  | .add k overwrite, p => (overwrite || !p.has k, p)
  | .get k, p => (p.has k, p)
  | .remove k, p => (p.has k, p.hold k { value := ∅ })
  | .contains k, p => (p.has k, p)
  | .keys, p => (.full (order.keys p.keys), p)
  | .reach _, p => ((), p)
  | .expire k ttl, p => p.expireAt k (now + ttl)
  | .expireAt k instant, p => p.expireAt k (now + timeLeft date instant)
  | .member k op, p => p.applyUnder order k op

/-- A map of sets looks like one that forgets at once. -/
structure MemberMap.LooksLike (m : MemberMap) (now : Nat) (p : PromptSets) : Prop where
  populated : m.Populated
  prompt_eq : m.prompt now = p.toPrompt

namespace MemberMap

/-- What a populated map of sets looks like. -/
def promptSets (m : MemberMap) (now : Nat) (h : m.Populated) : PromptSets where
  toPrompt := EntryMap.prompt m now
  nonempty k slot hs := by
    rw [EntryMap.prompt, Prompt.slots_drop, Option.filter_eq_some_iff] at hs
    exact (h k slot hs.1).2

theorem looksLike_promptSets {m : MemberMap} (h : m.Populated) (now : Nat) :
    m.LooksLike now (m.promptSets now h) :=
  ⟨h, rfl⟩

namespace LooksLike

variable {m m' : MemberMap} {now : Nat} {p : PromptSets} (h : m.LooksLike now p)
include h

theorem live?_eq (k : Key) : m.live? now k = p.value? k := by
  rw [← h.prompt_eq, EntryMap.value?_prompt]

theorem has_eq (k : Key) : p.has k = (m.live? now k).isSome := by
  rw [← h.prompt_eq, EntryMap.has_prompt]

theorem liveMembers_eq (k : Key) : m.liveMembers now k = p.members k := by
  unfold liveMembers PromptSets.members
  rw [h.live?_eq]

/-- A key is there with its slot, or there is no such key. -/
theorem slots_cases (k : Key) :
    (m.live? now k = none ∧ p.slots[k]? = none) ∨
      ∃ slot, m.slots[k]? = some slot ∧ slot.isExpired now = false ∧ p.slots[k]? = some slot := by
  have hcases := EntryMap.slots_prompt_cases m now k
  rw [h.prompt_eq] at hcases
  rcases hcases with hnone | ⟨slot, hs, hx, -, hp⟩
  · exact .inl hnone
  · exact .inr ⟨slot, hs, hx, hp⟩

theorem drop {later : Nat} (hle : now ≤ later) : m.LooksLike later (p.drop later) where
  populated := h.populated
  prompt_eq := by
    rw [PromptSets.toPrompt_drop, ← h.prompt_eq, EntryMap.prompt_drop m now hle]

/-- What looks the same looks like the same. -/
theorem of_prompt_eq (hp : m'.Populated) (he : m'.prompt now = m.prompt now) :
    m'.LooksLike now (p.drop now) where
  populated := hp
  prompt_eq := by
    rw [he, PromptSets.toPrompt_drop, ← h.prompt_eq, EntryMap.prompt_drop_self]

theorem refl : m.LooksLike now (p.drop now) :=
  h.drop (Nat.le_refl now)

theorem evict (k : Key) : LooksLike (m.evict now k) now (p.drop now) :=
  h.of_prompt_eq (EntryMap.Every.evict h.populated k) (EntryMap.prompt_evict m now k)

/-- A slot is put under a key, or the key is taken away if the slot has no members. -/
theorem hold {k : Key} {slot : Slot MemberSet}
    (hput : slot.value.isEmpty = false → m' = ⟨m.slots.insert k slot⟩)
    (herase : slot.value.isEmpty = true → m' = ⟨m.slots.erase k⟩) :
    LooksLike m' now ((p.hold k slot).drop now) := by
  cases he : slot.value.isEmpty with
  | true =>
    rw [herase he]
    refine ⟨EntryMap.Every.erase h.populated k, ?_⟩
    rw [PromptSets.toPrompt_drop, p.toPrompt_hold_of_isEmpty k he, ← h.prompt_eq,
      EntryMap.prompt_erase m, EntryMap.prompt, Prompt.drop_erase_drop]
  | false =>
    rw [hput he]
    refine ⟨EntryMap.Every.insert h.populated k ⟨trivial, he⟩, ?_⟩
    rw [PromptSets.toPrompt_drop, p.toPrompt_hold_of_nonempty k he, ← h.prompt_eq,
      EntryMap.prompt_insert m]

theorem remove (k : Key) :
    LooksLike (EntryMap.remove m now k).2 now ((p.hold k { value := ∅ }).drop now) :=
  h.hold (fun he => by simp at he) fun _ => rfl

theorem store (k : Key) (members : MemberSet) :
    LooksLike (m.store k members) now ((p.hold k { value := members }).drop now) := by
  apply h.hold
  · intro he
    exact if_neg (he ▸ Bool.false_ne_true)
  · intro he
    exact if_pos he

theorem expireAt (k : Key) (deadline : Nat) :
    (EntryMap.expireAt m now k deadline).1 = (p.expireAt k deadline).1 ∧
      LooksLike (EntryMap.expireAt m now k deadline).2 now
        ((p.expireAt k deadline).2.drop now) := by
  unfold EntryMap.expireAt PromptSets.expireAt
  rw [h.has_eq]
  cases hl : m.live? now k with
  | none =>
    have hp : p.slots[k]? = none := by
      rcases h.slots_cases k with ⟨-, hp⟩ | ⟨slot, hs, hx, -⟩
      · exact hp
      · simp [EntryMap.live?, hs, hx] at hl
    refine ⟨rfl, ?_⟩
    rw [PromptSets.ext_prompt (p.toPrompt_hold_of_none k hp (by simp [p.members_of_none k hp]))]
    exact h.refl
  | some members =>
    have hm : p.members k = members := by
      rw [← h.liveMembers_eq, liveMembers, hl]
      rfl
    obtain ⟨slot, hs, -, rfl⟩ := (EntryMap.live?_eq_some_iff m now).1 hl
    refine ⟨rfl, h.hold (fun _ => by rw [hm]) fun he => ?_⟩
    rw [hm, (h.populated k slot hs).2] at he
    exact absurd he Bool.false_ne_true

/-- A set of live members keeps its deadline, and another starts without one. -/
theorem addMember (k : Key) (x : String) :
    LooksLike (m.addMember now k x) now
      ((p.hold k { value := (p.members k).insert x, deadline := p.deadline? k }).drop now) := by
  refine h.hold (fun _ => ?_) fun he => absurd he (by simp)
  unfold MemberMap.addMember
  rcases h.slots_cases k with ⟨hl, hp⟩ | ⟨slot, hs, hx, hp⟩
  · have hfresh : (⟨m.slots.insert k
        { value := (p.members k).insert x, deadline := p.deadline? k }⟩ : MemberMap) =
        EntryMap.put m k ((∅ : MemberSet).insert x) := by
      simp [EntryMap.put, p.members_of_none k hp, Prompt.deadline?, hp]
    rw [hfresh]
    cases hs : m.slots[k]? with
    | none => rfl
    | some slot =>
      have hx : slot.isExpired now = true := by
        simpa [EntryMap.live?, hs] using hl
      simp [hx]
  · simp [hs, hx, p.members_of_some k hp, p.deadline?_of_some k hp]

/-- With the last of its members a key goes. -/
theorem removeMember (k : Key) (x : String) :
    LooksLike (m.removeMember now k x).2 now
      ((p.hold k { value := (p.members k).erase x, deadline := p.deadline? k }).drop now) := by
  unfold MemberMap.removeMember
  rcases h.slots_cases k with ⟨hl, hp⟩ | ⟨slot, hs, hx, hp⟩
  · have hnone : ((p.members k).erase x).isEmpty = true := by simp [p.members_of_none k hp]
    rw [PromptSets.ext_prompt (p.toPrompt_hold_of_none k hp hnone)]
    cases hs : m.slots[k]? with
    | none => exact h.refl
    | some slot =>
      have hx : slot.isExpired now = true := by
        simpa [EntryMap.live?, hs] using hl
      simpa [hx] using h.refl
  · simp only [hs, hx, p.members_of_some k hp, p.deadline?_of_some k hp]
    apply h.hold
    · intro he
      simp [he]
    · intro he
      simp [he]

/-- An operation on the set under a key answers and leaves what it does in a map that forgets at
once. -/
theorem applyUnder (order : Arrangement) (k : Key) (op : SetOp) :
    (op.applyUnder order now k m).1 = (p.applyUnder order k op).1 ∧
      LooksLike (op.applyUnder order now k m).2 now ((p.applyUnder order k op).2.drop now) := by
  refine ⟨?_, ?_⟩
  · rw [MemberMap.applyUnder_fst, h.liveMembers_eq]
    rfl
  · cases op with
    | add x => exact h.addMember k x
    | remove x => exact h.removeMember k x
    | contains x =>
      change LooksLike m now ((p.hold k _).drop now)
      rw [p.hold_same k]
      exact h.refl
    | members | count =>
      change LooksLike (EntryMap.evict m now k) now ((p.hold k _).drop now)
      rw [p.hold_same k]
      exact h.evict k

end LooksLike

end MemberMap

/-- An operation answers and leaves what it does in a map of sets that forgets at once. -/
theorem SetMapOp.apply_prompt (op : SetMapOp) (order : Arrangement) {now : Nat} (date : Nat)
    {m : MemberMap} {p : PromptSets} (h : m.LooksLike now p) :
    (op.apply order now date m).1 = (op.promptly order now date p).1 ∧
      MemberMap.LooksLike (op.apply order now date m).2 now
        ((op.promptly order now date p).2.drop now) := by
  cases op with
  | add k overwrite =>
    refine ⟨?_, ?_⟩
    · simp only [apply, promptly, MemberMap.accepts, h.has_eq]
    · cases overwrite with
      | true => exact h.refl
      | false => exact h.evict k
  | get k => exact ⟨(h.has_eq k).symm, h.evict k⟩
  | remove k => exact ⟨(h.has_eq k).symm, h.remove k⟩
  | contains k => exact ⟨(h.has_eq k).symm, h.evict k⟩
  | keys =>
    refine ⟨?_, h.refl⟩
    simp only [apply, promptly, ← h.prompt_eq, EntryMap.keys_prompt]
  | reach k => exact ⟨rfl, h.refl⟩
  | expire k ttl => exact h.expireAt k _
  | expireAt k instant => exact h.expireAt k _
  | member k op => exact h.applyUnder order k op

end TwinStore
