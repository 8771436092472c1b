import TwinStore.Proofs.SetUses
import TwinStore.Proofs.Stops
import TwinStore.Scope

/-!
# Clearing a scope again

To clear a scope is to list its record, to remove one recorded key after the other, and to drop the
record. Any of these calls may fail, and then the clear fails. By then it has removed the keys that
some of the texts record and nothing else (`ScopeRoll.Drained`), and the record, which is dropped
last, is as it was: so the clear can be repeated, and removes what is left
(`failed_clear_can_be_repeated`).

Nothing is asked of how the scope came by its record. A `ScopeRoll` says which maps and maps of sets
are registered, several of them perhaps over one store; the texts in the record may be malformed,
may name a map that is not registered, and several of them may be read as one key. What matters is
only that the texts of registered maps can be read, and that the record is not itself one of the
keys that it records.
-/

namespace TwinStore

variable {V α : Type}

/-! ## What is there -/

namespace EntryMap

variable {m : EntryMap α} {now later : Nat} {k k' : Key}

/-- What is kept under a key, with its deadline, unless that has come. -/
def current? (m : EntryMap α) (now : Nat) (k : Key) : Option (Slot α) :=
  m.slots[k]?.filter fun slot => !slot.isExpired now

theorem live?_eq (m : EntryMap α) (now : Nat) (k : Key) :
    m.live? now k = (m.current? now k).map Slot.value := by
  unfold live? current?
  cases m.slots[k]? with
  | none => rfl
  | some slot => cases h : slot.isExpired now <;> simp [Option.filter_some, h]

theorem current?_erase :
    current? ⟨m.slots.erase k⟩ now k' = if k = k' then none else m.current? now k' := by
  unfold current?
  by_cases hk : k = k'
  · simp [hk]
  · simp [Std.ExtTreeMap.getElem?_erase, hk]

theorem current?_evict : current? (m.evict now k) now k' = m.current? now k' := by
  unfold evict
  split
  · rename_i slot hs
    split
    · rename_i hexpired
      rw [current?_erase]
      split
      · rename_i hk
        simp [current?, Option.filter_some, ← hk, hs, hexpired]
      · rfl
    · rfl
  · rfl

/-- Time only makes things expire. -/
theorem current?_later (hle : now ≤ later) :
    m.current? later k = (m.current? now k).filter fun slot => !slot.isExpired later := by
  unfold current?
  cases m.slots[k]? with
  | none => rfl
  | some slot =>
    cases hlater : slot.isExpired later with
    | true => cases h : slot.isExpired now <;> simp [Option.filter_some, hlater, h]
    | false =>
      have h : slot.isExpired now = false := by
        unfold Slot.isExpired at hlater ⊢
        cases hd : slot.deadline with
        | none => rfl
        | some d =>
          rw [hd] at hlater
          simp only [Option.any_some, decide_eq_false_iff_not] at hlater ⊢
          omega
      simp [Option.filter_some, hlater, h]

end EntryMap

/-- A base map, or a base map of sets. -/
inductive Vault where
  | map (i : Nat)
  | sets (i : Nat)
  deriving DecidableEq

namespace Vault

/-- What is kept under a key. -/
abbrev Item (V : Type) : Vault → Type
  | map _ => V
  | sets _ => MemberSet

/-- Remove a key. -/
def remove (V : Type) : Vault → Key → Token → Action V Bool
  | map i, k, t => Backend.onMap i (.remove k) t
  | sets i, k, t => Backend.onSetMap i (.remove k) t

end Vault

/-- The time, and what base maps and base maps of sets hold. -/
structure Holdings (V : Type) where
  now : Nat
  content : (v : Vault) → EntryMap (v.Item V)

/-- What the base maps and the base maps of sets of a world hold. -/
def World.holdings (w : World V) : Holdings V where
  now := w.clock
  content
    | .map i => (w.maps.nth i).content
    | .sets i => (w.setMaps.nth i).content

namespace Holdings

variable {h h' : Holdings V} {v v' : Vault} {k : Key} {i : Nat}

/-- What there is under a key, with its deadline. -/
def at? (h : Holdings V) (v : Vault) (k : Key) : Option (Slot (v.Item V)) :=
  (h.content v).current? h.now k

/-- The members of what there is under a key. -/
def members (h : Holdings V) (i : Nat) (k : Key) : MemberSet :=
  MemberMap.liveMembers (h.content (.sets i)) h.now k

def put (h : Holdings V) (v : Vault) (m : EntryMap (v.Item V)) : Holdings V :=
  { h with content := Function.update h.content v m }

/-- A key is dropped. -/
def erase (h : Holdings V) (v : Vault) (k : Key) : Holdings V :=
  h.put v ⟨(h.content v).slots.erase k⟩

/-- What stores hold, at another time. -/
def later (h : Holdings V) (time : Nat) : Holdings V :=
  { h with now := time }

/-- The stores hold the same under every key, at the same time. -/
structure Same (h h' : Holdings V) : Prop where
  now : h'.now = h.now
  at? : ∀ v k, h'.at? v k = h.at? v k

/-- There is nothing more under a key, and all else is as it was. -/
structure Drops (v : Vault) (k : Key) (h h' : Holdings V) : Prop where
  now : h'.now = h.now
  gone : h'.at? v k = none
  kept : ∀ v' k', (v', k') ≠ (v, k) → h'.at? v' k' = h.at? v' k'

/-- What is the same stays the same, as it expires at the same time. -/
theorem at?_later {time : Nat} (hle : h.now ≤ time) (hnow : h'.now = h.now)
    (hsame : h'.at? v k = h.at? v k) : (h'.later time).at? v k = (h.later time).at? v k := by
  change (h'.content v).current? time k = (h.content v).current? time k
  unfold at? at hsame
  rw [EntryMap.current?_later (hnow ▸ hle), EntryMap.current?_later hle, hsame]

theorem isSome_at? (h : Holdings V) (v : Vault) (k : Key) :
    (h.at? v k).isSome = ((h.content v).live? h.now k).isSome := by
  rw [EntryMap.live?_eq, Option.isSome_map]
  rfl

/-- The members under a key are told by what there is. -/
theorem members_congr (hsame : h'.at? (.sets i) k = h.at? (.sets i) k) :
    h'.members i k = h.members i k := by
  unfold members MemberMap.liveMembers
  rw [EntryMap.live?_eq, EntryMap.live?_eq]
  exact congrArg (fun slot => (slot.map Slot.value).getD ∅) hsame

/-- Members that are there later are there now. -/
theorem mem_members_of_later {time : Nat} (hle : h.now ≤ time) {x : String}
    (hx : x ∈ (h.later time).members i k) : x ∈ h.members i k := by
  have hne : MemberMap.liveMembers (h.content (.sets i)) time k ≠ ∅ :=
    Std.ExtTreeSet.ne_empty_of_mem hx
  unfold members
  rw [← MemberMap.liveMembers_of_later hle hne]
  exact hx

theorem at?_put_self (h : Holdings V) (m : EntryMap (v.Item V)) :
    (h.put v m).at? v k = m.current? h.now k :=
  congrArg (EntryMap.current? · h.now k) (Function.update_self ..)

theorem at?_put_of_ne (h : Holdings V) (m : EntryMap (v.Item V)) (hv : v' ≠ v) :
    (h.put v m).at? v' k = h.at? v' k :=
  congrArg (EntryMap.current? · h.now k) (Function.update_of_ne hv ..)

namespace Same

theorem refl (h : Holdings V) : h.Same h := ⟨rfl, fun _ _ => rfl⟩

/-- What has expired under a key is dropped. -/
theorem of_evict (h : Holdings V) (v : Vault) (k : Key) :
    h.Same (h.put v ((h.content v).evict h.now k)) := by
  refine ⟨rfl, fun v' k' => ?_⟩
  by_cases hv : v' = v
  · subst hv
    rw [at?_put_self, EntryMap.current?_evict]
    rfl
  · exact h.at?_put_of_ne _ hv

end Same

theorem Drops.of_erase (h : Holdings V) (v : Vault) (k : Key) : h.Drops v k (h.erase v k) where
  now := rfl
  gone := by
    unfold erase
    rw [at?_put_self, EntryMap.current?_erase, if_pos rfl]
  kept v' k' hne := by
    unfold erase
    by_cases hv : v' = v
    · subst hv
      rw [at?_put_self, EntryMap.current?_erase, if_neg fun hk => hne (by rw [hk])]
      rfl
    · exact h.at?_put_of_ne _ hv

/-! ### Calls that may fail -/

/-- What stores hold, where any call may stop the program. -/
def ground (stops : Stops V) : Ground V (Holdings V) where
  stops := stops
  At h w := w.holdings = h
  noting h _ := h
  at_visit _ hw := hw
  at_congr {h w w'} hstores _ hw := by
    have hclock : w'.clock = w.clock := congrArg (·.1) hstores
    have hmaps : w'.maps = w.maps := congrArg (·.2.1) hstores
    have hsets : w'.setMaps = w.setMaps := congrArg (·.2.2.2.1) hstores
    rw [← hw]
    unfold World.holdings
    rw [hclock, hmaps, hsets]

variable {stops : Stops V} {t : Token}

/-- What is measured changes no store. -/
theorem does_count {left : Holdings V → Prop} (m : Measure) (n : Nat) :
    (ground stops).Does (Action.count m n) h (fun _ h' => h' = h) left :=
  Ground.does_ask fun _ hw => ⟨h, rfl, Ground.at_count hw m n⟩

theorem holdings_perform_map (w : World V) (op : MapOp V) :
    (w.perform (.map i op)).2.holdings = w.holdings.put (.map i)
      (op.apply w.arrangement w.clock w.date (w.maps.nth i).content).2 := by
  refine congrArg (Holdings.mk w.clock) (funext fun v => ?_)
  cases v with
  | sets j =>
    have hne : Vault.sets j ≠ .map i := nofun
    exact (Function.update_of_ne hne _ w.holdings.content).symm
  | map j =>
    change ((w.maps.put i _).nth j).content = _
    by_cases hj : i = j
    · subst hj
      rw [Shelf.nth_put_self, Function.update_self]
      rfl
    · rw [Shelf.nth_put_of_ne _ _ hj, Function.update_of_ne fun h => hj (Vault.map.inj h).symm]
      rfl

theorem holdings_putSets (w : World V) (b : Base MemberMap) :
    World.holdings { w with setMaps := w.setMaps.put i b } =
      w.holdings.put (.sets i) b.content := by
  refine congrArg (Holdings.mk w.clock) (funext fun v => ?_)
  cases v with
  | map j =>
    have hne : Vault.map j ≠ .sets i := nofun
    exact (Function.update_of_ne hne _ w.holdings.content).symm
  | sets j =>
    change ((w.setMaps.put i b).nth j).content = _
    by_cases hj : i = j
    · subst hj
      rw [Shelf.nth_put_self, Function.update_self]
    · rw [Shelf.nth_put_of_ne _ _ hj, Function.update_of_ne fun h => hj (Vault.sets.inj h).symm]
      rfl

theorem holdings_perform_setMap (w : World V) (op : SetMapOp) :
    (w.perform (.setMap i op)).2.holdings = w.holdings.put (.sets i)
      (op.apply w.arrangement w.clock w.date (w.setMaps.nth i).content).2 :=
  holdings_putSets w _

/-- A key is removed, unless the call stops the program. -/
theorem does_remove (v : Vault) (k : Key) :
    (ground stops).Does (v.remove V k t) h (fun found h' =>
      found = (h.at? v k).isSome ∧ h' = h.erase v k) (· = h) := by
  cases v with
  | map i =>
    refine Ground.does_wholeCall t (fun _ _ _ => rfl) ?_
    rintro w rfl
    exact ⟨_, ⟨(isSome_at? w.holdings (.map i) k).symm, rfl⟩, holdings_perform_map w _⟩
  | sets i =>
    refine Ground.does_wholeCall t (fun _ _ _ => rfl) ?_
    rintro w rfl
    exact ⟨_, ⟨(isSome_at? w.holdings (.sets i) k).symm, rfl⟩, holdings_perform_setMap w _⟩

/-- The set under a key is reached, unless the call stops the program. -/
theorem does_reach (k : Key) :
    (ground stops).Does ((Backend.setMap i).reach k t) h (fun set h' =>
      set = Backend.setUnder i k ∧ h' = h) (· = h) := by
  have hcall : (ground stops).Does (Backend.onSetMap i (.reach k) t) h (fun _ h' => h' = h)
      (· = h) := by
    refine Ground.does_wholeCall t (fun _ _ _ => rfl) ?_
    rintro w rfl
    refine ⟨_, rfl, (holdings_perform_setMap w _).trans ?_⟩
    exact congrArg (Holdings.mk w.clock) (Function.update_eq_self ..)
  have hway : (ground stops).Does ((Backend.setMap i).route k t) h
      (fun route h' => route = .direct ∧ h' = h) (· = h) :=
    hcall.bind fun _ _ hh' => Ground.does_pure ⟨rfl, hh'⟩
  exact hway.bind fun _ _ ⟨_, hh'⟩ => Ground.does_pure ⟨rfl, hh'⟩

/-- The members under a key are listed, unless that stops the program, or it breaks off. -/
theorem does_listMembers (k : Key) :
    (ground stops).Does ((Backend.setUnder i k).collect t) h (fun xs h' =>
      xs.Perm (h.members i k).toList ∧ h.Same h') h.Same := by
  unfold SetStore.collect
  have hlisted : (ground stops).Does ((Backend.setUnder i k).members t) h (fun l h' =>
      (∀ e, l.failure = some e → (ground stops).Halts (.failed e)) ∧
        (l.failure = none → l.items.Perm (h.members i k).toList) ∧ h.Same h')
      h.Same := by
    refine (Ground.does_call t ?_ ?_).leaving fun h' hh' => hh' ▸ .refl h
    · rintro w rfl
      refine ⟨_, ⟨nofun, fun _ => w.arrangement.members_perm _, .of_evict _ (.sets i) k⟩, ?_⟩
      exact holdings_perform_setMap w _
    · rintro n cause a b h' hhalt ⟨-, hperm, hsame⟩ ⟨⟩
      exact ⟨fun e he => Option.some.inj he ▸ hhalt, nofun, hsame⟩
  refine hlisted.bind fun l h' ⟨hhalts, hperm, hsame⟩ => ?_
  exact Ground.does_collect (fun e he => ⟨hhalts e he, hsame⟩) fun hl => ⟨hperm hl, hsame⟩

end Holdings

/-! ## Registered maps -/

/-- A map or a map of sets that takes part in a scope: its identifier there, how its keys are
written, and where they are. -/
structure Registered where
  mapId : String
  serializer : KeySerializer
  vault : Vault

/-- A scope, the base map of sets that keeps its members, and all who take part. -/
structure ScopeRoll where
  identifier : String
  members : Nat
  registered : List Registered

namespace ScopeRoll

variable (R : ScopeRoll)

/-- The scope. -/
def scope (V : Type) : Scope V where
  identifier := R.identifier
  members := Backend.setMap R.members

/-- How a registered map takes part. -/
def participant (V : Type) (e : Registered) : Participant V :=
  let enrolment : Enrolment V :=
    { scope := R.scope V, mapId := e.mapId, serializer := e.serializer }
  match e.vault with
  | .map i => enrolment.participant (Backend.map i)
  | .sets i => enrolment.participant (Backend.setMap i).toKeyedStore

/-- All who take part. -/
def participants (V : Type) : List (Participant V) :=
  R.registered.map (R.participant V)

/-- Who is named so. -/
def named? (mapId : String) : Option Registered :=
  R.registered.find? (·.mapId = mapId)

/-- Whether the key can be read that a text records, if it names a registered map. -/
def readsBack (text : String) : Bool :=
  match Scope.split? text with
  | none => true
  | some (mapId, raw) =>
    match R.named? mapId with
    | none => true
    | some e => (e.serializer.decode raw).isOk

/-- The key that a text records, and where it is; none if the text is malformed, or names no
registered map. -/
def target? (text : String) : Option (Vault × Key) :=
  match Scope.split? text with
  | none => none
  | some (mapId, raw) =>
    match R.named? mapId with
    | none => none
    | some e => (e.serializer.decode raw).toOption.map (Prod.mk e.vault)

/-- The members of the scope. -/
def record (h : Holdings V) : MemberSet :=
  h.members R.members (.text R.identifier)

/-- A key of a registered map is recorded. -/
def Records (h : Holdings V) (v : Vault) (k : Key) : Prop :=
  ∃ text ∈ R.record h, R.target? text = some (v, k)

/-- All recorded keys of registered maps can be read. -/
def Readable (h : Holdings V) : Prop :=
  ∀ text ∈ R.record h, R.readsBack text = true

variable {R} {h h' h'' : Holdings V} {v : Vault} {k : Key} {text : String} {stops : Stops V}
  {t : Token}

theorem mapId_participant (e : Registered) : (R.participant V e).mapId = e.mapId := by
  unfold participant
  cases e.vault <;> rfl

/-- What a text records is removed; if it records nothing, nothing is done. -/
theorem removeRecorded_eq (htext : R.readsBack text = true) :
    Scope.removeRecorded (R.participants V) t text =
      match R.target? text with
      | none => pure false
      | some (v, k) => v.remove V k t := by
  unfold readsBack at htext
  unfold Scope.removeRecorded target? participants
  cases hsplit : Scope.split? text with
  | none => rfl
  | some parts =>
    obtain ⟨mapId, raw⟩ := parts
    rw [hsplit] at htext
    dsimp only at htext ⊢
    have hfind : (R.registered.map (R.participant V)).find? (·.mapId = mapId) =
        (R.named? mapId).map (R.participant V) := by
      rw [List.find?_map]
      unfold named?
      congr 2
      funext e
      exact congrArg (fun id => decide (id = mapId)) (mapId_participant e)
    rw [hfind]
    cases hnamed : R.named? mapId with
    | none => rfl
    | some e =>
      rw [hnamed] at htext
      dsimp only at htext ⊢
      cases hraw : e.serializer.decode raw with
      | error cause =>
        rw [hraw] at htext
        cases htext
      | ok k =>
        have hkey : (Action.ofExcept (e.serializer.decode raw) : Action V Key) = pure k :=
          congrArg Action.ofExcept hraw
        obtain ⟨id, serializer, vault⟩ := e
        cases vault with
        | map i =>
          change (Action.ofExcept (serializer.decode raw) >>= fun k =>
            Backend.onMap i (.remove k) t) = _
          rw [hkey]
          rfl
        | sets i =>
          change (Action.ofExcept (serializer.decode raw) >>= fun k =>
            Backend.onSetMap i (.remove k) t) = _
          rw [hkey]
          rfl

/-! ## Removing recorded keys -/

/-- The keys that texts record are gone, and so many of them were there; all else is as it was. -/
structure Drained (R : ScopeRoll) (texts : List String) (removed : Nat) (h h' : Holdings V) :
    Prop where
  now : h'.now = h.now
  gone : ∀ v k, (∃ text ∈ texts, R.target? text = some (v, k)) → h'.at? v k = none
  kept : ∀ v k, (¬ ∃ text ∈ texts, R.target? text = some (v, k)) → h'.at? v k = h.at? v k
  counted : ∃ keys : List (Vault × Key), keys.Nodup ∧ removed = keys.length ∧
    ∀ v k, (v, k) ∈ keys ↔ (h.at? v k).isSome ∧ ∃ text ∈ texts, R.target? text = some (v, k)

namespace Drained

variable {rest : List String} {removed : Nat}

theorem nil (h : Holdings V) : R.Drained [] 0 h h where
  now := rfl
  gone := by simp
  kept _ _ _ := rfl
  counted := ⟨[], List.nodup_nil, rfl, by simp⟩

/-- A text that records nothing is passed over. -/
theorem skip (htext : R.target? text = none) (hrest : R.Drained rest removed h h') :
    R.Drained (text :: rest) removed h h' := by
  have htargets (v : Vault) (k : Key) : (∃ text' ∈ text :: rest, R.target? text' = some (v, k)) ↔
      ∃ text' ∈ rest, R.target? text' = some (v, k) := by
    simp [htext]
  refine ⟨hrest.now, ?_, ?_, ?_⟩ <;> simp only [htargets]
  · exact hrest.gone
  · exact hrest.kept
  · exact hrest.counted

/-- What one text records is removed, and then what the others record. -/
theorem cons (htext : R.target? text = some (v, k)) (hdrop : h.Drops v k h')
    (hrest : R.Drained rest removed h' h'') :
    R.Drained (text :: rest) (removed + if (h.at? v k).isSome then 1 else 0) h h'' where
  now := hrest.now.trans hdrop.now
  gone v' k' hrecorded := by
    by_cases hmore : ∃ text ∈ rest, R.target? text = some (v', k')
    · exact hrest.gone v' k' hmore
    · obtain ⟨text', hmem, htext'⟩ := hrecorded
      rcases List.mem_cons.1 hmem with rfl | hmem
      · obtain ⟨rfl, rfl⟩ := Prod.mk.inj (Option.some.inj (htext.symm.trans htext'))
        exact (hrest.kept v k hmore).trans hdrop.gone
      · exact absurd ⟨text', hmem, htext'⟩ hmore
  kept v' k' hrecorded := by
    have hne : (v', k') ≠ (v, k) := by
      rintro ⟨rfl, rfl⟩
      exact hrecorded ⟨text, List.mem_cons_self, htext⟩
    refine (hrest.kept v' k' fun hmore => hrecorded ?_).trans (hdrop.kept v' k' hne)
    obtain ⟨text', hmem, htext'⟩ := hmore
    exact ⟨text', List.mem_cons_of_mem _ hmem, htext'⟩
  counted := by
    obtain ⟨keys, hnodup, rfl, hkeys⟩ := hrest.counted
    -- Another text may record the same key, which is gone by then.
    have hnew : (v, k) ∉ keys := by
      simp [hkeys, hdrop.gone]
    have hothers {v' k'} (hne : (v', k') ≠ (v, k)) : (v', k') ∈ keys ↔
        (h.at? v' k').isSome ∧ ∃ text' ∈ text :: rest, R.target? text' = some (v', k') := by
      have hnot : R.target? text ≠ some (v', k') := by
        rw [htext]
        exact fun heq => hne (Option.some.inj heq).symm
      rw [hkeys, hdrop.kept v' k' hne]
      simp [hnot]
    cases hthere : (h.at? v k).isSome with
    | false =>
      refine ⟨keys, hnodup, rfl, fun v' k' => ?_⟩
      by_cases hne : (v', k') = (v, k)
      · cases hne
        simp [hnew, hthere]
      · exact hothers hne
    | true =>
      refine ⟨(v, k) :: keys, List.nodup_cons.2 ⟨hnew, hnodup⟩, rfl, fun v' k' => ?_⟩
      by_cases hne : (v', k') = (v, k)
      · cases hne
        simp [hthere, htext]
      · rw [List.mem_cons, or_iff_right hne]
        exact hothers hne

end Drained

/-- The keys that the first so many texts record are gone, and nothing else is. -/
def PartlyDrained (R : ScopeRoll) (texts : List String) (h h' : Holdings V) : Prop :=
  ∃ done removed, done <+: texts ∧ R.Drained done removed h h'

/-- One recorded key after the other is removed, until a call stops the program. -/
theorem does_removeAll (texts : List String) (total : Nat)
    (htexts : ∀ text ∈ texts, R.readsBack text = true) :
    (Holdings.ground stops).Does (Scope.removeAll (R.participants V) t texts total) h
      (fun removed h' => ∃ count, removed = total + count ∧ R.Drained texts count h h')
      (R.PartlyDrained texts h) := by
  induction texts generalizing h total with
  | nil => exact Ground.does_pure ⟨0, rfl, .nil h⟩
  | cons text rest ih =>
    obtain ⟨htext, hrest⟩ := List.forall_mem_cons.1 htexts
    unfold Scope.removeAll
    rw [removeRecorded_eq htext]
    cases htarget : R.target? text with
    | none =>
      have hskip : (Holdings.ground stops).Does (pure false) h
          (fun found h' => found = false ∧ h' = h) (R.PartlyDrained (text :: rest) h) :=
        Ground.does_pure ⟨rfl, rfl⟩
      refine hskip.bind ?_
      rintro _ _ ⟨rfl, rfl⟩
      refine (ih total hrest).mono ?_ ?_
      · rintro removed h' ⟨count, rfl, hdrained⟩
        exact ⟨count, rfl, hdrained.skip htarget⟩
      · rintro h' ⟨done, removed, hpart, hdrained⟩
        exact ⟨text :: done, removed, List.cons_prefix_cons.2 ⟨rfl, hpart⟩, hdrained.skip htarget⟩
    | some spot =>
      obtain ⟨v, k⟩ := spot
      refine ((Holdings.does_remove v k).leaving ?_).bind ?_
      · rintro _ rfl
        exact ⟨[], 0, List.nil_prefix, .nil _⟩
      · rintro _ h₁ ⟨rfl, rfl⟩
        have hdrop := Holdings.Drops.of_erase h v k
        refine (ih _ hrest).mono ?_ ?_
        · rintro removed h' ⟨count, rfl, hdrained⟩
          refine ⟨_, ?_, .cons htarget hdrop hdrained⟩
          split <;> omega
        · rintro h' ⟨done, removed, hpart, hdrained⟩
          exact ⟨text :: done, _, List.cons_prefix_cons.2 ⟨rfl, hpart⟩,
            .cons htarget hdrop hdrained⟩

/-! ## Clearing -/

/-- A failed clear: the record is as it was, with its deadline, and only recorded keys are gone. -/
structure HalfCleared (R : ScopeRoll) (h h' : Holdings V) : Prop where
  now : h'.now = h.now
  record : h'.at? (.sets R.members) (.text R.identifier) =
    h.at? (.sets R.members) (.text R.identifier)
  kept : ∀ v k, h'.at? v k = h.at? v k ∨ R.Records h v k ∧ h'.at? v k = none

/-- The recorded keys are gone, and so many of them were there; all other keys are as they were, and
there is no record. -/
structure Cleared (R : ScopeRoll) (removed : Nat) (h h' : Holdings V) : Prop where
  now : h'.now = h.now
  gone : ∀ v k, R.Records h v k → h'.at? v k = none
  kept : ∀ v k, ¬ R.Records h v k → (v, k) ≠ (.sets R.members, .text R.identifier) →
    h'.at? v k = h.at? v k
  counted : ∃ keys : List (Vault × Key), keys.Nodup ∧ removed = keys.length ∧
    ∀ v k, (v, k) ∈ keys ↔ (h.at? v k).isSome ∧ R.Records h v k
  forgotten : (h'.content (.sets R.members)).slots[Key.text R.identifier]? = none

namespace HalfCleared

theorem of_same (hsame : h.Same h') : R.HalfCleared h h' :=
  ⟨hsame.now, hsame.at? _ _, fun v k => .inl (hsame.at? v k)⟩

/-- So far the record has been listed, and some of the keys that it records have been removed. -/
theorem of_drained {texts : List String} {removed : Nat} (hsame : h.Same h')
    (htexts : ∀ text ∈ texts, text ∈ R.record h) (hdrained : R.Drained texts removed h' h'')
    (hself : ¬ R.Records h (.sets R.members) (.text R.identifier)) : R.HalfCleared h h'' where
  now := hdrained.now.trans hsame.now
  record := by
    refine (hdrained.kept _ _ fun ⟨text, hmem, htext⟩ => hself ?_).trans (hsame.at? _ _)
    exact ⟨text, htexts text hmem, htext⟩
  kept v k := by
    by_cases hrecorded : ∃ text ∈ texts, R.target? text = some (v, k)
    · obtain ⟨text, hmem, htext⟩ := hrecorded
      exact .inr ⟨⟨text, htexts text hmem, htext⟩, hdrained.gone v k ⟨text, hmem, htext⟩⟩
    · exact .inl ((hdrained.kept v k hrecorded).trans (hsame.at? v k))

end HalfCleared

/-- The record has been listed, the keys that it records have been removed, and then the record. -/
theorem Cleared.of_drained {texts : List String} {removed : Nat} (hsame : h.Same h')
    (htexts : ∀ text, text ∈ texts ↔ text ∈ R.record h)
    (hdrained : R.Drained texts removed h' h'') :
    R.Cleared removed h (h''.erase (.sets R.members) (.text R.identifier)) := by
  have hdrop := Holdings.Drops.of_erase h'' (.sets R.members) (.text R.identifier)
  have hrecords (v : Vault) (k : Key) :
      (∃ text ∈ texts, R.target? text = some (v, k)) ↔ R.Records h v k := by
    simp only [htexts]
    rfl
  refine ⟨hdrained.now.trans hsame.now, fun v k hr => ?_, fun v k hr hne => ?_, ?_, ?_⟩
  · by_cases hne : (v, k) = (.sets R.members, .text R.identifier)
    · obtain ⟨rfl, rfl⟩ := Prod.mk.inj hne
      exact hdrop.gone
    · exact (hdrop.kept v k hne).trans (hdrained.gone v k ((hrecords v k).2 hr))
  · rw [hdrop.kept v k hne, hdrained.kept v k fun he => hr ((hrecords v k).1 he), hsame.at?]
  · obtain ⟨keys, hnodup, hlength, hkeys⟩ := hdrained.counted
    refine ⟨keys, hnodup, hlength, fun v k => ?_⟩
    rw [hkeys, hrecords, hsame.at?]
  · change (Function.update h''.content (.sets R.members) _
      (.sets R.members)).slots[Key.text R.identifier]? = none
    rw [Function.update_self]
    exact Std.ExtTreeMap.getElem?_erase_self

/-- To clear the scope is to remove the recorded keys and then the record, unless a call stops the
program before that. -/
theorem does_clear (hread : R.Readable h)
    (hself : ¬ R.Records h (.sets R.members) (.text R.identifier)) :
    (Holdings.ground stops).Does ((R.scope V).clear (R.participants V) t) h
      (fun removed h' => R.Cleared removed h h') (R.HalfCleared h) := by
  have hsame : ∀ h', h' = h → R.HalfCleared h h' := by
    rintro _ rfl
    exact .of_same (.refl _)
  unfold Scope.clear
  refine ((Holdings.does_reach _).leaving hsame).bind ?_
  intro set h₀ ⟨hset, hh₀⟩
  subst hset hh₀
  refine ((Holdings.does_listMembers _).leaving fun _ => .of_same).bind ?_
  rintro texts h₁ ⟨hperm, hlisted⟩
  have htexts (text : String) : text ∈ texts ↔ text ∈ R.record h₀ :=
    hperm.mem_iff.trans Std.ExtTreeSet.mem_toList
  have hreadable : ∀ text ∈ texts, R.readsBack text = true :=
    fun text hmem => hread text ((htexts text).1 hmem)
  refine ((does_removeAll texts 0 hreadable).leaving ?_).bind ?_
  · rintro h₂ ⟨done, removed, hpart, hdrained⟩
    have hdone : ∀ text ∈ done, text ∈ R.record h₀ :=
      fun text hmem => (htexts text).1 (hpart.subset hmem)
    exact .of_drained hlisted hdone hdrained hself
  · rintro _ h₂ ⟨removed, rfl, hdrained⟩
    refine ((Holdings.does_remove (.sets R.members) _).leaving ?_).bind ?_
    · rintro _ rfl
      exact .of_drained hlisted (fun text hmem => (htexts text).1 hmem) hdrained hself
    · rintro _ _ ⟨-, rfl⟩
      refine (Holdings.does_count _ _).bind ?_
      rintro _ _ rfl
      refine (Holdings.does_count _ _).bind ?_
      rintro _ _ rfl
      rw [Nat.zero_add]
      exact Ground.does_pure (.of_drained hlisted htexts hdrained)

/-! ## Trying again -/

/-- What can be read now can be read later. -/
theorem Readable.later {time : Nat} (hread : R.Readable h) (hle : h.now ≤ time) :
    R.Readable (h.later time) :=
  fun text hmem => hread text (Holdings.mem_members_of_later hle hmem)

theorem records_of_later {time : Nat} (hle : h.now ≤ time) (hr : R.Records (h.later time) v k) :
    R.Records h v k := by
  obtain ⟨text, hmem, htext⟩ := hr
  exact ⟨text, Holdings.mem_members_of_later hle hmem, htext⟩

theorem HalfCleared.record_later {time : Nat} (hhalf : R.HalfCleared h h') (hle : h.now ≤ time) :
    R.record (h'.later time) = R.record (h.later time) :=
  Holdings.members_congr (Holdings.at?_later hle hhalf.now hhalf.record)

/-- However a clear ends, it has cleared the scope, or failed and half cleared it. -/
theorem clear_cases {w : World V} (hread : R.Readable w.holdings)
    (hself : ¬ R.Records w.holdings (.sets R.members) (.text R.identifier)) (stops : Stops V)
    (t : Token) :
    let out := stops.regime.act w ((R.scope V).clear (R.participants V) t)
    (∃ removed, out.1 = .ok removed ∧ R.Cleared removed w.holdings out.2.holdings) ∨
      ∃ halt, out.1 = .error halt ∧ stops.Halts halt ∧ R.HalfCleared w.holdings out.2.holdings := by
  intro out
  have hdoes : (Holdings.ground stops).Does ((R.scope V).clear (R.participants V) t) w.holdings
      (fun removed h' => R.Cleared removed w.holdings h') (R.HalfCleared w.holdings) :=
    does_clear hread hself
  cases hout : out.1 with
  | ok removed =>
    obtain ⟨_, hcleared, rfl⟩ := hdoes.act_ok rfl (Prod.ext hout rfl)
    exact .inl ⟨removed, rfl, hcleared⟩
  | error halt =>
    obtain ⟨hhalts, _, hhalf, rfl⟩ := hdoes.act_error rfl (Prod.ext hout rfl)
    exact .inr ⟨halt, rfl, hhalts, hhalf⟩

end ScopeRoll

/-- **A failed clear can be repeated.** All recorded keys of registered maps can be read, and the
record is not one of them. Then, whichever calls fail or are cut short, a clear clears the scope, or
it fails, leaves the record as it was, and removes only recorded keys. When a failed clear is
repeated at any later time and no call fails then, all recorded keys are gone, as many of them as
were still there are counted, all other keys are as they were, and the record is gone as well. -/
theorem failed_clear_can_be_repeated (R : ScopeRoll) (w : World V) (hread : R.Readable w.holdings)
    (hself : ¬ R.Records w.holdings (.sets R.members) (.text R.identifier)) (stops : Stops V)
    (t : Token) :
    let clear : Token → Action V Nat := (R.scope V).clear (R.participants V)
    let out := stops.regime.act w (clear t)
    (∀ removed, out.1 = .ok removed → R.Cleared removed w.holdings out.2.holdings) ∧
    ∀ halt, out.1 = .error halt → R.HalfCleared w.holdings out.2.holdings ∧
      ∀ time, w.clock ≤ time → ∀ t',
        let before := out.2.atTime time
        let again := Stops.never.regime.act before (clear t')
        R.record before.holdings = R.record (w.atTime time).holdings ∧
          ∃ removed, again.1 = .ok removed ∧
            R.Cleared removed before.holdings again.2.holdings := by
  intro clear out
  have hcases := ScopeRoll.clear_cases hread hself stops t
  refine ⟨fun removed hok => ?_, fun halt herror => ?_⟩
  · rcases hcases with ⟨_, hok', hcleared⟩ | ⟨_, herror, -⟩
    · cases hok.symm.trans hok'
      exact hcleared
    · cases hok.symm.trans herror
  · have hhalf : R.HalfCleared w.holdings out.2.holdings := by
      rcases hcases with ⟨_, hok, -⟩ | ⟨_, -, -, hhalf⟩
      · cases herror.symm.trans hok
      · exact hhalf
    refine ⟨hhalf, fun time hle t' => ?_⟩
    intro before again
    have hrecord : R.record before.holdings = R.record (w.atTime time).holdings :=
      hhalf.record_later hle
    have hread' : R.Readable before.holdings := by
      intro text hmem
      rw [hrecord] at hmem
      exact hread.later hle text hmem
    have hself' : ¬ R.Records before.holdings (.sets R.members) (.text R.identifier) := by
      rintro ⟨text, hmem, htext⟩
      rw [hrecord] at hmem
      exact hself (ScopeRoll.records_of_later hle ⟨text, hmem, htext⟩)
    refine ⟨hrecord, ?_⟩
    rcases ScopeRoll.clear_cases hread' hself' .never t' with hcleared | ⟨halt, -, hhalts, -⟩
    · exact hcleared
    · exact absurd hhalts (Stops.not_halts_never halt)

/-- A scope with a map whose keys are numbers and a map of sets whose keys are texts. -/
def ScopeRoll.sample : ScopeRoll where
  identifier := "tenant"
  members := 0
  registered :=
    [{ mapId := "users", serializer := KeyCodec.serializer ⟨.plain, .natural⟩, vault := .map 0 },
      { mapId := "tags", serializer := KeyCodec.serializer ⟨.plain, .text⟩, vault := .sets 1 }]

/-- The map of users is down for one call: by then two texts have been read as the same user, who
has been removed. When the clear is repeated, the other recorded user is removed. -/
theorem failed_clear_can_be_repeated_offline :
    let R := ScopeRoll.sample
    let w : World Nat :=
      { maps := (∅ : Shelf (Base (EntryMap Nat))).put 0
          { content := .ofList [(.number 1, 10), (.number 2, 20), (.number 3, 30)] }
        setMaps := ((∅ : Shelf (Base MemberMap)).put 0
          { content := .ofList [(.text "tenant",
              ["users:1", "users:01", "users:2", "tags:k", "ghost:9", "malformed"])] }).put 1
          { content := .ofList [(.text "k", ["x"])] } }
    let stops : Stops Nat := .hitting [(5, .failure { cause := .backend "offline" })]
    let clear : Token → Action Nat Nat := (R.scope Nat).clear (R.participants Nat)
    let out := stops.regime.act w (clear none)
    let again := Stops.never.regime.act (out.2.atTime 10) (clear none)
    (out.1.toOption = none ∧ R.HalfCleared w.holdings out.2.holdings ∧
      (out.2.holdings.at? (.map 0) (.number 1)).isNone) ∧
    again.1.toOption = some 1 ∧ R.Cleared 1 (out.2.atTime 10).holdings again.2.holdings := by
  intro R w stops clear out again
  have hread : ∀ text ∈ (R.record w.holdings).toList, R.readsBack text = true := by decide +kernel
  have hself : ∀ text ∈ (R.record w.holdings).toList,
      R.target? text ≠ some (.sets R.members, .text R.identifier) := by decide +kernel
  obtain ⟨-, hfailed⟩ := failed_clear_can_be_repeated R w
    (fun text hmem => hread text (Std.ExtTreeSet.mem_toList.2 hmem))
    (fun ⟨text, hmem, htext⟩ => hself text (Std.ExtTreeSet.mem_toList.2 hmem) htext) stops none
  have hnone : out.1.toOption = none := by decide +kernel
  have hanswer : again.1.toOption = some 1 := by decide +kernel
  have hgone : (out.2.holdings.at? (.map 0) (.number 1)).isNone := by decide +kernel
  obtain ⟨halt, herror⟩ : ∃ halt, out.1 = .error halt := by
    cases hout : out.1 with
    | ok removed =>
      rw [hout] at hnone
      cases hnone
    | error halt => exact ⟨halt, rfl⟩
  obtain ⟨hhalf, hagain⟩ := hfailed halt herror
  obtain ⟨-, removed, hok, hcleared⟩ := hagain 10 (Nat.zero_le 10) none
  obtain rfl : removed = 1 :=
    Option.some.inj ((congrArg Except.toOption hok).symm.trans hanswer)
  exact ⟨⟨hnone, hhalf, hgone⟩, hanswer, hcleared⟩

end TwinStore
