import TwinStore.Proofs.ScopeUses

/-!
# Scopes record and clear

Callers use the maps and the maps of sets of a scope, each through its decorator or behind its back,
the sets that these have handed out, and the scope itself (`ScopeUse`). Turn after turn the keys
that went through their decorators are recorded (`ScopeRun.Sound.serve`), also while time passes. To
clear the scope is to remove the recorded keys one by one (`ScopeLayout.Drops`,
`ScopeLayout.Clears`) and then to forget them all (`ScopeLayout.ends_clear`).
-/

namespace TwinStore

variable {V : Type}

namespace ScopeLayout

variable {n m : Nat} {L : ScopeLayout n m} {q : Place n m} {k : Key} {s s' : Stand V}

/-! ## Clearing -/

/-- A key is gone from its store; all else is as it was. -/
structure Drops (L : ScopeLayout n m) (q : Place n m) (k : Key) (s s' : Stand V) : Prop where
  now : s'.now = s.now
  gone : L.slot s' q k = none
  kept : ∀ q' k', (q', k') ≠ (q, k) → L.slot s' q' k' = L.slot s q' k'
  members : s'.setMaps L.members = s.setMaps L.members
  populated : ∀ j, (s.setMaps j).Populated → (s'.setMaps j).Populated

namespace Drops

theorem of_map (i : Fin n) (k : Key) (s : Stand V) :
    L.Drops (.inl i) k s (s.onMap (L.maps i).store (.remove k)) where
  now := rfl
  gone := by
    rw [slot_inl, Stand.maps_onMap_self]
    exact Option.map_eq_none_iff.2 Std.ExtTreeMap.getElem?_erase_self
  kept q' k' hne := by
    cases q' with
    | inr j => rfl
    | inl i' =>
      rw [slot_inl, slot_inl]
      by_cases hi : i' = i
      · subst hi
        have hk : k ≠ k' := fun hk => hne (by rw [hk])
        rw [Stand.maps_onMap_self]
        simp [MapOp.apply, EntryMap.remove, Std.ExtTreeMap.getElem?_erase, hk]
      · rw [Stand.maps_onMap_of_ne _ _ fun h => hi (L.mapStores h)]
  members := rfl
  populated _ := id

theorem of_setMap (j : Fin m) (k : Key) (s : Stand V) :
    L.Drops (.inr j) k s (s.onSetMap (L.sets j).store (.remove k)) where
  now := rfl
  gone := by
    rw [slot_inr, Stand.setMaps_onSetMap_self]
    exact Option.map_eq_none_iff.2 Std.ExtTreeMap.getElem?_erase_self
  kept q' k' hne := by
    cases q' with
    | inl i => rfl
    | inr j' =>
      rw [slot_inr, slot_inr]
      by_cases hj : j' = j
      · subst hj
        have hk : k ≠ k' := fun hk => hne (by rw [hk])
        rw [Stand.setMaps_onSetMap_self]
        simp [SetMapOp.apply, EntryMap.remove, Std.ExtTreeMap.getElem?_erase, hk]
      · rw [Stand.setMaps_onSetMap_of_ne _ _ fun h => hj (L.setStores h)]
  members := Stand.setMaps_onSetMap_of_ne _ _ (L.apart j).symm
  populated j' hp := by
    by_cases hj : j' = (L.sets j).store
    · rw [hj, Stand.setMaps_onSetMap_self]
      exact EntryMap.Every.erase (hj ▸ hp) k
    · rwa [Stand.setMaps_onSetMap_of_ne _ _ hj]

theorem there (h : L.Drops q k s s') {q' : Place n m} {k' : Key} (ht : L.there s' q' k' = true) :
    L.there s q' k' = true := by
  by_cases hne : (q', k') = (q, k)
  · cases hne
    rw [there_of_slot_none h.gone] at ht
    cases ht
  · rwa [← there_congr (h.kept q' k' hne) h.now]

theorem record (h : L.Drops q k s s') : L.record s' = L.record s := by
  unfold ScopeLayout.record Stand.members
  rw [h.members, h.now]

theorem records (h : L.Drops q k s s') {q' : Place n m} {k' : Key} :
    L.Records s' q' k' ↔ L.Records s q' k' := by
  unfold Records
  rw [h.record]

theorem orderly (h : L.Drops q k s s') (hs : L.Orderly s) : L.Orderly s' where
  written := h.record ▸ hs.written
  lasting := h.members ▸ hs.lasting
  populated j := h.populated _ (hs.populated j)

end Drops

/-- The keys that texts record are gone from their stores, and so many of them were there; all else
is as it was. -/
structure Clears (L : ScopeLayout n m) (texts : List String) (removed : Nat) (s s' : Stand V) :
    Prop where
  now : s'.now = s.now
  gone : ∀ q k, (∃ text ∈ texts, L.Text q k text) → L.slot s' q k = none
  kept : ∀ q k, (¬ ∃ text ∈ texts, L.Text q k text) → L.slot s' q k = L.slot s q k
  counted : ∃ keys : List (Place n m × Key), keys.Nodup ∧ removed = keys.length ∧
    ∀ q k, (q, k) ∈ keys ↔ L.there s q k = true ∧ ∃ text ∈ texts, L.Text q k text
  members : s'.setMaps L.members = s.setMaps L.members
  populated : ∀ j, (s.setMaps j).Populated → (s'.setMaps j).Populated

namespace Clears

theorem refl (s : Stand V) : L.Clears [] 0 s s where
  now := rfl
  gone := by simp
  kept _ _ _ := rfl
  counted := ⟨[], List.nodup_nil, rfl, by simp⟩
  members := rfl
  populated _ := id

variable {s'' : Stand V} {text : String} {rest : List String} {removed : Nat}

/-- What one text records is removed, and then what the others record. -/
theorem cons (ht : L.Text q k text) (h : L.Drops q k s s') (h' : L.Clears rest removed s' s'') :
    L.Clears (text :: rest) (removed + if L.there s q k then 1 else 0) s s'' where
  now := h'.now.trans h.now
  gone q' k' hrecorded := by
    by_cases hrest : ∃ text ∈ rest, L.Text q' k' text
    · exact h'.gone q' k' hrest
    · obtain ⟨text', hmem, ht'⟩ := hrecorded
      rcases List.mem_cons.1 hmem with rfl | hmem
      · obtain ⟨rfl, rfl⟩ := ht.inj ht'
        exact (h'.kept q k hrest).trans h.gone
      · exact absurd ⟨text', hmem, ht'⟩ hrest
  kept q' k' hrecorded := by
    have hne : (q', k') ≠ (q, k) := by
      rintro ⟨rfl, rfl⟩
      exact hrecorded ⟨text, List.mem_cons_self, ht⟩
    refine (h'.kept q' k' fun hrest => hrecorded ?_).trans (h.kept q' k' hne)
    obtain ⟨text', hmem, ht'⟩ := hrest
    exact ⟨text', List.mem_cons_of_mem _ hmem, ht'⟩
  counted := by
    obtain ⟨keys, hnodup, rfl, hkeys⟩ := h'.counted
    have hgone : L.there s' q k = false := there_of_slot_none h.gone
    have hnew : (q, k) ∉ keys := by
      simp [hkeys, hgone]
    -- The other keys are counted by the rest, as the first text is about another key.
    have hothers {q' k'} (hne : (q', k') ≠ (q, k)) : (q', k') ∈ keys ↔
        L.there s q' k' = true ∧ ∃ text' ∈ text :: rest, L.Text q' k' text' := by
      have hnot : ¬ L.Text q' k' text := by
        intro ht'
        obtain ⟨rfl, rfl⟩ := ht.inj ht'
        exact hne rfl
      rw [hkeys, there_congr (h.kept q' k' hne) h.now]
      simp [hnot]
    cases hthere : L.there s q k with
    | false =>
      refine ⟨keys, hnodup, rfl, fun q' k' => ?_⟩
      by_cases hne : (q', k') = (q, k)
      · cases hne
        simp [hnew, hthere]
      · exact hothers hne
    | true =>
      refine ⟨(q, k) :: keys, List.nodup_cons.2 ⟨hnew, hnodup⟩, rfl, fun q' k' => ?_⟩
      by_cases hne : (q', k') = (q, k)
      · cases hne
        simp [hthere, ht]
      · rw [List.mem_cons, or_iff_right hne]
        exact hothers hne
  members := h'.members.trans h.members
  populated j hp := h'.populated j (h.populated j hp)

end Clears

/-- The recorded keys are gone from their stores, and so many of them were there; all other keys are
as they were, and no record is left. -/
structure Cleared (L : ScopeLayout n m) (removed : Nat) (s s' : Stand V) : Prop where
  now : s'.now = s.now
  gone : ∀ q k, L.Records s q k → L.slot s' q k = none
  kept : ∀ q k, ¬ L.Records s q k → L.slot s' q k = L.slot s q k
  counted : ∃ keys : List (Place n m × Key), keys.Nodup ∧ removed = keys.length ∧
    ∀ q k, (q, k) ∈ keys ↔ L.there s q k = true ∧ L.Records s q k
  forgotten : (s'.setMaps L.members).slots[Key.text L.identifier]? = none
  populated : ∀ j, (s.setMaps j).Populated → (s'.setMaps j).Populated

/-- Where there is no record, all is in order if no set is empty. -/
theorem Orderly.of_unrecorded
    (hrecord : (s.setMaps L.members).slots[Key.text L.identifier]? = none)
    (hp : ∀ j, (s.setMaps (L.sets j).store).Populated) : L.Orderly s := by
  have hempty : L.record s = ∅ := by
    simp [record, Stand.members, MemberMap.liveMembers, EntryMap.live?, hrecord]
  refine ⟨fun text hmem => ?_, fun slot hslot => ?_, hp⟩
  · rw [hempty] at hmem
    simp at hmem
  · rw [hrecord] at hslot
    cases hslot

namespace Cleared

variable {removed : Nat}

/-- The members are removed one by one, and then the record. -/
theorem of_clears {s₁ s₂ : Stand V} {texts : List String} (hnoted : L.Notes (L.record s) s s₁)
    (htexts : ∀ text, text ∈ texts ↔ text ∈ L.record s) (h : L.Clears texts removed s₁ s₂) :
    L.Cleared removed s (s₂.onSetMap L.members (.remove (.text L.identifier))) := by
  have hrecords (q : Place n m) (k : Key) :
      (∃ text ∈ texts, L.Text q k text) ↔ L.Records s q k := by
    simp only [htexts]
    rfl
  refine ⟨h.now.trans hnoted.now, fun q k hr => ?_, fun q k hr => ?_, ?_, ?_, fun j hp => ?_⟩
  · rw [slot_onSetMap_members]
    exact h.gone q k ((hrecords q k).2 hr)
  · rw [slot_onSetMap_members, h.kept q k fun he => hr ((hrecords q k).1 he), hnoted.slot]
  · obtain ⟨keys, hnodup, hlength, hkeys⟩ := h.counted
    refine ⟨keys, hnodup, hlength, fun q k => ?_⟩
    rw [hkeys, hrecords, hnoted.there]
  · rw [Stand.setMaps_onSetMap_self]
    exact Std.ExtTreeMap.getElem?_erase_self
  · have hp₂ := h.populated j (hnoted.populated j hp)
    by_cases hj : j = L.members
    · subst hj
      rw [Stand.setMaps_onSetMap_self]
      exact EntryMap.Every.erase hp₂ _
    · rwa [Stand.setMaps_onSetMap_of_ne _ _ hj]

/-- Nothing appears, and what is left has not been recorded. -/
theorem step (h : L.Cleared removed s s') : L.Step none s s' where
  now := h.now
  there q k ht := by
    by_cases hr : L.Records s q k
    · rw [there_of_slot_none (h.gone q k hr)] at ht
      cases ht
    · exact .inl (there_congr (h.kept q k hr) h.now ▸ ht)
  records _ _ hq := nomatch hq
  keeps q k hr ht := by
    rw [there_of_slot_none (h.gone q k hr)] at ht
    cases ht
  orderly hs := .of_unrecorded h.forgotten fun j => h.populated _ (hs.populated j)

end Cleared

/-- Remove a key from the base store in a place. -/
def removal (L : ScopeLayout n m) (V : Type) (t : Token) : Place n m → Key → Action V Bool
  | .inl i, k => Backend.onMap (L.maps i).store (.remove k) t
  | .inr j, k => Backend.onSetMap (L.sets j).store (.remove k) t

/-- Whoever takes part, a recorded key is removed from its base store. -/
theorem removeRecorded_eq {t : Token} {text : String} (ht : L.Text q k text) :
    Scope.removeRecorded (L.participants V) t text = L.removal V t q k := by
  obtain ⟨hk, raw, hraw, rfl⟩ := ht
  have hkey : (Action.ofExcept ((L.recorder q).serializer.decode raw) : Action V Key) = pure k :=
    congrArg Action.ofExcept ((L.recorder q).undoes k raw hk hraw)
  unfold Scope.removeRecorded
  rw [L.split?_member]
  dsimp only
  rw [find?_participants]
  cases q with
  | inl i =>
    change (Action.ofExcept ((L.recorder (.inl i)).serializer.decode raw) >>= fun k =>
      Backend.onMap (L.maps i).store (.remove k) t) = _
    rw [hkey]
    rfl
  | inr j =>
    change (Action.ofExcept ((L.recorder (.inr j)).serializer.decode raw) >>= fun k =>
      Backend.onSetMap (L.sets j).store (.remove k) t) = _
    rw [hkey]
    rfl

section Clear

variable {faults : Faults V} {t : Token} (hmaps : ∀ i, faults.Spares (.map (L.maps i).store))
  (hs : L.Ready faults s)
include hmaps hs

theorem ends_removeRecorded {text : String} (ht : L.Text q k text) :
    (Scope.removeRecorded (L.participants V) t text).ends faults.regime (fun removed s' =>
      removed = L.there s q k ∧ L.Drops q k s s') s := by
  rw [removeRecorded_eq ht]
  cases q with
  | inl i => exact (hmaps i).ends_onMap (.remove k) ⟨rfl, .of_map i k s⟩
  | inr j => exact (hs.sets j).ends_onSetMap (.remove k) ⟨rfl, .of_setMap j k s⟩

theorem ends_removeAll (texts : List String) (total : Nat)
    (hwritten : ∀ text ∈ texts, ∃ q k, L.Text q k text) :
    (Scope.removeAll (L.participants V) t texts total).ends faults.regime (fun removed s' =>
      ∃ count, removed = total + count ∧ L.Clears texts count s s') s := by
  induction texts generalizing s total with
  | nil => exact Action.ends_pure ⟨0, rfl, .refl s⟩
  | cons text rest ih =>
    obtain ⟨q, k, ht⟩ := hwritten text List.mem_cons_self
    refine Action.ends_bind (Action.ends_mono (ends_removeRecorded hmaps hs ht) ?_)
    rintro _ s' ⟨rfl, hdrops⟩
    have hs' : L.Ready faults s' :=
      ⟨hs.members, hs.sets, fun j => hdrops.populated _ (hs.populated j)⟩
    refine Action.ends_mono
      (ih hs' _ fun text' hmem => hwritten text' (List.mem_cons_of_mem _ hmem)) ?_
    rintro removed s'' ⟨count, rfl, hclears⟩
    refine ⟨_, ?_, .cons ht hdrops hclears⟩
    split <;> omega

/-- To clear the scope is to remove the recorded keys and to forget them. -/
theorem ends_clear (hwritten : ∀ text ∈ L.record s, ∃ q k, L.Text q k text) :
    ((L.scope V).clear (L.participants V) t).ends faults.regime (fun removed s' =>
      L.Cleared removed s s') s := by
  unfold Scope.clear
  refine Action.ends_bind (Action.ends_mono (ends_reached hs.members) ?_)
  rintro _ s₁ ⟨rfl, hreach⟩
  refine Action.ends_bind (Action.ends_bind (Action.ends_mono (ends_noted hs.members .members) ?_))
  rintro _ s₂ ⟨rfl, hlisted⟩
  have hnoted : L.Notes (L.record s) s s₂ := hreach.record ▸ hreach.trans hlisted
  have hs₂ : L.Ready faults s₂ :=
    ⟨hs.members, hs.sets, fun j => hnoted.populated _ (hs.populated j)⟩
  have htexts (text : String) :
      text ∈ s₁.order.members (L.record s₁).toList ↔ text ∈ L.record s := by
    rw [hreach.record, (s₁.order.members_perm _).mem_iff, Std.ExtTreeSet.mem_toList]
  refine Action.ends_pure (Action.ends_bind (Action.ends_mono
    (ends_removeAll hmaps hs₂ _ 0 fun text hmem => hwritten text ((htexts text).1 hmem)) ?_))
  rintro _ s₃ ⟨removed, rfl, hclears⟩
  refine Action.ends_bind (hs.members.ends_onSetMap (.remove (.text L.identifier)) ?_)
  refine Action.ends_bind (Action.ends_count (Action.ends_bind (Action.ends_count
    (Action.ends_pure ?_))))
  rw [Nat.zero_add]
  exact .of_clears hnoted htexts hclears

end Clear

/-! ## Time -/

section Time

variable {w : World V} {time : Nat}

/-- A key that is there at a later time was there before. -/
theorem there_of_later (hle : w.clock ≤ time) (h : L.there (w.atTime time).stand q k = true) :
    L.there w.stand q k = true := by
  cases q with
  | inl i =>
    obtain ⟨v, hv⟩ := Option.isSome_iff_exists.1 h
    exact Option.isSome_iff_exists.2 ⟨v, EntryMap.live?_of_later hle hv⟩
  | inr j =>
    obtain ⟨c, hc⟩ := Option.isSome_iff_exists.1 h
    exact Option.isSome_iff_exists.2 ⟨c, EntryMap.live?_of_later hle hc⟩

/-- What is recorded stays recorded. -/
theorem Orderly.record_later (h : L.Orderly w.stand) (time : Nat) :
    L.record (w.atTime time).stand = L.record w.stand :=
  h.lasting.liveMembers_eq w.clock time

theorem Orderly.later (h : L.Orderly w.stand) (time : Nat) : L.Orderly (w.atTime time).stand where
  written := h.record_later time ▸ h.written
  lasting := h.lasting
  populated := h.populated

end Time

end ScopeLayout

/-! ## Turns -/

/-- What callers may ask of a scope's maps and maps of sets, each through its decorator or not, of
the sets that were handed out, and of the scope. -/
inductive ScopeUse (V : Type) (n m : Nat) where
  | entry (through : Bool) (i : Fin n) (op : MapOp V)
  | sets (use : SetUse (Bool × Fin m))
  | clear

variable {n m : Nat}

namespace ScopeUse

/-- What a use answers. -/
@[reducible] def Answer : ScopeUse V n m → Type
  | entry _ _ op => op.Answer
  | sets use => use.Answer
  | clear => Nat

/-- Serve a caller, given what has been handed out so far. -/
def on (L : ScopeLayout n m) (lent : List (Lent (Bool × Fin m))) (t : Token) :
    (use : ScopeUse V n m) → Action V use.Answer
  | entry true i op => op.on ((L.enrolment V (.inl i)).map (Backend.map (L.maps i).store)) t
  | entry false i op => op.on (Backend.map (L.maps i).store) t
  | sets use => use.on (L.setStore V) lent t
  | clear => (L.scope V).clear (L.participants V) t

/-- The key that a use inserts, where, and whether that goes through the decorator. -/
def inserted (lent : List (Lent (Bool × Fin m))) :
    (use : ScopeUse V n m) → use.Answer → Option (Bool × Place n m × Key)
  | entry through i op, a => (op.inserted a).map fun k => (through, .inl i, k)
  | sets use, a => (use.inserted lent a).map ScopeLayout.placed
  | clear, _ => none

/-- The key that a use names is of the type of its map. -/
def Typed (L : ScopeLayout n m) : ScopeUse V n m → Prop
  | entry _ i op => ∀ k, op.key? = some k → (L.maps i).keys k
  | sets use => ∀ i k, use.key? = some (i, k) → (L.sets i.2).keys k
  | clear => True

/-- What an answer hands out. -/
def handed : (use : ScopeUse V n m) → use.Answer → List (Lent (Bool × Fin m))
  | sets use, a => use.handed a
  | entry _ _ _, _ => []
  | clear, _ => []

end ScopeUse

/-- A key has been inserted, through its decorator or not; it may have been there already. -/
structure Insertion (n m : Nat) where
  through : Bool
  place : Place n m
  key : Key
  onto : Bool
  deriving DecidableEq

/-- A world, the sets that have been handed out, and the insertions so far. -/
structure ScopeRun (V : Type) (n m : Nat) where
  world : World V
  lent : List (Lent (Bool × Fin m)) := []
  log : List (Insertion n m) := []

namespace ScopeRun

variable (g : Regime V) (L : ScopeLayout n m)

/-- What a caller's turn ends with. -/
def turn (h : ScopeRun V n m) (turn : Turn (ScopeUse V n m)) :
    Except Halt turn.op.Answer × World V :=
  g.act (h.world.atTime turn.time) (turn.op.on L h.lent turn.token)

/-- A caller is served. -/
def serve (h : ScopeRun V n m) (turn : Turn (ScopeUse V n m)) : ScopeRun V n m where
  world := (h.turn g L turn).2
  lent := h.lent ++ ((h.turn g L turn).1.toOption.map turn.op.handed).getD []
  log := h.log ++ (((h.turn g L turn).1.toOption.bind (turn.op.inserted h.lent)).map
    fun (through, q, k) =>
      { through, place := q, key := k,
        onto := L.there (h.world.atTime turn.time).stand q k }).toList

/-- Callers are served in turn. -/
def serveAll (h : ScopeRun V n m) (turns : List (Turn (ScopeUse V n m))) : ScopeRun V n m :=
  turns.foldl (serve g L) h

/-- What has been handed out through a decorator is under a key that can be written. A key that is
there is recorded if it has been inserted through its decorator and was there whenever it has been
inserted since. -/
structure Sound (h : ScopeRun V n m) : Prop where
  found : ∀ l ∈ h.lent, L.Found l
  orderly : L.Orderly h.world.stand
  records : ∀ before e after, h.log = before ++ e :: after → e.through = true →
    (∀ e' ∈ after, e'.place = e.place → e'.key = e.key → e'.onto = true) →
    L.there h.world.stand e.place e.key = true → L.Records h.world.stand e.place e.key

variable {g L}

theorem Sound.start {w : World V} (h : L.Orderly w.stand) : Sound L { world := w } :=
  ⟨nofun, h, fun before e after hlog => absurd hlog (by simp)⟩

theorem clock_serve (faults : Faults V) (h : ScopeRun V n m) (turn : Turn (ScopeUse V n m)) :
    (h.serve faults.regime L turn).world.clock = turn.time :=
  faults.act_clock _ _

theorem clock_serveAll (faults : Faults V) (h : ScopeRun V n m)
    (turns : List (Turn (ScopeUse V n m))) {time : Nat}
    (htimes : (h.world.clock :: (turns.map Turn.time ++ [time])).Pairwise (· ≤ ·)) :
    (h.serveAll faults.regime L turns).world.clock ≤ time := by
  obtain ⟨hle, hrest⟩ := List.pairwise_cons.1 htimes
  induction turns generalizing h with
  | nil => exact hle time List.mem_cons_self
  | cons turn rest ih =>
    have hnext := List.pairwise_cons.1 hrest
    refine ih (h.serve faults.regime L turn) ?_ ?_ hnext.2
    · rwa [clock_serve]
    · rw [clock_serve]
      exact hnext.1

section Serve

variable {faults : Faults V} (hmaps : ∀ i, faults.Spares (.map (L.maps i).store))
  (hsets : ∀ j, faults.Spares (.setMap (L.sets j).store))
  (hmembers : faults.Spares (.setMap L.members))
include hmaps hsets hmembers

/-- What a turn leaves. -/
theorem step_turn {h : ScopeRun V n m} (hh : Sound L h) (turn : Turn (ScopeUse V n m))
    (hturn : turn.op.Typed L) :
    L.Step ((h.turn faults.regime L turn).1.toOption.bind (turn.op.inserted h.lent))
        (h.world.atTime turn.time).stand (h.turn faults.regime L turn).2.stand ∧
      ∀ a, (h.turn faults.regime L turn).1 = .ok a → ∀ l ∈ turn.op.handed a, L.Found l := by
  obtain ⟨use, t, time⟩ := turn
  have hlater := hh.orderly.later time
  have hs : L.Ready faults (h.world.atTime time).stand := ⟨hmembers, hsets, hlater.populated⟩
  cases use with
  | entry through i op =>
    refine ⟨?_, nofun⟩
    cases through with
    | false => exact ScopeLayout.wp_direct (t := t) (w := h.world.atTime time) (hmaps i) op
    | true =>
      exact ScopeLayout.wp_decorated (t := t) (w := h.world.atTime time) (hmaps i) hmembers op
        hturn
  | sets use => exact ScopeLayout.wp_sets (t := t) hs hh.found use hturn
  | clear =>
    refine ⟨?_, nofun⟩
    obtain ⟨removed, hok, hcleared⟩ := Action.ends_act
      (ScopeLayout.ends_clear (t := t) hmaps hs hlater.written)
    have hanswer : (h.turn faults.regime L ⟨.clear, t, time⟩).1 = .ok removed := hok
    rw [hanswer]
    exact hcleared.step

/-- A turn leaves the keys recorded that were, and those that it inserts through a decorator. -/
theorem Sound.serve {h : ScopeRun V n m} (hh : Sound L h) (turn : Turn (ScopeUse V n m))
    (hturn : turn.op.Typed L) (hle : h.world.clock ≤ turn.time) :
    Sound L (h.serve faults.regime L turn) := by
  obtain ⟨hstep, hhanded⟩ := step_turn hmaps hsets hmembers hh turn hturn
  have hlater := hh.orderly.later turn.time
  have hkept {q : Place n m} {k : Key}
      (hr : L.there h.world.stand q k = true → L.Records h.world.stand q k)
      (hbefore : L.there (h.world.atTime turn.time).stand q k = true)
      (hafter : L.there (h.turn faults.regime L turn).2.stand q k = true) :
      L.Records (h.turn faults.regime L turn).2.stand q k := by
    have hrecorded := hr (ScopeLayout.there_of_later hle hbefore)
    unfold ScopeLayout.Records at hrecorded
    rw [← hh.orderly.record_later turn.time] at hrecorded
    exact hstep.keeps q k hrecorded hafter
  refine ⟨fun l hl => ?_, hstep.orderly hlater,
    fun before e after hlog hthrough hsince hthere => ?_⟩
  · rcases mem_append_handed hl with hl | ⟨a, ha, hl⟩
    · exact hh.found l hl
    · exact hhanded a ha l hl
  · change h.log ++ (Option.map _ (Option.bind _ (turn.op.inserted h.lent))).toList = _ at hlog
    cases hinserted : (h.turn faults.regime L turn).1.toOption.bind (turn.op.inserted h.lent) with
    | none =>
      rw [hinserted] at hlog hstep
      rw [Option.map_none, Option.toList_none, List.append_nil] at hlog
      have hbefore := (hstep.there _ _ hthere).resolve_right nofun
      exact hkept (hh.records before e after hlog hthrough hsince) hbefore hthere
    | some new =>
      obtain ⟨through, q, k⟩ := new
      rw [hinserted] at hlog hstep
      rcases List.eq_nil_or_concat after with rfl | ⟨earlier, last, rfl⟩
      · obtain ⟨-, hlast⟩ := List.append_inj' hlog rfl
        cases hlast
        cases hthrough
        exact hstep.records q k rfl
      · rw [List.concat_eq_append] at hlog hsince
        rw [← List.cons_append, ← List.append_assoc] at hlog
        obtain ⟨hold, hlast⟩ := List.append_inj' hlog rfl
        cases hlast
        have hbefore : L.there (h.world.atTime turn.time).stand e.place e.key = true := by
          rcases hstep.there _ _ hthere with hbefore | ⟨_, hnew⟩
          · exact hbefore
          · cases hnew
            exact hsince _ (List.mem_append_right _ List.mem_cons_self) rfl rfl
        exact hkept (hh.records before e earlier hold hthrough fun e' he' =>
          hsince e' (List.mem_append_left _ he')) hbefore hthere

/-- Turn after turn the keys that went through their decorators are recorded. -/
theorem Sound.serveAll {h : ScopeRun V n m} (hh : Sound L h) (turns : List (Turn (ScopeUse V n m)))
    (hturns : ∀ turn ∈ turns, turn.op.Typed L)
    (htimes : (h.world.clock :: turns.map Turn.time).Pairwise (· ≤ ·)) :
    Sound L (h.serveAll faults.regime L turns) := by
  induction turns generalizing h with
  | nil => exact hh
  | cons turn rest ih =>
    obtain ⟨hle, hrest⟩ := List.pairwise_cons.1 htimes
    refine ih (hh.serve hmaps hsets hmembers turn (hturns turn List.mem_cons_self)
      (hle turn.time List.mem_cons_self)) (fun turn' hmem =>
        hturns turn' (List.mem_cons_of_mem _ hmem)) ?_
    rwa [clock_serve]

end Serve

end ScopeRun

/-- **A scope records what goes through its decorators, and clears what it records.** No call fails;
callers use the maps and the maps of sets, each through its decorator or behind its back, the sets
that these have handed out, and the scope, in any order. At any time a key that is there is recorded
if it has been inserted through its decorator and no insertion since has found it absent: so in
particular if its latest insertion went through its decorator. To clear the scope then removes the
recorded keys and leaves the others as they are, answers how many of them were there, and leaves no
record. -/
theorem scope_records_and_clears (L : ScopeLayout n m) (faults : Faults V)
    (hmaps : ∀ i, faults.Spares (.map (L.maps i).store))
    (hsets : ∀ j, faults.Spares (.setMap (L.sets j).store))
    (hmembers : faults.Spares (.setMap L.members)) (w : World V) (hw : L.Orderly w.stand)
    (turns : List (Turn (ScopeUse V n m))) (hturns : ∀ turn ∈ turns, turn.op.Typed L) (time : Nat)
    (htimes : (w.clock :: (turns.map Turn.time ++ [time])).Pairwise (· ≤ ·)) (t : Token) :
    let start : ScopeRun V n m := { world := w }
    let run := start.serveAll faults.regime L turns
    let now := run.world.atTime time
    let out := faults.regime.act now ((L.scope V).clear (L.participants V) t)
    (∀ before e after, run.log = before ++ e :: after → e.through = true →
      (∀ e' ∈ after, e'.place = e.place → e'.key = e.key → e'.onto = true) →
      L.there now.stand e.place e.key = true → L.Records now.stand e.place e.key) ∧
    ∃ removed, out.1 = .ok removed ∧ L.Cleared removed now.stand out.2.stand := by
  intro start run now out
  have hsound : ScopeRun.Sound L run :=
    (ScopeRun.Sound.start hw).serveAll hmaps hsets hmembers turns hturns
      (htimes.sublist ((List.sublist_append_left _ _).cons_cons _))
  have hlater := hsound.orderly.later time
  refine ⟨fun before e after hlog hthrough hsince hthere => ?_, ?_⟩
  · have hle : run.world.clock ≤ time := ScopeRun.clock_serveAll faults start turns htimes
    have hrecorded := hsound.records before e after hlog hthrough hsince
      (ScopeLayout.there_of_later hle hthere)
    unfold ScopeLayout.Records at hrecorded ⊢
    rwa [hsound.orderly.record_later time]
  · exact Action.ends_act (ScopeLayout.ends_clear hmaps ⟨hmembers, hsets, hlater.populated⟩
      hlater.written)

/-- A map or a map of sets whose keys are texts, written as they are. -/
def Recorder.texts (mapId : String) (accepted : Scope.checkIdentifier "map" mapId = .ok ())
    (store : Nat) : Recorder where
  mapId := mapId
  accepted := accepted
  keys k := ∃ word, k = .text word
  serializer := KeyCodec.serializer ⟨.plain, .text⟩
  undoes := by
    rintro _ _ ⟨word, rfl⟩ hraw
    cases hraw
    rfl
  store := store

/-- A scope with a map and a map of sets. -/
def ScopeLayout.sample : ScopeLayout 1 1 where
  identifier := "tenant"
  members := 0
  maps _ := .texts "users" rfl 0
  sets _ := .texts "tags" rfl 1
  ids := by
    rintro (i | j) (i' | j') h
    · rw [Subsingleton.elim i i']
    · exact absurd (show "users" = "tags" from h) (by decide)
    · exact absurd (show "tags" = "users" from h) (by decide)
    · rw [Subsingleton.elim j j']
  mapStores := Function.injective_of_subsingleton _
  setStores := Function.injective_of_subsingleton _
  apart := by decide

/-- A user is added through the decorator and another behind its back; a set is filled through what
the decorator handed out and removed behind its back, which leaves its record behind. -/
theorem scope_records_and_clears_users :
    let L := ScopeLayout.sample
    let start : ScopeRun Nat 1 1 := { world := {} }
    let turns : List (Turn (ScopeUse Nat 1 1)) :=
      [{ op := .entry true 0 (.add (.text "a:b") 1 false) },
        { op := .sets (.reach (true, 0) (.text "k")) },
        { op := .sets (.member 0 (.add "x")), time := 5 },
        { op := .entry false 0 (.add (.text "c") 2 false), time := 5 },
        { op := .sets (.remove (false, 0) (.text "k")), time := 7 }]
    let run := start.serveAll (Faults.hitting []).regime L turns
    let now := run.world.atTime 10
    let out := (Faults.hitting []).regime.act now ((L.scope Nat).clear (L.participants Nat) none)
    L.Records now.stand (.inl 0) (.text "a:b") ∧ out.1.toOption = some 1 ∧
      L.Cleared 1 now.stand out.2.stand := by
  intro L start turns run now out
  have hspared : ∀ site, (Faults.hitting [] : Faults Nat).Spares site := Faults.spares_hitting_nil
  have hstart : L.Orderly start.world.stand :=
    .of_unrecorded (by decide +kernel) fun _ => MemberMap.populated_empty
  have hturns : ∀ turn ∈ turns, turn.op.Typed L := by
    simp only [turns, List.forall_mem_cons]
    refine ⟨?_, ?_, ?_, ?_, ?_, nofun⟩
    · rintro _ ⟨⟩
      exact ⟨_, rfl⟩
    · rintro _ _ ⟨⟩
      exact ⟨_, rfl⟩
    · exact nofun
    · rintro _ ⟨⟩
      exact ⟨_, rfl⟩
    · rintro _ _ ⟨⟩
      exact ⟨_, rfl⟩
  obtain ⟨hrecords, removed, hok, hcleared⟩ := scope_records_and_clears L (Faults.hitting [])
    (fun _ => hspared _) (fun _ => hspared _) (hspared _) start.world hstart turns hturns 10
    (by decide) none
  have hanswer : out.1.toOption = some 1 := by decide +kernel
  have hone : out.1.toOption = some removed := congrArg Except.toOption hok
  obtain rfl : 1 = removed := Option.some.inj (hanswer.symm.trans hone)
  refine ⟨?_, hanswer, hcleared⟩
  exact hrecords [] ⟨true, .inl 0, .text "a:b", false⟩
    [⟨true, .inr 0, .text "k", false⟩, ⟨false, .inl 0, .text "c", false⟩] (by decide +kernel) rfl
    (by decide +kernel) (by decide +kernel)

end TwinStore
