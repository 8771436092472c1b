import TwinStore.Proofs.Crossings
import TwinStore.Proofs.SetUses

/-!
# Crossings between base stores

Two base maps are the stores of a crossing (`mapCrossing`), and so are two base maps of sets
(`setMapCrossing`), however calls stop the run. What they hold is what they hold at the moment: no
time passes while a run goes on alone, so that deadlines do not matter. Of a map of sets the set
under a key is handed out by reference and read when it is stored elsewhere; an empty set would not
be stored, but no base map of sets holds one. Source and target may be one store, which is then
brought to itself.
-/

namespace TwinStore

open Converge

variable {V ν σ α : Type}

/-! ## What base stores hold -/

namespace World

/-- What a base map holds at the moment. -/
def entries (w : World V) (i : Nat) : Entries V :=
  (w.maps.nth i).content.live? w.clock

/-- The sets that a base map of sets holds at the moment. -/
def memberSets (w : World V) (i : Nat) : Entries MemberSet :=
  (w.setMaps.nth i).content.live? w.clock

variable {w : World V} {i j : Nat}

theorem entries_perform_self (op : MapOp V) :
    (w.perform (.map i op)).2.entries i =
      (op.apply w.arrangement w.clock w.date (w.maps.nth i).content).2.live? w.clock := by
  simp [entries, perform]

theorem entries_perform_of_ne (op : MapOp V) (h : i ≠ j) :
    (w.perform (.map i op)).2.entries j = w.entries j := by
  simp [entries, perform, Shelf.nth_put_of_ne _ _ h]

/-- If an operation shows no effect on its map, it shows none on any. -/
theorem entries_perform_of_same {op : MapOp V} (h :
    (op.apply w.arrangement w.clock w.date (w.maps.nth i).content).2.live? w.clock = w.entries i)
    (j : Nat) : (w.perform (.map i op)).2.entries j = w.entries j := by
  by_cases hij : i = j
  · subst hij
    exact (entries_perform_self op).trans h
  · exact entries_perform_of_ne op hij

theorem memberSets_perform_self (op : SetMapOp) :
    (w.perform (.setMap i op)).2.memberSets i =
      (op.apply w.arrangement w.clock w.date (w.setMaps.nth i).content).2.live? w.clock := by
  simp [memberSets, perform]

theorem memberSets_perform_of_ne (op : SetMapOp) (h : i ≠ j) :
    (w.perform (.setMap i op)).2.memberSets j = w.memberSets j := by
  simp [memberSets, perform, Shelf.nth_put_of_ne _ _ h]

/-- If an operation shows no effect on its map of sets, it shows none on any. -/
theorem memberSets_perform_of_same {op : SetMapOp} (h :
    (op.apply w.arrangement w.clock w.date (w.setMaps.nth i).content).2.live? w.clock =
      w.memberSets i) (j : Nat) : (w.perform (.setMap i op)).2.memberSets j = w.memberSets j := by
  by_cases hij : i = j
  · subst hij
    exact (memberSets_perform_self op).trans h
  · exact memberSets_perform_of_ne op hij

theorem memberSets_storeSet_self (k : Key) (members : List String) :
    (w.storeSet i k members).memberSets i =
      ((w.setMaps.nth i).content.store k (Std.ExtTreeSet.ofList members)).live? w.clock := by
  simp [memberSets, storeSet]

theorem memberSets_storeSet_of_ne (k : Key) (members : List String) (h : i ≠ j) :
    (w.storeSet i k members).memberSets j = w.memberSets j := by
  simp [memberSets, storeSet, Shelf.nth_put_of_ne _ _ h]

end World

namespace EntryMap

variable {α : Type} (m : EntryMap α) (now : Nat) (k : Key)

theorem live?_add_eq (v : α) (overwrite : Bool) :
    (m.add now k v overwrite).2.live? now = (Entries.adding k v overwrite).after (m.live? now) := by
  unfold EntryMap.add Entries.adding
  dsimp only
  split
  · rfl
  · exact funext fun k' => m.live?_put now k k' v

theorem live?_evict_eq : (m.evict now k).live? now = m.live? now :=
  funext fun k' => m.live?_evict now k k'

theorem live?_erase_eq :
    (EntryMap.mk (m.slots.erase k)).live? now = Entries.set (m.live? now) k none :=
  funext fun k' => m.live?_erase now k k'

/-- No key is listed twice. -/
theorem nodup_keys : (m.keys now).Nodup := by
  unfold keys entries
  rw [List.Nodup, List.pairwise_map, List.pairwise_filterMap]
  refine (Std.ExtTreeMap.distinct_keys_toList (t := m.slots)).imp fun {a b} hne x hx y hy => ?_
  obtain ⟨-, rfl⟩ : _ ∧ (a.1, a.2.value) = x := by simpa using hx
  obtain ⟨-, rfl⟩ : _ ∧ (b.1, b.2.value) = y := by simpa using hy
  rintro (hsame : a.1 = b.1)
  exact hne (hsame ▸ Std.ReflCmp.compare_self)

end EntryMap

/-! ## Two stores of a kind -/

theorem World.around_congr {w w' : World V} (h : w'.stores = w.stores) : w'.around = w.around := by
  simp only [World.stores, Prod.mk.injEq] at h
  funext site
  cases site <;> simp only [World.around, h.2]

/-- Two base stores of a kind, by their numbers: what the source holds, and what they grant. -/
structure Facing (ν : Type) where
  i : Nat
  j : Nat
  holds : Entries ν
  sourceGrants : Grants
  targetGrants : Grants

namespace Facing

/-- The target holds `T`, and the rest is as it should be. -/
structure At (p : Facing ν) (site : Nat → Site) (held : World V → Nat → Entries ν)
    (T : Entries ν) (w : World V) : Prop where
  source : held w p.i = p.holds
  target : held w p.j = T
  sourceGrants : w.grants (site p.i) = p.sourceGrants
  targetGrants : w.grants (site p.j) = p.targetGrants

/-- One store holds the same, as source and as target. -/
theorem At.eq_of_one {p : Facing ν} {site : Nat → Site} {held : World V → Nat → Entries ν}
    {T : Entries ν} {w : World V} (hw : p.At site held T w) (h : p.i = p.j) : T = p.holds := by
  rw [← hw.target, ← hw.source, h]

/-- The target holds something else, and nothing else has changed. -/
theorem At.becomes {p : Facing ν} {site : Nat → Site} {held : World V → Nat → Entries ν}
    {T T' : Entries ν} {w w' : World V} (hw : p.At site held T w)
    (hsource : held w' p.i = held w p.i) (htarget : held w' p.j = T')
    (haround : w'.around = w.around) : p.At site held T' w' where
  source := hsource.trans hw.source
  target := htarget
  sourceGrants := (congrArg (fun f => (f (site p.i)).2.2) haround).trans hw.sourceGrants
  targetGrants := (congrArg (fun f => (f (site p.j)).2.2) haround).trans hw.targetGrants

/-- Base stores that grant it list their keys. -/
theorem does_requireKeys {G : Ground V σ} {m : KeyedStore V α} {site : Site} {s : σ}
    {left : σ → Prop} (hm : m.canList = Grants.keys <$> Backend.grants site)
    (hgrants : ∀ w, G.At s w → (w.grants site).keys = true) (role : String) :
    G.Does (m.requireKeys role) s (fun _ s' => s' = s) left := by
  intro w hw
  rw [wp_requireKeys hm, if_pos (hgrants w hw)]
  exact ⟨s, rfl, hw⟩

end Facing

/-! ## Base maps -/

namespace Facing

variable {p : Facing V} {T : Entries V} {w : World V}

/-- The ground of two base maps. -/
def mapGround (p : Facing V) (stops : Stops V) : Ground V (Entries V) where
  stops := stops
  At := p.At .map World.entries
  at_visit _ hw := by exact hw.becomes rfl hw.target rfl
  at_congr h _ hw := by
    have hheld := h
    simp only [World.stores, Prod.mk.injEq] at hheld
    refine hw.becomes ?_ ?_ (World.around_congr h)
    · simp [World.entries, hheld]
    · simp [World.entries, hheld, ← hw.target]

theorem At.onSource (hw : p.At .map World.entries T w) {op : MapOp V}
    (hsame : (op.apply w.arrangement w.clock w.date (w.maps.nth p.i).content).2.live? w.clock =
      w.entries p.i) : p.At .map World.entries T (w.perform (.map p.i op)).2 :=
  hw.becomes (World.entries_perform_of_same hsame _)
    ((World.entries_perform_of_same hsame _).trans hw.target) (funext (w.around_perform _))

/-- An operation on the target, which is to show no effect if that is the source as well. -/
theorem At.onTarget (hw : p.At .map World.entries T w) {op : MapOp V} {T' : Entries V}
    (hT' : (op.apply w.arrangement w.clock w.date (w.maps.nth p.j).content).2.live? w.clock = T')
    (hself : T = p.holds → T' = T) : p.At .map World.entries T' (w.perform (.map p.j op)).2 := by
  refine hw.becomes ?_ ((World.entries_perform_self op).trans hT') (funext (w.around_perform _))
  by_cases h : p.i = p.j
  · rw [h, World.entries_perform_self, hT', hself (hw.eq_of_one h), hw.target]
  · exact World.entries_perform_of_ne op (Ne.symm h)

variable {stops : Stops V}

/-- The keys of a memory map, in any order, list its live entries in full. -/
theorem lists_full {ν' : Type} {G : Ground V σ} {m : EntryMap ν'} {now : Nat} {ks : List Key}
    (hks : ks.Perm (m.keys now)) : G.Lists (m.live? now) (.full ks) where
  nodup := hks.nodup_iff.2 (m.nodup_keys now)
  sound k hk := EntryMap.mem_keys_iff k |>.1 (hks.mem_iff.1 hk)
  whole _ k hk := hks.mem_iff.2 (EntryMap.mem_keys_iff k |>.2 hk)
  broken := nofun

theorem lists_failAfter {ν' : Type} {G : Ground V σ} {c : Entries ν'} {l : Listing Key}
    (h : G.Lists c l) (n : Nat) {cause : StoreError} (hcause : G.Halts (.failed cause)) :
    G.Lists c (l.failAfter n cause) where
  nodup := h.nodup.sublist (List.take_sublist n l.items)
  sound k hk := h.sound k (List.mem_of_mem_take hk)
  whole := nofun
  broken := by
    rintro _ ⟨⟩
    exact hcause

theorem does_mapGet (k : Key) (t : Token) (T : Entries V) :
    (p.mapGround stops).Does ((Backend.map p.i).get k t) T
      (fun b T' => (Entries.fetching k (· = ·)).answers p.holds b ∧ T' = T) (· = T) := by
  refine Ground.does_wholeCall t (fun _ _ _ => rfl) fun w hw => ?_
  refine ⟨T, ⟨?_, rfl⟩, hw.onSource (EntryMap.live?_evict_eq _ _ k)⟩
  rw [← hw.source]
  change (w.entries p.i k = none ∧ w.entries p.i k = none) ∨
    ∃ x y, w.entries p.i k = some x ∧ w.entries p.i k = some y ∧ x = y
  cases w.entries p.i k <;> simp

theorem does_mapAdd {k : Key} {x : V} (hS : p.holds k = some x) (overwrite : Bool) (t : Token)
    (T : Entries V) :
    (p.mapGround stops).Does ((Backend.map p.j).add k x overwrite t) T
      ((Entries.adding k x overwrite).Leads T) (· = T) := by
  refine Ground.does_wholeCall t (fun _ _ _ => rfl) fun w hw => ?_
  obtain rfl := hw.target
  refine ⟨_, ⟨?_, rfl⟩, hw.onTarget (EntryMap.live?_add_eq _ w.clock k x overwrite) ?_⟩
  · change ((w.maps.nth p.j).content.add w.clock k x overwrite).1 =
      !(!overwrite && ((w.maps.nth p.j).content.live? w.clock k).isSome)
    unfold EntryMap.add
    split <;> simp [*]
  · rintro (h : w.entries p.j = p.holds)
    exact Entries.adding_after_of_held overwrite (h ▸ hS)

theorem does_mapRemove {k : Key} (hS : p.holds k = none) (t : Token) (T : Entries V) :
    (p.mapGround stops).Does ((Backend.map p.j).remove k t) T
      ((Entries.removing k).Leads T) (· = T) := by
  refine Ground.does_wholeCall t (fun _ _ _ => rfl) fun w hw => ?_
  obtain rfl := hw.target
  refine ⟨_, ⟨rfl, rfl⟩, hw.onTarget (EntryMap.live?_erase_eq _ w.clock k) ?_⟩
  rintro (h : w.entries p.j = p.holds)
  exact Entries.set_of_same (h ▸ hS)

theorem does_mapSourceKeys (t : Token) (T : Entries V) :
    (p.mapGround stops).Does ((Backend.map p.i).keys t) T
      (fun l T' => (p.mapGround stops).Lists p.holds l ∧ T' = T) (· = T) := by
  refine Ground.does_call t (fun w hw => ?_) ?_
  · refine ⟨T, ⟨?_, rfl⟩, hw.onSource rfl⟩
    rw [← hw.source]
    exact lists_full (w.arrangement.keys_perm _)
  · rintro n cause l _ T' hcause ⟨hl, rfl⟩ ⟨⟩
    exact ⟨lists_failAfter hl n hcause, rfl⟩

theorem does_mapTargetKeys (t : Token) (T : Entries V) :
    (p.mapGround stops).Does ((Backend.map p.j).keys t) T
      (fun l T' => (p.mapGround stops).Lists T l ∧ T' = T) (· = T) := by
  refine Ground.does_call t (fun w hw => ?_) ?_
  · obtain rfl := hw.target
    exact ⟨_, ⟨lists_full (w.arrangement.keys_perm _), rfl⟩, hw.onTarget rfl fun _ => rfl⟩
  · rintro n cause l _ T' hcause ⟨hl, rfl⟩ ⟨⟩
    exact ⟨lists_failAfter hl n hcause, rfl⟩

/-- Two base maps, the one to be brought to the other. -/
def mapCrossing (p : Facing V) (stops : Stops V) : Crossing V V V p.holds where
  toGround := p.mapGround stops
  source := Backend.map p.i
  target := Backend.map p.j
  Stands _ x y := x = y
  does_get := does_mapGet
  does_add hS hstands := by
    subst hstands
    exact does_mapAdd hS
  does_remove := does_mapRemove
  does_sourceKeys := does_mapSourceKeys
  does_targetKeys := does_mapTargetKeys

theorem ready_mapCrossing {s : Strategy} (h : s.allows p.sourceGrants p.targetGrants = true) :
    (p.mapCrossing stops).Ready s :=
  Crossing.ready_of_allows
    (fun hkeys role _ => does_requireKeys rfl (fun _ hw => hw.sourceGrants ▸ hkeys) role)
    (fun hkeys role _ => does_requireKeys rfl (fun _ hw => hw.targetGrants ▸ hkeys) role) h

end Facing

/-! ## Base maps of sets -/

namespace Facing

variable {p : Facing MemberSet} {T : Entries MemberSet} {w : World V}

/-- The ground of two base maps of sets. -/
def setMapGround (p : Facing MemberSet) (stops : Stops V) :
    Ground V (Entries MemberSet) where
  stops := stops
  At := p.At .setMap World.memberSets
  at_visit _ hw := by exact hw.becomes rfl hw.target rfl
  at_congr h _ hw := by
    have hheld := h
    simp only [World.stores, Prod.mk.injEq] at hheld
    refine hw.becomes ?_ ?_ (World.around_congr h)
    · simp [World.memberSets, hheld]
    · simp [World.memberSets, hheld, ← hw.target]

theorem At.onSourceSets (hw : p.At .setMap World.memberSets T w) {op : SetMapOp}
    (hsame : (op.apply w.arrangement w.clock w.date (w.setMaps.nth p.i).content).2.live? w.clock =
      w.memberSets p.i) : p.At .setMap World.memberSets T (w.perform (.setMap p.i op)).2 :=
  hw.becomes (World.memberSets_perform_of_same hsame _)
    ((World.memberSets_perform_of_same hsame _).trans hw.target) (funext (w.around_perform _))

theorem At.onTargetSets (hw : p.At .setMap World.memberSets T w) {op : SetMapOp}
    {T' : Entries MemberSet}
    (hT' : (op.apply w.arrangement w.clock w.date (w.setMaps.nth p.j).content).2.live? w.clock = T')
    (hself : T = p.holds → T' = T) :
    p.At .setMap World.memberSets T' (w.perform (.setMap p.j op)).2 := by
  refine hw.becomes ?_ ((World.memberSets_perform_self op).trans hT') (funext (w.around_perform _))
  by_cases h : p.i = p.j
  · rw [h, World.memberSets_perform_self, hT', hself (hw.eq_of_one h), hw.target]
  · exact World.memberSets_perform_of_ne op (Ne.symm h)

variable {stops : Stops V}

/-- The set under a key is handed out by reference. -/
theorem does_setMapGet (k : Key) (t : Token) (T : Entries MemberSet) :
    (p.setMapGround stops).Does ((Backend.setMap p.i).get k t) T
      (fun b T' => (Entries.fetching k fun _ value => value = Backend.setUnder p.i k).answers
        p.holds b ∧ T' = T) (· = T) := by
  have hseek : (p.setMapGround stops).Does (Backend.onSetMap p.i (.get k) t) T
      (fun found T' => found = (p.holds k).isSome ∧ T' = T) (· = T) := by
    refine Ground.does_wholeCall t (fun _ _ _ => rfl) fun w hw => ?_
    refine ⟨T, ⟨?_, rfl⟩, hw.onSourceSets (EntryMap.live?_evict_eq _ _ k)⟩
    rw [← hw.source]
    rfl
  change Ground.Does _ ((do
    if ← Backend.onSetMap p.i (.get k) t then return some Route.direct else return none) >>=
      fun route => pure (route.map fun _ => Backend.setUnder p.i k)) _ _ _
  rw [bind_assoc]
  refine hseek.bind fun found T' h => ?_
  obtain ⟨rfl, rfl⟩ := h
  cases hx : p.holds k with
  | none => exact Ground.does_pure ⟨.inl ⟨hx, rfl⟩, rfl⟩
  | some x => exact Ground.does_pure ⟨.inr ⟨x, _, hx, rfl, rfl⟩, rfl⟩

theorem does_setMapRemove {k : Key} (hS : p.holds k = none) (t : Token) (T : Entries MemberSet) :
    (p.setMapGround stops).Does ((Backend.setMap p.j).remove k t) T
      ((Entries.removing k).Leads T) (· = T) := by
  refine Ground.does_wholeCall t (fun _ _ _ => rfl) fun w hw => ?_
  obtain rfl := hw.target
  refine ⟨_, ⟨rfl, rfl⟩, hw.onTargetSets (EntryMap.live?_erase_eq _ w.clock k) ?_⟩
  rintro (h : w.memberSets p.j = p.holds)
  exact Entries.set_of_same (h ▸ hS)

theorem does_setMapSourceKeys (t : Token) (T : Entries MemberSet) :
    (p.setMapGround stops).Does ((Backend.setMap p.i).keys t) T
      (fun l T' => (p.setMapGround stops).Lists p.holds l ∧ T' = T) (· = T) := by
  refine Ground.does_call t (fun w hw => ?_) ?_
  · refine ⟨T, ⟨?_, rfl⟩, hw.onSourceSets rfl⟩
    rw [← hw.source]
    exact lists_full (w.arrangement.keys_perm _)
  · rintro n cause l _ T' hcause ⟨hl, rfl⟩ ⟨⟩
    exact ⟨lists_failAfter hl n hcause, rfl⟩

theorem does_setMapTargetKeys (t : Token) (T : Entries MemberSet) :
    (p.setMapGround stops).Does ((Backend.setMap p.j).keys t) T
      (fun l T' => (p.setMapGround stops).Lists T l ∧ T' = T) (· = T) := by
  refine Ground.does_call t (fun w hw => ?_) ?_
  · obtain rfl := hw.target
    exact ⟨_, ⟨lists_full (w.arrangement.keys_perm _), rfl⟩, hw.onTargetSets rfl fun _ => rfl⟩
  · rintro n cause l _ T' hcause ⟨hl, rfl⟩ ⟨⟩
    exact ⟨lists_failAfter hl n hcause, rfl⟩

/-- Collecting the set under a key of the source gives its members, and leaves the target. -/
theorem does_collectUnder {k : Key} {members : MemberSet} (hk : p.holds k = some members)
    (t : Token) (T : Entries MemberSet) :
    (p.setMapGround stops).Does ((Backend.setUnder p.i k).collect t) T
      (fun xs T' => (∀ x, x ∈ xs ↔ x ∈ members) ∧ T' = T) (· = T) := by
  have hlisted : (p.setMapGround stops).Does ((Backend.setUnder p.i k).members t) T
      (fun l T' => ((l.failure = none → ∀ x, x ∈ l.items ↔ x ∈ members) ∧
        ∀ e, l.failure = some e → (p.setMapGround stops).Halts (.failed e)) ∧ T' = T)
      (· = T) := by
    refine Ground.does_call t (fun w hw => ⟨T, ⟨⟨?_, nofun⟩, rfl⟩,
      hw.onSourceSets (EntryMap.live?_evict_eq _ _ k)⟩) ?_
    · intro _ x
      have hmembers : (w.setMaps.nth p.i).content.liveMembers w.clock k = members := by
        change (w.memberSets p.i k).getD ∅ = members
        rw [hw.source, hk]
        rfl
      rw [← hmembers, ← Std.ExtTreeSet.mem_toList]
      exact (w.arrangement.members_perm _).mem_iff
    · rintro n cause l _ T' hcause ⟨-, rfl⟩ ⟨⟩
      refine ⟨⟨nofun, ?_⟩, rfl⟩
      rintro _ ⟨⟩
      exact hcause
  refine hlisted.bind fun l T' h => ?_
  obtain ⟨⟨hwhole, hbroken⟩, rfl⟩ := h
  exact Ground.does_collect (fun e he => ⟨hbroken e he, rfl⟩) fun hl => ⟨hwhole hl, rfl⟩

/-- A set of the source that is not empty is stored under its key. -/
theorem does_storeSet {k : Key} {xs : List String} {members : MemberSet}
    (hk : p.holds k = some members) (hxs : ∀ x, x ∈ xs ↔ x ∈ members)
    (hoccupied : members.isEmpty = false) (T : Entries MemberSet)
    {left : Entries MemberSet → Prop} :
    (p.setMapGround stops).Does (Action.ask (.storeSet p.j k xs)) T
      (fun _ T' => T' = T.set k (some members)) left := by
  refine Ground.does_ask fun w hw => ⟨_, rfl, ?_⟩
  obtain rfl := hw.target
  have hstored : (w.storeSet p.j k xs).memberSets p.j =
      (w.memberSets p.j).set k (some members) := by
    rw [World.memberSets_storeSet_self, SetMapPair.ofList_eq hxs]
    unfold MemberMap.store
    rw [hoccupied]
    exact funext fun k' => EntryMap.live?_put _ w.clock k k' members
  refine hw.becomes ?_ hstored (funext (w.around_storeSet p.j k xs))
  change (w.storeSet p.j k xs).memberSets p.i = _
  by_cases h : p.i = p.j
  · rw [h, hstored, Entries.set_of_same (hw.eq_of_one h ▸ hk)]
  · exact World.memberSets_storeSet_of_ne k xs (Ne.symm h)

theorem does_setMapAdd {k : Key} {members : MemberSet} (hk : p.holds k = some members)
    (hoccupied : members.isEmpty = false) (overwrite : Bool) (t : Token) (T : Entries MemberSet) :
    (p.setMapGround stops).Does
      ((Backend.setMap p.j).add k (Backend.setUnder p.i k) overwrite t) T
      ((Entries.adding k members overwrite).Leads T) (· = T) := by
  have hvet : (p.setMapGround stops).Does (Backend.onSetMap p.j (.add k overwrite) t) T
      (fun accepted T' => accepted = (overwrite || !(T k).isSome) ∧ T' = T) (· = T) := by
    refine Ground.does_wholeCall t (fun _ _ _ => rfl) fun w hw => ?_
    obtain rfl := hw.target
    refine ⟨_, ⟨rfl, rfl⟩, hw.onTargetSets ?_ fun _ => rfl⟩
    cases overwrite
    · exact EntryMap.live?_evict_eq _ _ k
    · rfl
  refine hvet.bind fun accepted T' h => ?_
  obtain ⟨rfl, rfl⟩ := h
  have hkept : (!overwrite && (T' k).isSome) = !(overwrite || !(T' k).isSome) := by
    rw [Bool.not_or, Bool.not_not]
  cases hfree : overwrite || !(T' k).isSome with
  | false =>
    rw [hfree] at hkept
    exact Ground.does_pure ⟨congrArg (!·) hkept.symm, (if_pos hkept).symm⟩
  | true =>
    rw [hfree] at hkept
    refine (does_collectUnder hk t T').bind fun xs T'' h => ?_
    obtain ⟨hxs, rfl⟩ := h
    refine (does_storeSet hk hxs hoccupied _).bind fun _ T' h => ?_
    subst h
    refine Ground.does_pure ⟨congrArg (!·) hkept.symm, (if_neg ?_).symm⟩
    simp [hkept]

/-- Two base maps of sets, the one to be brought to the other. -/
def setMapCrossing (p : Facing MemberSet) (stops : Stops V)
    (hoccupied : ∀ k members, p.holds k = some members → members.isEmpty = false) :
    Crossing V MemberSet (SetStore V) p.holds where
  toGround := p.setMapGround stops
  source := (Backend.setMap p.i).toKeyedStore
  target := (Backend.setMap p.j).toKeyedStore
  Stands k _ value := value = Backend.setUnder p.i k
  does_get := does_setMapGet
  does_add hk hstands := by
    subst hstands
    exact does_setMapAdd hk (hoccupied _ _ hk)
  does_remove := does_setMapRemove
  does_sourceKeys := does_setMapSourceKeys
  does_targetKeys := does_setMapTargetKeys

theorem ready_setMapCrossing
    {hoccupied : ∀ k members, p.holds k = some members → members.isEmpty = false} {s : Strategy}
    (h : s.allows p.sourceGrants p.targetGrants = true) :
    (p.setMapCrossing stops hoccupied).Ready s :=
  Crossing.ready_of_allows
    (fun hkeys role _ => does_requireKeys rfl (fun _ hw => hw.sourceGrants ▸ hkeys) role)
    (fun hkeys role _ => does_requireKeys rfl (fun _ hw => hw.targetGrants ▸ hkeys) role) h

end Facing

end TwinStore
