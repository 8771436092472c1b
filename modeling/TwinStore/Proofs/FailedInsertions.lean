import TwinStore.Proofs.ScopeRetries

/-!
# Insertions that fail

To insert into a recording map, or to add a member to a set that a recording map of sets has handed
out, is to call the base store and then, if it accepts, to record the key, which takes two calls to
the members of the scope (`ScopedInsert.on_eq`). Nothing is undone when one of these fails: the
record is written after the base store, and an insertion has recorded its key only when it succeeds.

So an insertion fails in one of three ways (`ScopedInsert.act_on_error`). If its key cannot be
written, or the base store does not carry it out, all is as it was. If it is accepted and then not
recorded, what it has inserted is there, though nothing else has changed
(`failed_insertion_leaves_own_key`); and unless the key had been recorded before, no clear finds it
(`failed_insertion_left_unrecorded`).
-/

namespace TwinStore

variable {V α : Type}

/-! ## What is there after an insertion -/

namespace EntryMap

variable {m : EntryMap α} {now : Nat} {k k' : Key}

theorem current?_insert_of_ne (slot : Slot α) (hk : k ≠ k') :
    current? ⟨m.slots.insert k slot⟩ now k' = m.current? now k' := by
  simp [current?, Std.ExtTreeMap.getElem?_insert, hk]

theorem current?_add_of_ne (v : α) (overwrite : Bool) (hk : k ≠ k') :
    (m.add now k v overwrite).2.current? now k' = m.current? now k' := by
  unfold add
  split
  · rfl
  · exact current?_insert_of_ne _ hk

end EntryMap

namespace MemberMap

variable {m : MemberMap} {now : Nat} {k k' : Key}

theorem current?_store_of_ne (members : MemberSet) (hk : k ≠ k') :
    (m.store k members).current? now k' = m.current? now k' := by
  unfold store
  split
  · rw [EntryMap.current?_erase, if_neg hk]
  · exact EntryMap.current?_insert_of_ne _ hk

theorem current?_addMember_of_ne (x : String) (hk : k ≠ k') :
    (m.addMember now k x).current? now k' = m.current? now k' := by
  unfold addMember
  split
  · split
    · exact EntryMap.current?_insert_of_ne _ hk
    · exact EntryMap.current?_insert_of_ne _ hk
  · exact EntryMap.current?_insert_of_ne _ hk

end MemberMap

namespace Holdings

variable {h h' h'' : Holdings V} {v : Vault} {k : Key} {i : Nat} {stops : Stops V} {t : Token}

/-- Nothing has changed but what there is under one key. -/
structure Touches (v : Vault) (k : Key) (h h' : Holdings V) : Prop where
  now : h'.now = h.now
  kept : ∀ v' k', (v', k') ≠ (v, k) → h'.at? v' k' = h.at? v' k'

theorem Same.touches (hsame : h.Same h') (v : Vault) (k : Key) : h.Touches v k h' :=
  ⟨hsame.now, fun v' k' _ => hsame.at? v' k'⟩

theorem Same.trans (hsame : h.Same h') (hsame' : h'.Same h'') : h.Same h'' :=
  ⟨hsame'.now.trans hsame.now, fun v k => (hsame'.at? v k).trans (hsame.at? v k)⟩

theorem members_put_self (h : Holdings V) (m : MemberMap) :
    (h.put (.sets i) m).members i k = m.liveMembers h.now k :=
  congrArg (MemberMap.liveMembers · h.now k) (Function.update_self ..)

theorem Same.of_put_self (h : Holdings V) (v : Vault) : h.Same (h.put v (h.content v)) := by
  unfold put
  rw [Function.update_eq_self]
  exact .refl h

theorem Same.then_touches (hsame : h.Same h') (htouches : h'.Touches v k h'') :
    h.Touches v k h'' :=
  ⟨htouches.now.trans hsame.now,
    fun v' k' hne => (htouches.kept v' k' hne).trans (hsame.at? v' k')⟩

theorem Touches.of_put {m : EntryMap (v.Item V)}
    (hm : ∀ k', k ≠ k' → m.current? h.now k' = (h.content v).current? h.now k') :
    h.Touches v k (h.put v m) where
  now := rfl
  kept v' k' hne := by
    by_cases hv : v' = v
    · subst hv
      rw [at?_put_self]
      exact hm k' fun hk => hne (by rw [hk])
    · exact h.at?_put_of_ne m hv

/-- An entry is added, unless the call stops the program. -/
theorem does_addEntry (k : Key) (x : V) (overwrite : Bool) :
    (ground stops).Does (Backend.onMap i (.add k x overwrite) t) h
      (fun _ h' => h.Touches (.map i) k h') h.Same := by
  have hcall : (ground stops).Does (Backend.onMap i (.add k x overwrite) t) h
      (fun _ h' => h.Touches (.map i) k h') (· = h) := by
    refine Ground.does_wholeCall t (fun _ _ _ => rfl) ?_
    rintro w rfl
    refine ⟨_, .of_put fun k' hk => ?_, holdings_perform_map w _⟩
    exact EntryMap.current?_add_of_ne x overwrite hk
  exact hcall.leaving fun h' hh' => hh' ▸ .refl h

/-- A member is added, unless the call stops the program. -/
theorem does_addMember (k : Key) (x : String) :
    (ground stops).Does (Backend.onSetMap i (.member k (.add x)) t) h
      (fun _ h' => h' = h.put (.sets i) (MemberMap.addMember (h.content (.sets i)) h.now k x))
      (· = h) := by
  refine Ground.does_wholeCall t (fun _ _ _ => rfl) ?_
  rintro w rfl
  exact ⟨_, rfl, holdings_perform_setMap w _⟩

theorem touches_addMember (h : Holdings V) (k : Key) (x : String) :
    h.Touches (.sets i) k
      (h.put (.sets i) (MemberMap.addMember (h.content (.sets i)) h.now k x)) :=
  .of_put fun _ hk => MemberMap.current?_addMember_of_ne x hk

end Holdings

/-- To list a set to its end changes nothing that is there. -/
def SetStore.Unobtrusive (value : SetStore V) : Prop :=
  ∀ (stops : Stops V) (t : Token) (h : Holdings V),
    (Holdings.ground stops).Does (value.collect t) h (fun _ h' => h.Same h') h.Same

theorem SetStore.unobtrusive_ofMembers (members : MemberSet) :
    (SetStore.ofMembers members : SetStore V).Unobtrusive :=
  fun _ _ h => Ground.does_pure (.refl h)

namespace Holdings

variable {h : Holdings V} {k : Key} {i : Nat} {stops : Stops V} {t : Token}

/-- A whole set is stored, unless a call stops the program before that. -/
theorem does_addSet {value : SetStore V} (hvalue : value.Unobtrusive) (k : Key)
    (overwrite : Bool) :
    (ground stops).Does (Backend.addSet i k value overwrite t) h
      (fun _ h' => h.Touches (.sets i) k h') h.Same := by
  have hvet : (ground stops).Does (Backend.onSetMap i (.add k overwrite) t) h
      (fun _ h' => h.Same h') h.Same := by
    refine (Ground.does_wholeCall t (fun _ _ _ => rfl) ?_).leaving fun h' hh' => hh' ▸ .refl h
    rintro w rfl
    refine ⟨_, ?_, holdings_perform_setMap w _⟩
    cases overwrite with
    | true => exact .of_put_self w.holdings (.sets i)
    | false => exact .of_evict w.holdings (.sets i) k
  refine hvet.bind fun accepted h₁ hsame => ?_
  cases accepted with
  | false => exact Ground.does_pure (hsame.touches _ _)
  | true =>
    refine ((hvalue stops t h₁).leaving fun h' => hsame.trans).bind fun xs h₂ hsame' => ?_
    have hstored : (ground stops).Does (Action.ask (.storeSet i k xs)) h₂
        (fun _ h' => h₂.Touches (.sets i) k h') h.Same := by
      refine Ground.does_ask ?_
      rintro w rfl
      exact ⟨_, .of_put fun k' hk => MemberMap.current?_store_of_ne _ hk, holdings_putSets w _⟩
    refine hstored.bind fun _ h₃ htouches => Ground.does_pure ?_
    exact (hsame.trans hsame').then_touches htouches

end Holdings

/-! ## Insertions -/

/-- The scope with a registered map: what that map needs to record its keys. -/
def ScopeRoll.enrolment (R : ScopeRoll) (V : Type) (e : Registered) : Enrolment V where
  scope := R.scope V
  mapId := e.mapId
  serializer := e.serializer

/-- A recording map of sets has answered with this set when it was asked for the one under a key,
at some time, whether or not calls failed. -/
def Enrolment.HandsOut (E : Enrolment V) (i : Nat) (k : Key) (set : SetStore V) : Prop :=
  ∃ (stops : Stops V) (t : Token) (w : World V),
    (stops.regime.act w ((E.setMap (Backend.setMap i)).reach k t)).1 = .ok set ∨
      (stops.regime.act w ((E.setMap (Backend.setMap i)).get k t)).1 = .ok (some set)

/-- How something comes to be under a key of a recording map or map of sets. -/
inductive ScopedInsert (V : Type) : Vault → Type where
  | entry {i : Nat} (x : V) (overwrite : Bool) : ScopedInsert V (.map i)
  | whole {i : Nat} (value : SetStore V) (overwrite : Bool) : ScopedInsert V (.sets i)
  /-- A member is added to a set that was handed out. -/
  | member {i : Nat} (set : SetStore V) (x : String) : ScopedInsert V (.sets i)

namespace ScopedInsert

variable {v : Vault} {E : Enrolment V} {k : Key} {t : Token}

/-- The insertion, recorded in the scope; the answer says whether it was accepted. -/
def on (E : Enrolment V) (k : Key) (t : Token) : ScopedInsert V v → Action V Bool
  | entry (i := i) x overwrite => (E.map (Backend.map i)).add k x overwrite t
  | whole (i := i) value overwrite => (E.setMap (Backend.setMap i)).add k value overwrite t
  | member set x => do
    set.add x t
    return true

/-- The insertion into the base store alone. -/
def within (k : Key) (t : Token) : ScopedInsert V v → Action V Bool
  | entry (i := i) x overwrite => (Backend.map i).add k x overwrite t
  | whole (i := i) value overwrite => (Backend.setMap i).add k value overwrite t
  | member (i := i) _ x => do
    (Backend.setUnder i k).add x t
    return true

/-- The base store accepts the insertion, and then it cannot be recorded. -/
def RecordingFails (a : ScopedInsert V v) (E : Enrolment V) (k : Key) (t : Token) (g : Regime V)
    (w : World V) (halt : Halt) (w' : World V) : Prop :=
  ∃ raw w₁, E.serializer.encode k = .ok raw ∧ g.act w (a.within k t) = (.ok true, w₁) ∧
    g.act w₁ (E.scope.addKey E.mapId raw t) = (.error halt, w')

/-- To read the set that is stored changes nothing, and the set that gets a member was handed
out. -/
def Sound (E : Enrolment V) (k : Key) : ScopedInsert V v → Prop
  | entry _ _ => True
  | whole value _ => value.Unobtrusive
  | member (i := i) set _ => E.HandsOut i k set

end ScopedInsert

/-- What is handed out records its key, and that can be written. -/
theorem Enrolment.HandsOut.eq_setUnder {E : Enrolment V} {i : Nat} {k : Key} {set : SetStore V}
    (h : E.HandsOut i k set) :
    set = E.setUnder k (Backend.setUnder i k) ∧ ∃ raw, E.serializer.encode k = .ok raw := by
  have hwritten {γ : Type} {g : Regime V} {w w' : World V} {a : Action V γ} {y : γ}
      (hact : g.act w (E.raw k >>= fun _ => a) = (.ok y, w')) :
      ∃ raw, E.serializer.encode k = .ok raw := by
    obtain ⟨raw, _, hraw, -⟩ := Regime.act_bind_ok hact
    cases hencode : E.serializer.encode k with
    | ok raw => exact ⟨raw, rfl⟩
    | error cause =>
      unfold Enrolment.raw at hraw
      rw [hencode] at hraw
      cases hraw
  obtain ⟨stops, t, w, hreach | hget⟩ := h
  · obtain ⟨route, _, hroute, hset⟩ := Regime.act_bind_ok (Prod.ext hreach rfl)
    cases hset
    exact ⟨rfl, hwritten hroute⟩
  · refine ⟨?_, hwritten (Prod.ext hget rfl)⟩
    obtain ⟨_, _, -, hfound⟩ := Regime.act_bind_ok (Prod.ext hget rfl)
    obtain ⟨route, _, -, hset⟩ := Regime.act_bind_ok hfound
    cases route with
    | none => cases hset
    | some route =>
      cases hset
      rfl

theorem Enrolment.HandsOut.unobtrusive {E : Enrolment V} {i : Nat} {k : Key} {set : SetStore V}
    (h : E.HandsOut i k set) : set.Unobtrusive := by
  obtain ⟨rfl, -⟩ := h.eq_setUnder
  intro stops t h
  exact (Holdings.does_listMembers k).mono (fun _ _ hlisted => hlisted.2) fun _ hsame => hsame

namespace ScopedInsert

variable {v : Vault} {E : Enrolment V} {k : Key} {t : Token} (a : ScopedInsert V v)

/-- A key that cannot be written is refused. -/
theorem on_of_unwritten {cause : StoreError} (ha : a.Sound E k)
    (hraw : E.serializer.encode k = .error cause) : a.on E k t = Action.fail cause := by
  have hrefused : E.raw k = Action.fail cause := congrArg Action.ofExcept hraw
  cases a with
  | entry | whole =>
    change (E.raw k >>= _) = _
    rw [hrefused]
    rfl
  | member set x =>
    obtain ⟨-, raw, hwritten⟩ := ha.eq_setUnder
    cases hraw.symm.trans hwritten

/-- The insertion is carried out, and then, if it was accepted, recorded. -/
theorem on_eq {raw : String} (ha : a.Sound E k) (hraw : E.serializer.encode k = .ok raw) :
    a.on E k t = do
      let accepted ← a.within k t
      if accepted then E.scope.addKey E.mapId raw t
      return accepted := by
  have hwritten : E.raw k = pure raw := congrArg Action.ofExcept hraw
  cases a with
  | entry | whole =>
    change (E.raw k >>= _) = _
    rw [hwritten, pure_bind]
    rfl
  | member set x =>
    obtain ⟨rfl, -⟩ := ha.eq_setUnder
    unfold on within Enrolment.setUnder
    simp [hwritten]

open Holdings in
/-- What is inserted is under the key, and nothing else changes; if a call stops the insertion,
nothing changes. -/
theorem does_within {stops : Stops V} {h : Holdings V} (ha : a.Sound E k) :
    (ground stops).Does (a.within k t) h (fun _ h' => h.Touches v k h') h.Same := by
  cases a with
  | entry x overwrite => exact does_addEntry k x overwrite
  | whole value overwrite => exact does_addSet ha k overwrite
  | member set x =>
    refine ((does_addMember k x).leaving fun h' hh' => hh' ▸ .refl h).bind ?_
    rintro _ _ rfl
    exact Ground.does_pure (touches_addMember h k x)

section Ends

variable {a} {g : Regime V} {w w' : World V}

/-- The insertion fails because its key cannot be written, because the base store does not carry it
out, or because it is accepted and cannot be recorded. -/
theorem act_on_error {halt : Halt} (ha : a.Sound E k)
    (hact : g.act w (a.on E k t) = (.error halt, w')) :
    w' = w ∨ g.act w (a.within k t) = (.error halt, w') ∨ a.RecordingFails E k t g w halt w' := by
  cases hraw : E.serializer.encode k with
  | error cause =>
    rw [a.on_of_unwritten ha hraw] at hact
    cases hact
    exact .inl rfl
  | ok raw =>
    rw [a.on_eq ha hraw] at hact
    rcases Regime.act_bind_error hact with hstopped | ⟨accepted, w₁, haccepted, hrest⟩
    · exact .inr (.inl hstopped)
    · cases accepted with
      | false => cases hrest
      | true =>
        rcases Regime.act_bind_error hrest with hfails | ⟨_, _, -, hreturn⟩
        · exact .inr (.inr ⟨raw, w₁, hraw, haccepted, hfails⟩)
        · cases hreturn

/-- The insertion succeeds because it is accepted and recorded. -/
theorem act_on_true (ha : a.Sound E k) (hact : g.act w (a.on E k t) = (.ok true, w')) :
    ∃ raw w₁, E.serializer.encode k = .ok raw ∧
      g.act w₁ (E.scope.addKey E.mapId raw t) = (.ok (), w') := by
  cases hraw : E.serializer.encode k with
  | error cause =>
    rw [a.on_of_unwritten ha hraw] at hact
    cases hact
  | ok raw =>
    rw [a.on_eq ha hraw] at hact
    obtain ⟨accepted, w₁, -, hrest⟩ := Regime.act_bind_ok hact
    cases accepted with
    | false => cases hrest
    | true =>
      obtain ⟨_, w₂, hrecorded, hreturn⟩ := Regime.act_bind_ok hrest
      cases hreturn
      exact ⟨raw, w₁, rfl, hrecorded⟩

end Ends

end ScopedInsert

namespace ScopeRoll

/-- A key of a registered map is in the record. -/
def Notes (R : ScopeRoll) (e : Registered) (h : Holdings V) (k : Key) : Prop :=
  ∃ raw, e.serializer.encode k = .ok raw ∧ Scope.member e.mapId raw ∈ R.record h

variable {R : ScopeRoll} {e : Registered} {h : Holdings V} {stops : Stops V} {t : Token}

/-- A key is recorded, unless a call stops the program before that. -/
theorem does_addKey (raw : String) :
    (Holdings.ground stops).Does ((R.scope V).addKey e.mapId raw t) h
      (fun _ h' => Scope.member e.mapId raw ∈ R.record h') (· = h) := by
  unfold Scope.addKey
  refine (Holdings.does_reach _).bind ?_
  rintro set h₀ ⟨rfl, rfl⟩
  refine (Holdings.does_addMember _ _).mono ?_ fun _ hleft => hleft
  rintro _ _ rfl
  unfold record
  have hself : (R.scope V).identifier = R.identifier := rfl
  rw [hself, Holdings.members_put_self, MemberMap.liveMembers_addMember, if_pos rfl]
  exact Members.mem_insert_iff.2 (.inl rfl)

end ScopeRoll

/-- **A failed insertion leaves nothing but its own key unrecorded.** An entry or a whole set is
inserted through a recording map, or a member is added to a set that one has handed out, and any
calls may fail or be cut short. If the insertion fails, then all that is not under its own key is as
it was; and if there is something under its own key that was not there before, then the base store
accepted the insertion, and it could not be recorded. If the insertion is accepted and does not
fail, its key is recorded. -/
theorem failed_insertion_leaves_own_key (R : ScopeRoll) (e : Registered)
    (a : ScopedInsert V e.vault) (k : Key) (ha : a.Sound (R.enrolment V e) k) (w : World V)
    (stops : Stops V) (t : Token) :
    let out := stops.regime.act w (a.on (R.enrolment V e) k t)
    (∀ halt, out.1 = .error halt → w.holdings.Touches e.vault k out.2.holdings ∧
      ((out.2.holdings.at? e.vault k).isSome → (w.holdings.at? e.vault k).isSome ∨
        a.RecordingFails (R.enrolment V e) k t stops.regime w halt out.2)) ∧
    (out.1 = .ok true → R.Notes e out.2.holdings k) := by
  intro out
  refine ⟨fun halt herror => ?_, fun hok => ?_⟩
  · rcases ScopedInsert.act_on_error ha (Prod.ext herror rfl) with hrefused | hstopped | hfails
    · have hkept : out.2 = w := hrefused
      rw [hkept]
      exact ⟨(Holdings.Same.refl _).touches _ _, .inl⟩
    · obtain ⟨-, _, hsame, hleft⟩ := (a.does_within ha).act_error rfl hstopped
      have hkept : w.holdings.Same out.2.holdings := hleft ▸ hsame
      refine ⟨hkept.touches _ _, fun hthere => .inl ?_⟩
      rwa [← hkept.at?]
    · have ⟨raw, w₁, _, haccepted, hrecording⟩ := hfails
      obtain ⟨_, htouches, rfl⟩ := (a.does_within ha).act_ok rfl haccepted
      obtain ⟨-, _, rfl, hleft⟩ := (ScopeRoll.does_addKey raw).act_error rfl hrecording
      have hkept : out.2.holdings = w₁.holdings := hleft
      exact ⟨hkept ▸ htouches, fun _ => .inr hfails⟩
  · obtain ⟨raw, w₁, hraw, hrecorded⟩ := ScopedInsert.act_on_true ha (Prod.ext hok rfl)
    obtain ⟨_, hnoted, rfl⟩ := (ScopeRoll.does_addKey raw).act_ok rfl hrecorded
    exact ⟨raw, hraw, hnoted⟩

/-- A member is added to a set that was handed out, that set is stored whole under another key, and
a set that nobody holds under a third. All three insertions are accepted, and all three fail, as the
members of the scope are down whenever a key is to be recorded. -/
theorem failed_insertion_leaves_own_key_of_sets :
    let R := ScopeRoll.sample
    let e : Registered :=
      { mapId := "tags", serializer := KeyCodec.serializer ⟨.plain, .text⟩, vault := .sets 1 }
    let E := R.enrolment Nat e
    let set : SetStore Nat := E.setUnder (.text "k") (Backend.setUnder 1 (.text "k"))
    let fill : ScopedInsert Nat e.vault := .member set "x"
    let copy : ScopedInsert Nat e.vault := .whole set false
    let store : ScopedInsert Nat e.vault := .whole (SetStore.ofMembers (.ofList ["y"])) true
    let offline : Stop := .failure { cause := .backend "offline" }
    let stops : Stops Nat := .hitting [(2, offline), (5, offline), (8, offline)]
    let filled := stops.regime.act {} (fill.on E (.text "k") none)
    let copied := stops.regime.act filled.2 (copy.on E (.text "l") none)
    let stored := stops.regime.act copied.2 (store.on E (.text "m") none)
    (∃ halt, filled.1 = .error halt ∧
      fill.RecordingFails E (.text "k") none stops.regime {} halt filled.2) ∧
    (∃ halt, copied.1 = .error halt ∧
      copy.RecordingFails E (.text "l") none stops.regime filled.2 halt copied.2) ∧
    ∃ halt, stored.1 = .error halt ∧
      copied.2.holdings.Touches e.vault (.text "m") stored.2.holdings ∧
      store.RecordingFails E (.text "m") none stops.regime copied.2 halt stored.2 := by
  intro R e E set fill copy store offline stops filled copied stored
  have hset : E.HandsOut 1 (.text "k") set := ⟨.never, none, {}, .inl rfl⟩
  have hfilled : filled.1.toOption = none ∧
      (filled.2.holdings.at? e.vault (.text "k")).isSome ∧
      ¬ (({} : World Nat).holdings.at? e.vault (.text "k")).isSome := by decide +kernel
  have hcopied : copied.1.toOption = none ∧
      (copied.2.holdings.at? e.vault (.text "l")).isSome ∧
      ¬ (filled.2.holdings.at? e.vault (.text "l")).isSome := by decide +kernel
  have hstored : stored.1.toOption = none ∧
      (stored.2.holdings.at? e.vault (.text "m")).isSome ∧
      ¬ (copied.2.holdings.at? e.vault (.text "m")).isSome := by decide +kernel
  refine ⟨?_, ?_, ?_⟩
  · obtain ⟨halt, herror⟩ := exists_error_of_toOption hfilled.1
    obtain ⟨-, hown⟩ := (failed_insertion_leaves_own_key R e fill (.text "k") hset
      {} stops none).1 halt herror
    exact ⟨halt, herror, (hown hfilled.2.1).resolve_left hfilled.2.2⟩
  · obtain ⟨halt, herror⟩ := exists_error_of_toOption hcopied.1
    obtain ⟨-, hown⟩ := (failed_insertion_leaves_own_key R e copy (.text "l") hset.unobtrusive
      filled.2 stops none).1 halt herror
    exact ⟨halt, herror, (hown hcopied.2.1).resolve_left hcopied.2.2⟩
  · obtain ⟨halt, herror⟩ := exists_error_of_toOption hstored.1
    obtain ⟨htouches, hown⟩ := (failed_insertion_leaves_own_key R e store (.text "m")
      (SetStore.unobtrusive_ofMembers _) copied.2 stops none).1 halt herror
    exact ⟨halt, herror, htouches, (hown hstored.2.1).resolve_left hstored.2.2⟩

/-- **A failed insertion may leave a key that no clear removes.** The members are down when the key
is to be recorded: the insertion fails, the key is there, nothing in the record leads to it, and
when the members are back the scope is cleared without it. -/
theorem failed_insertion_left_unrecorded :
    let R := ScopeRoll.sample
    let e : Registered :=
      { mapId := "users", serializer := KeyCodec.serializer ⟨.plain, .natural⟩, vault := .map 0 }
    let add : ScopedInsert Nat e.vault := .entry 10 false
    let stops : Stops Nat := .hitting [(2, .failure { cause := .backend "offline" })]
    let w : World Nat := {}
    let out := stops.regime.act w (add.on (R.enrolment Nat e) (.number 1) none)
    let cleared := Stops.never.regime.act out.2 ((R.scope Nat).clear (R.participants Nat) none)
    out.1.toOption = none ∧ (w.holdings.at? e.vault (.number 1)).isSome = false ∧
      (out.2.holdings.at? e.vault (.number 1)).isSome ∧
      ¬ R.Records out.2.holdings e.vault (.number 1) ∧
      cleared.1.toOption = some 0 ∧ (cleared.2.holdings.at? e.vault (.number 1)).isSome := by
  intro R e add stops w out cleared
  have hrecord : (R.record out.2.holdings).toList = [] := by decide +kernel
  refine ⟨by decide +kernel, by decide +kernel, by decide +kernel, ?_, by decide +kernel,
    by decide +kernel⟩
  rintro ⟨text, hmem, -⟩
  have hlisted : text ∈ (R.record out.2.holdings).toList := Std.ExtTreeSet.mem_toList.2 hmem
  rw [hrecord] at hlisted
  cases hlisted

end TwinStore
