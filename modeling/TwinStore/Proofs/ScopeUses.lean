import TwinStore.Proofs.Scopes

/-!
# Uses of a scope's maps and maps of sets

The maps and the maps of sets of a scope are used through their decorators or behind their backs,
and so are the sets that the maps of sets have handed out. Whatever is asked, what it leaves is a
`ScopeLayout.Step`: a call to the base store, and the key recorded or forgotten by the decorator.
This is said once of what all decorators do (`ScopeLayout.wp_keyedAdd`,
`ScopeLayout.wp_keyedRemove`, `ScopeLayout.wp_keyedKeys`), and then of maps
(`ScopeLayout.wp_direct`, `ScopeLayout.wp_decorated`) and of maps of sets (`ScopeLayout.wp_sets`). A
set that was handed out records its key whenever a member is added (`ScopeLayout.ends_member`).
-/

namespace TwinStore

variable {V α : Type}

/-! ## Uses -/

namespace MapOp

/-- Carry out an operation on a map. -/
def on (m : MapStore V) (t : Token) : (op : MapOp V) → Action V op.Answer
  | .add k v overwrite => m.add k v overwrite t
  | .get k => m.get k t
  | .remove k => m.remove k t
  | .contains k => m.contains k t
  | .keys => m.keys t
  | .expire k ttl => m.expire k ttl t
  | .expireAt k instant => m.expireAt k instant t

theorem on_base (i : Nat) (t : Token) (op : MapOp V) :
    op.on (Backend.map i) t = Backend.onMap i op t := by
  cases op <;> rfl

end MapOp

/-- An operation adds a member. -/
def SetOp.adds : SetOp → Bool
  | .add _ => true
  | _ => false

/-- What is done to a set does not fill it, unless a member is added. -/
theorem SetOp.isEmpty_apply {op : SetOp} (hop : op.adds = false) (order : Arrangement)
    {c : MemberSet} (h : (op.apply order c).2.isEmpty = false) : c.isEmpty = false := by
  by_contra hc
  rw [Bool.not_eq_false, Std.ExtTreeSet.isEmpty_iff] at hc
  subst hc
  cases op with
  | add x => cases hop
  | remove x =>
    change (Std.ExtTreeSet.erase ∅ x).isEmpty = false at h
    simp at h
  | members | contains | count => simp [SetOp.apply] at h

/-- The key that a use is about, and the map that it asks. -/
def SetUse.key? {ι : Type} : SetUse ι → Option (ι × Key)
  | .add i k _ _ | .remove i k | .contains i k | .find i k | .reach i k => some (i, k)
  | .expire i k _ | .expireAt i k _ => some (i, k)
  | .keys _ | .member _ _ => none

/-- The key that a use inserts, or adds a member under, and the map it does so in, given what it
answers. -/
def SetUse.inserted {ι : Type} (lent : List (Lent ι)) :
    (use : SetUse ι) → use.Answer → Option (ι × Key)
  | .add i k _ _, true => some (i, k)
  | .member place op, _ => if op.adds then lent[place]?.map fun l => (l.map, l.key) else none
  | _, _ => none

namespace ScopeLayout

variable {n m : Nat} {L : ScopeLayout n m} {q : Place n m} {k : Key} {s s' : Stand V}

/-! ## Decorated stores -/

/-- A key that cannot be written is refused before anything is asked. -/
theorem wp_raw {β : Type} {g : Regime V} {e : Enrolment V} {f : String → Action V β}
    {post : Except Halt β → World V → Prop} {w : World V} :
    (e.raw k >>= f).wp g post w ↔ match e.serializer.encode k with
      | .ok raw => (f raw).wp g post w
      | .error cause => post (.error (.failed cause)) w := by
  unfold Enrolment.raw
  rw [Action.wp_bind, Action.wp_ofExcept]
  cases e.serializer.encode k <;> rfl

section Keyed

variable {faults : Faults V} {t : Token} {w : World V} {inner : KeyedStore V α}

/-- A call after which nothing has grown is a step that inserts nothing. -/
theorem wp_reading {β : Type} {a : Action V β}
    (h : a.ends faults.regime (fun _ s' => L.Grows none w.stand s') w.stand) :
    a.wp faults.regime (fun _ w' => L.Step none w.stand w'.stand) w :=
  Action.wp_of_ends (P := fun _ s' => L.Step none w.stand s')
    (Action.ends_mono h fun _ _ h => h.step)

section Record

variable (hmembers : faults.Spares (.setMap L.members))
include hmembers

/-- What has been added through a decorator is recorded. -/
theorem wp_keyedAdd {v : α} {overwrite : Bool} (hk : (L.recorder q).keys k)
    (hinner : (inner.add k v overwrite t).ends faults.regime (fun added s' =>
      L.Grows (if added then some (q, k) else none) w.stand s') w.stand) :
    (((L.enrolment V q).keyed inner).add k v overwrite t).wp faults.regime (fun r w' =>
      L.Step (r.toOption.bind fun added => if added then some (true, q, k) else none)
        w.stand w'.stand) w := by
  change Action.wp _ ((L.enrolment V q).raw k >>= fun raw => inner.add k v overwrite t >>=
    fun added => _) _ w
  rw [wp_raw]
  cases hraw : (L.enrolment V q).serializer.encode k with
  | error cause => exact .refl w.stand
  | ok raw =>
    refine Action.wp_of_ends (P := fun r s' => L.Step (r.toOption.bind fun (added : Bool) =>
      if added then some (true, q, k) else none) w.stand s')
      (Action.ends_bind (Action.ends_mono hinner ?_))
    intro added s' hgrows
    cases added with
    | false => exact Action.ends_pure hgrows.step
    | true =>
      refine Action.ends_bind (Action.ends_mono (ends_addKey hmembers _ raw) fun _ _ hnotes => ?_)
      exact Action.ends_pure (.of_insert hgrows ⟨hk, raw, hraw, rfl⟩ hnotes)

/-- What has been removed through a decorator is forgotten. -/
theorem wp_keyedRemove (hk : (L.recorder q).keys k)
    (hinner : (inner.remove k t).ends faults.regime (fun _ s' =>
      L.Grows none w.stand s' ∧ L.there s' q k = false) w.stand) :
    (((L.enrolment V q).keyed inner).remove k t).wp faults.regime (fun _ w' =>
      L.Step none w.stand w'.stand) w := by
  change Action.wp _ ((L.enrolment V q).raw k >>= fun raw => inner.remove k t >>=
    fun removed => _) _ w
  rw [wp_raw]
  cases hraw : (L.enrolment V q).serializer.encode k with
  | error cause => exact .refl w.stand
  | ok raw =>
    refine Action.wp_of_ends (P := fun _ s' => L.Step none w.stand s')
      (Action.ends_bind (Action.ends_mono hinner ?_))
    rintro removed s' ⟨hgrows, hgone⟩
    cases removed with
    | false => exact Action.ends_pure hgrows.step
    | true =>
      refine Action.ends_bind
        (Action.ends_mono (ends_removeKey hmembers _ raw) fun _ _ hnotes => ?_)
      exact Action.ends_pure (.of_removal hgrows hgone ⟨hk, raw, hraw, rfl⟩ hnotes)

end Record

/-- To list the keys may fail, where the store within does not grant that, but changes nothing. -/
theorem wp_keyedKeys {site : Site} (hlist : inner.canList = Grants.keys <$> Backend.grants site)
    (hinner : (inner.keys t).ends faults.regime (fun _ s' => L.Grows none w.stand s') w.stand) :
    (((L.enrolment V q).keyed inner).keys t).wp faults.regime (fun _ w' =>
      L.Step none w.stand w'.stand) w := by
  change Action.wp _ (inner.requireKeys "inner" >>= fun _ => inner.keys t) _ w
  rw [Action.wp_bind, wp_requireKeys hlist]
  split
  · exact wp_reading hinner
  · exact .refl w.stand

end Keyed

/-! ## Uses of maps -/

section Maps

variable {faults : Faults V} {t : Token} {w : World V} {i : Fin n}
  (hmap : faults.Spares (.map (L.maps i).store))
include hmap

theorem ends_map (op : MapOp V) :
    (Backend.onMap (L.maps i).store op t).ends faults.regime (fun a s' =>
      L.Grows ((op.inserted a).map (Prod.mk (.inl i))) s s') s :=
  hmap.ends_onMap op (.of_map i op)

/-- A use of a map off its decorator is a step whose insertion need not be recorded. -/
theorem wp_direct (op : MapOp V) :
    (op.on (Backend.map (L.maps i).store) t).wp faults.regime (fun r w' =>
      L.Step (r.toOption.bind fun a => (op.inserted a).map fun k => (false, .inl i, k))
        w.stand w'.stand) w := by
  rw [op.on_base]
  refine Action.wp_of_ends (P := fun r s' => L.Step (r.toOption.bind fun a =>
    (op.inserted a).map fun k => (false, .inl i, k)) w.stand s')
    (Action.ends_mono (ends_map hmap op) fun a s' hgrows => ?_)
  have hstep := hgrows.step
  rwa [Option.map_map] at hstep

variable (hmembers : faults.Spares (.setMap L.members))
include hmembers

/-- A use of a map through its decorator is a step whose insertion is recorded. -/
theorem wp_decorated (op : MapOp V) (hop : ∀ k, op.key? = some k → (L.maps i).keys k) :
    (op.on ((L.enrolment V (.inl i)).map (Backend.map (L.maps i).store)) t).wp faults.regime
      (fun r w' => L.Step (r.toOption.bind fun a => (op.inserted a).map fun k => (true, .inl i, k))
        w.stand w'.stand) w := by
  cases op with
  | add k v overwrite =>
    refine Action.wp_mono (wp_keyedAdd (q := .inl i) hmembers (v := v) (hop k rfl)
      (Action.ends_mono (ends_map hmap (.add k v overwrite)) fun added s' h => ?_)) ?_
    · cases added <;> exact h
    · intro r w' h
      rcases r with halt | _ | _ <;> exact h
  | remove k =>
    refine Action.wp_mono (wp_keyedRemove (q := .inl i) (k := k) hmembers (hop k rfl)
      (hmap.ends_onMap (.remove k) ⟨.of_map i (.remove k), ?_⟩)) ?_
    · rw [there_inl, Stand.maps_onMap_self]
      exact congrArg Option.isSome ((EntryMap.live?_remove _ _ k k).trans (if_pos rfl))
    · intro r w' h
      cases r <;> exact h
  | keys =>
    have hlist : (Backend.map (L.maps i).store).canList =
        Grants.keys <$> Backend.grants (V := V) (.map (L.maps i).store) := rfl
    refine Action.wp_mono (wp_keyedKeys (q := .inl i) hlist (ends_map hmap .keys)) ?_
    intro r w' h
    cases r <;> exact h
  | get | contains | expire | expireAt => exact wp_direct hmap _

end Maps

/-! ## Calls to base maps of sets -/

variable {j : Fin m}

/-- Nothing has grown where the members under a key are as they were. -/
theorem Grows.of_same (hp : (s.setMaps (L.sets j).store).Populated)
    (h : s.Becomes (L.sets j).store k (s.members (L.sets j).store k) s') : L.Grows none s s' :=
  .of_becomes hp h .inl

section Base

variable {faults : Faults V} {t : Token} (hset : faults.Spares (.setMap (L.sets j).store))
  (hp : (s.setMaps (L.sets j).store).Populated)
include hset hp

theorem ends_setRemove :
    ((Backend.setMap (L.sets j).store).remove k t).ends faults.regime (fun _ s' =>
      L.Grows none s s' ∧ L.there s' (.inr j) k = false) s := by
  refine Action.ends_mono hset.ends_remove ?_
  rintro _ s' ⟨-, hgone⟩
  refine ⟨.of_becomes hp hgone fun h => absurd h (by simp), ?_⟩
  rw [Grows.there_sets (hgone.populated _ hp), hgone.here]
  simp

theorem ends_setDeadline (op : SetMapOp) {deadline : Nat}
    (hop : (op.apply s.order s.now s.date (s.setMaps (L.sets j).store)).2 =
      ((s.setMaps (L.sets j).store).expireAt s.now k deadline).2) :
    (Backend.onSetMap (L.sets j).store op t).ends faults.regime
      (fun _ s' => L.Grows none s s') s := by
  refine Action.ends_mono (hset.ends_deadline op hop) ?_
  rintro _ s' ⟨x, rfl | rfl, hbecomes⟩
  · exact .of_same hp hbecomes
  · exact .of_becomes hp hbecomes fun h => absurd h (by simp)

theorem ends_setMember (op : SetOp) :
    (op.on (Backend.setUnder (L.sets j).store k) t).ends faults.regime (fun _ s' =>
      L.Grows (if op.adds then some (.inr j, k) else none) s s') s := by
  refine Action.ends_mono (hset.ends_under op) ?_
  rintro _ s' ⟨-, hbecomes⟩
  cases op with
  | add x => exact .of_becomes hp hbecomes fun _ => .inr rfl
  | remove | members | contains | count =>
    exact .of_becomes hp hbecomes fun h => .inl (SetOp.isEmpty_apply rfl s.order h)

end Base

/-! ## Sets that were handed out -/

/-- A map of sets, through its decorator or not. -/
def setStore (L : ScopeLayout n m) (V : Type) : Bool × Fin m → SetMapStore V
  | (true, j) => (L.enrolment V (.inr j)).setMap (Backend.setMap (L.sets j).store)
  | (false, j) => Backend.setMap (L.sets j).store

/-- What was handed out through a decorator is under a key that can be written. -/
def Found (L : ScopeLayout n m) (l : Lent (Bool × Fin m)) : Prop :=
  l.map.1 = true → ∃ text, L.Text (.inr l.map.2) l.key text

theorem found_direct {l : Lent (Bool × Fin m)} (h : l.map = (false, j)) : L.Found l := by
  intro hthrough
  rw [h] at hthrough
  cases hthrough

/-- No base map of sets fails, or holds an empty set. -/
structure Ready (L : ScopeLayout n m) (faults : Faults V) (s : Stand V) : Prop where
  members : faults.Spares (.setMap L.members)
  sets : ∀ j, faults.Spares (.setMap (L.sets j).store)
  populated : ∀ j, (s.setMaps (L.sets j).store).Populated

section Sets

variable {faults : Faults V} {t : Token} {lent : List (Lent (Bool × Fin m))}
  (hs : L.Ready faults s)
include hs

/-- To read a whole set that is to be stored changes nothing. -/
theorem ends_readWhole (value : Whole) :
    ((value.set (L.setStore V) lent).collect t).ends faults.regime (fun _ s' => L.Grows none s s')
      s := by
  rcases value.set_cases (V := V) (L.setStore V) lent with
    ⟨c, hset, -⟩ | ⟨⟨⟨through, j⟩, k, route⟩, -, -, hset, -⟩
  · rw [hset]
    exact Action.ends_bind (Action.ends_pure (Action.ends_pure (.refl s)))
  · rw [hset]
    have hread : ((Backend.setUnder (L.sets j).store k).collect t).ends faults.regime
        (fun _ s' => L.Grows none s s') s :=
      Action.ends_mono (hs.sets j).ends_collect fun _ _ ⟨_, hsame⟩ =>
        .of_same (hs.populated j) hsame
    cases through <;> exact hread

variable (lent) in
theorem ends_setAdd (j : Fin m) (k : Key) (value : Whole) (overwrite : Bool) :
    ((Backend.setMap (L.sets j).store).add k (value.set (L.setStore V) lent) overwrite t).ends
      faults.regime
      (fun added s' => L.Grows (if added then some (.inr j, k) else none) s s') s := by
  refine (hs.sets j).ends_addSet (fun s' hsame _ => .of_same (hs.populated j) hsame)
    fun s' hsame _ => ?_
  have hfirst : L.Grows none s s' := .of_same (hs.populated j) hsame
  have hs' : L.Ready faults s' :=
    ⟨hs.members, hs.sets, fun j => hfirst.populated _ (hs.populated j)⟩
  refine Action.ends_mono (ends_readWhole hs' value) fun xs s'' hread s₃ hstored => ?_
  have hboth := hfirst.trans hread
  exact hboth.trans (.of_becomes (hboth.populated _ (hs.populated j)) hstored fun _ => .inr rfl)

/-- A set that was handed out through a decorator records its key when a member is added. -/
theorem ends_member {l : Lent (Bool × Fin m)} (hl : L.Found l) (op : SetOp) :
    (op.on (l.follow (L.setStore V)) t).ends faults.regime (fun _ s' =>
      L.Step (if op.adds then some (l.map.1, .inr l.map.2, l.key) else none) s s') s := by
  obtain ⟨⟨through, j⟩, k, route⟩ := l
  have hbase := ends_setMember (t := t) (k := k) (hs.sets j) (hs.populated j) op
  cases through with
  | false =>
    refine Action.ends_mono hbase fun _ _ h => ?_
    have hstep := h.step
    cases op <;> exact hstep
  | true =>
    cases op with
    | add x =>
      obtain ⟨_, hk, raw, hraw, rfl⟩ := hl rfl
      change Action.ends _ ((Backend.setUnder (L.sets j).store k).add x t >>= fun _ =>
        (L.enrolment V (.inr j)).raw k >>= fun raw => (L.scope V).addKey _ raw t) _ _
      refine Action.ends_bind (Action.ends_mono hbase fun _ s₁ hgrows => ?_)
      have hwritten : (L.enrolment V (.inr j)).raw k = pure raw :=
        congrArg Action.ofExcept hraw
      rw [hwritten]
      exact Action.ends_bind (Action.ends_pure (Action.ends_mono (ends_addKey hs.members _ raw)
        fun _ _ hnotes => .of_insert hgrows ⟨hk, raw, hraw, rfl⟩ hnotes))
    | remove | members | contains | count =>
      exact Action.ends_mono hbase fun _ _ h => h.step

end Sets

/-! ## Uses of maps of sets -/

/-- An insertion into a map of sets, as one into a place. -/
def placed (e : (Bool × Fin m) × Key) : Bool × Place n m × Key :=
  (e.1.1, .inr e.1.2, e.2)

section SetUses

variable {faults : Faults V} {t : Token} {w : World V} {lent : List (Lent (Bool × Fin m))}

/-- What a use of maps of sets ends with: an insertion through a decorator is recorded, and what is
handed out can be. -/
def Served (L : ScopeLayout n m) (lent : List (Lent (Bool × Fin m))) (use : SetUse (Bool × Fin m))
    (s : Stand V) (r : Except Halt use.Answer) (s' : Stand V) : Prop :=
  L.Step (r.toOption.bind fun a => (use.inserted lent a).map placed) s s' ∧
    ∀ a, r = .ok a → ∀ l ∈ use.handed a, L.Found l

/-- A use that inserts nothing, and hands out only what can be found, is served. -/
theorem wp_quiet {use : SetUse (Bool × Fin m)} {a : Action V use.Answer}
    (hinserted : ∀ a, use.inserted lent a = none) (hhanded : ∀ a, ∀ l ∈ use.handed a, L.Found l)
    (h : a.wp faults.regime (fun _ w' => L.Step none w.stand w'.stand) w) :
    a.wp faults.regime (fun r w' => L.Served lent use w.stand r w'.stand) w := by
  refine Action.wp_mono h fun r w' hstep => ⟨?_, fun a _ => hhanded a⟩
  simpa [hinserted] using hstep

/-- A way to a set is asked for through a decorator, which writes its key first. -/
theorem wp_reached {use : SetUse (Bool × Fin m)} {a : Action V use.Answer}
    (hk : (L.sets j).keys k) (hinserted : ∀ a, use.inserted lent a = none)
    (hhanded : ∀ a, ∀ l ∈ use.handed a, l.map = (true, j) ∧ l.key = k)
    (h : a.wp faults.regime (fun _ w' => L.Step none w.stand w'.stand) w) :
    ((L.enrolment V (.inr j)).raw k >>= fun _ => a).wp faults.regime
      (fun r w' => L.Served lent use w.stand r w'.stand) w := by
  rw [wp_raw]
  cases hraw : (L.enrolment V (.inr j)).serializer.encode k with
  | error cause => exact ⟨.refl w.stand, nofun⟩
  | ok raw =>
    refine Action.wp_mono h fun r w' hstep => ⟨?_, fun a _ l hl _ => ?_⟩
    · simpa [hinserted] using hstep
    · obtain ⟨hmap, rfl⟩ := hhanded a l hl
      rw [hmap]
      exact ⟨_, hk, raw, hraw, rfl⟩

variable (hs : L.Ready faults w.stand)
include hs

/-- A use of a map of sets, through its decorator or not. -/
theorem wp_sets (hlent : ∀ l ∈ lent, L.Found l) (use : SetUse (Bool × Fin m))
    (huse : ∀ i k, use.key? = some (i, k) → (L.sets i.2).keys k) :
    (use.on (L.setStore V) lent t).wp faults.regime
      (fun r w' => L.Served lent use w.stand r w'.stand) w := by
  cases use with
  | add place k value overwrite =>
    obtain ⟨through, j⟩ := place
    have hbase := ends_setAdd (t := t) lent hs j k value overwrite
    cases through with
    | false =>
      refine Action.wp_of_ends (P := fun r s' => L.Served lent (.add (false, j) k value overwrite)
        w.stand r s') (Action.ends_mono hbase fun added s' hgrows => ⟨?_, nofun⟩)
      have hstep := hgrows.step
      cases added <;> exact hstep
    | true =>
      refine Action.wp_mono (wp_keyedAdd hs.members (huse _ k rfl) hbase) fun r w' hstep =>
        ⟨?_, nofun⟩
      rcases r with halt | _ | _ <;> exact hstep
  | remove place k =>
    obtain ⟨through, j⟩ := place
    have hbase := ends_setRemove (t := t) (k := k) (hs.sets j) (hs.populated j)
    refine wp_quiet (fun _ => rfl) nofun ?_
    cases through with
    | false => exact wp_reading (Action.ends_mono hbase fun _ _ h => h.1)
    | true => exact wp_keyedRemove hs.members (huse _ k rfl) hbase
  | contains place k =>
    obtain ⟨through, j⟩ := place
    refine wp_quiet (fun _ => rfl) nofun ?_
    have hbase := wp_reading (Action.ends_mono ((hs.sets j).ends_contains (t := t) (k := k))
      fun _ _ h => .of_same (hs.populated j) h.2)
    cases through <;> exact hbase
  | keys place =>
    obtain ⟨through, j⟩ := place
    refine wp_quiet (fun _ => rfl) nofun ?_
    have hlist : (Backend.setMap (L.sets j).store).canList =
        Grants.keys <$> Backend.grants (V := V) (.setMap (L.sets j).store) := rfl
    have hbase : ((Backend.setMap (L.sets j).store).keys t).ends faults.regime
        (fun _ s' => L.Grows none w.stand s') w.stand :=
      Action.ends_mono ((hs.sets j).ends_reading .keys (.number 0) (.inl rfl))
        fun _ _ h => .of_same (hs.populated j) h.2
    cases through with
    | false => exact wp_reading hbase
    | true => exact wp_keyedKeys (q := .inr j) hlist hbase
  | find place k =>
    obtain ⟨through, j⟩ := place
    have hbase := wp_reading (Action.ends_mono ((hs.sets j).ends_find (t := t) (k := k))
      fun _ _ h => .of_same (hs.populated j) h.2)
    have hhanded : ∀ route, ∀ l ∈ SetUse.handed (.find (through, j) k) route,
        l.map = (through, j) ∧ l.key = k := by
      simp +contextual [SetUse.handed]
    cases through with
    | false =>
      exact wp_quiet (fun _ => rfl) (fun route l hl => found_direct (hhanded route l hl).1) hbase
    | true => exact wp_reached (huse _ k rfl) (fun _ => rfl) hhanded hbase
  | reach place k =>
    obtain ⟨through, j⟩ := place
    have hbase := wp_reading (Action.ends_mono ((hs.sets j).ends_route (t := t) (k := k))
      fun _ _ h => .of_same (hs.populated j) h.2)
    have hhanded : ∀ route, ∀ l ∈ SetUse.handed (.reach (through, j) k) route,
        l.map = (through, j) ∧ l.key = k := by
      simp [SetUse.handed]
    cases through with
    | false =>
      exact wp_quiet (fun _ => rfl) (fun route l hl => found_direct (hhanded route l hl).1) hbase
    | true => exact wp_reached (huse _ k rfl) (fun _ => rfl) hhanded hbase
  | expire place k ttl =>
    obtain ⟨through, j⟩ := place
    refine wp_quiet (fun _ => rfl) nofun ?_
    have hbase := wp_reading (ends_setDeadline (t := t) (hs.sets j) (hs.populated j)
      (.expire k ttl) rfl)
    cases through <;> exact hbase
  | expireAt place k instant =>
    obtain ⟨through, j⟩ := place
    refine wp_quiet (fun _ => rfl) nofun ?_
    have hbase := wp_reading (ends_setDeadline (t := t) (hs.sets j) (hs.populated j)
      (.expireAt k instant) rfl)
    cases through <;> exact hbase
  | member place op =>
    cases hl : lent[place]? with
    | none =>
      rw [SetUse.on_member_of_none hl]
      refine ⟨?_, nofun⟩
      simpa [SetUse.inserted, hl] using .refl w.stand
    | some l =>
      rw [SetUse.on_member_of_some hl]
      refine Action.wp_of_ends (P := fun r s' => L.Served lent (.member place op) w.stand r s')
        (Action.ends_bind (Action.ends_mono (ends_member hs (hlent l (List.mem_of_getElem? hl)) op)
          fun a s' hstep => Action.ends_pure ⟨?_, nofun⟩))
      simpa [SetUse.inserted, hl, placed, Except.toOption] using hstep

end SetUses

end ScopeLayout

end TwinStore
