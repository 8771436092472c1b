import TwinStore.Failover.Stores
import TwinStore.Proofs.Agreement
import TwinStore.Proofs.PairedSetMaps
import TwinStore.Proofs.Reliable

/-!
# Sets that callers keep

A map of sets hands out the sets under its keys, and callers keep them while outages come and go.
What a caller is handed is a way to the set (`Handle`): through both base maps if the pair was up,
or became so, and to the secondary's set alone if the primary failed at that moment. A way of the
second kind does not change when the pair is up again.

Let the secondary never fail, and let the pair be backed up by copies. While the pair is up, both
base maps have the same members under every key, except those whose sets have been written to in the
secondary alone, through a handle of the second kind, since the pair was last down
(`members_agree_apart_from_strays`). Such a write puts the maps apart
(`set_kept_over_outage_strays`).
-/

namespace TwinStore

variable {V H ν σ α : Type}

/-! ## Agreement apart from some keys -/

namespace Scene

/-- While the pair is up, both stores hold the same under every key but these. -/
def AgreesApart (ks : List Key) (s : Scene (Entries ν)) : Prop :=
  s.health = .up → ∀ k ∉ ks, s.contents .primary k = s.contents .secondary k

/-- The keys to leave out of account once some more have come. What there was before an outage does
not matter after it. -/
def leftOut (s : Scene σ) (more ks : List Key) : List Key :=
  if s.health = .down then [] else more ++ ks

/-- Whatever keys the stores agreed apart from, they do so afterwards, apart from some more. -/
def Tracks (more : List Key) (s s' : Scene (Entries ν)) : Prop :=
  ∀ ks, s.AgreesApart ks → s'.AgreesApart (s.leftOut more ks)

variable {s s' s'' : Scene (Entries ν)} {ks more : List Key}

theorem AgreesApart.of_down (h : s.health = .down) : s.AgreesApart ks := by
  intro hup
  rw [h] at hup
  cases hup

theorem AgreesApart.of_same (h : s.contents .primary = s.contents .secondary) : s.AgreesApart ks :=
  fun _ k _ => congrFun h k

theorem leftOut_of_up (h : s.health = .up) : s.leftOut more ks = more ++ ks :=
  if_neg (by rw [h]; decide)

theorem Tracks.of_down (h : s'.health = .down) : s.Tracks more s' := fun _ _ => .of_down h

theorem Tracks.refl (s : Scene (Entries ν)) : s.Tracks [] s := by
  intro ks hs hup
  rw [leftOut_of_up hup]
  exact hs hup

theorem Tracks.trans (h : s.Tracks [] s') (h' : s'.Tracks [] s'') : s.Tracks [] s'' := by
  intro ks hs hup k hk
  refine h' _ (h ks hs) hup k fun hmem => hk ?_
  unfold leftOut at hmem
  split at hmem
  · cases hmem
  · exact hmem

/-- A recovery that ends well brings the keys together that strayed before the outage. -/
theorem Mended.tracks {z : Hazard (Entries ν)} {r : Except Halt Unit}
    (h : Mended (converging z) s r s') : s.Tracks [] s' := by
  cases h with
  | idle _ => exact .refl s
  | done report s₁ _ run =>
    intro ks _
    cases run with
    | done _ c hc eq =>
      subst hc
      refine .of_same ?_
      rw [contents_turn, eq, contents_put_self, secondary_put_primary]
  | failed cause _ down run => exact .of_down ((Wrote.health run).trans down)

end Scene

/-- An effect acts on each key by itself. What follows an answer is in keeping with it: a write that
is not passed on has changed nothing, and neither has anything that is not a write. -/
structure Effect.Fits (e : Effect (Entries ν) α) (sequel : α → Sequel) : Prop where
  congr : ∀ {c c' : Entries ν} {k : Key}, c k = c' k → e.after c k = e.after c' k
  stop : ∀ c a, e.answers c a → sequel a = .stop → e.after c = c
  recover : ∀ a, sequel a = .recover → e.after = id

namespace Effect

theorem Fits.of_read {e : Effect (Entries ν) α} (h : e.after = id) :
    e.Fits fun _ => .recover where
  congr := by
    intro c c' k hk
    rw [h]
    exact hk
  stop _ _ _ hstop := nomatch hstop
  recover _ _ := h

theorem Fits.of_write [WriteOutcome α] {e : Effect (Entries ν) α}
    (hcongr : ∀ {c c' : Entries ν} {k : Key}, c k = c' k → e.after c k = e.after c' k)
    (hrefuses : e.Refuses) : e.Fits Sequel.ofWrite where
  congr := hcongr
  stop c a ha hstop := by
    refine hrefuses c a ha (eq_false_of_ne_true fun hacc => ?_)
    unfold Sequel.ofWrite at hstop
    rw [if_pos hacc] at hstop
    cases hstop
  recover a hrecover := by
    unfold Sequel.ofWrite at hrecover
    split at hrecover <;> cases hrecover

end Effect

/-- Whatever a template does where the secondary never fails, the stores keep together. -/
theorem Scene.Served.tracks {z : Hazard (Entries ν)} {e : Effect (Entries ν) α}
    {sequel : α → Sequel} {s s' : Scene (Entries ν)} {r : Except Halt α}
    (h : Served (converging z) (asking z e .primary) e sequel s r s') (hfits : e.Fits sequel) :
    s.Tracks [] s' := by
  cases h with
  | diverted cause s₁ b _ _ => exact .of_down rfl
  | stopped a _ done next =>
    cases done with
    | done _ answers eq =>
      rw [hfits.stop _ a answers next, put_contents] at eq
      exact eq ▸ .refl s
  | recovered a s₁ r _ done next mended =>
    cases done with
    | done _ answers eq =>
      rw [hfits.recover a next, id, put_contents] at eq
      exact eq ▸ mended.tracks
  | passedOn a s₁ r _ done next mended =>
    cases done with
    | done _ answers eq =>
      -- Both stores have done the same before a recovery comes.
      have hboth : s.Tracks [] (s₁.passOn e) := by
        intro ks hs hup k hk
        rw [eq, health_passOn, health_put] at hup
        rw [leftOut_of_up hup] at hk
        rw [primary_passOn, secondary_passOn, eq, contents_put_self, secondary_put_primary]
        exact hfits.congr (hs hup k hk)
      exact hboth.trans mended.tracks

/-! ## Effects on maps of sets -/

namespace Rosters

theorem refuses_storing (k : Key) (members : MemberSet) (overwrite : Bool) :
    (storing k members overwrite).Refuses := by
  intro c a h ha
  cases (ha : a = false)
  exact storing_after_of_kept ((Bool.not_eq_false' _).mp (h : false = _).symm)

theorem refuses_under [WriteOutcome α] (k : Key) {e : Effect MemberSet α} (h : e.Refuses) :
    (under k e).Refuses :=
  fun _ a ha hacc => under_after_of_eq k (h _ a ha hacc)

theorem fits_storing (k : Key) (members : MemberSet) (overwrite : Bool) :
    (storing k members overwrite).Fits Sequel.ofWrite :=
  .of_write storing_after_congr (refuses_storing k members overwrite)

theorem fits_removing (k : Key) : (Entries.removing (V := Roster) k).Fits Sequel.ofWrite :=
  .of_write (Entries.update_congr k fun _ => none) (Entries.refuses_removing k)

/-- A write to the set under a key fits what follows it, if a refused one changes nothing. -/
theorem fits_under [WriteOutcome α] (k : Key) {e : Effect MemberSet α} (h : e.Refuses) :
    (under k e).Fits Sequel.ofWrite :=
  .of_write (under_after_congr k e) (refuses_under k h)

end Rosters

/-! ## What callers ask for -/

/-- Whether an operation may change the members. -/
def SetOp.writes : SetOp → Bool
  | .add _ | .remove _ => true
  | _ => false

/-- An operation on the set under a key changes nothing under others, and nothing at all if it is no
write. -/
theorem Rosters.under_after_of_not_mem {k k' : Key} {op : SetOp} {c : Entries Roster}
    (h : k' ∉ if op.writes then [k] else []) : (under k op.effect).after c k' = c k' := by
  by_cases hwrites : op.writes = true
  · rw [if_pos hwrites] at h
    exact c.set_of_ne _ fun he => h (List.mem_singleton.2 he.symm)
  · have hread : op.effect.after = id := by
      cases op with
      | add x => exact absurd rfl hwrites
      | remove x => exact absurd rfl hwrites
      | _ => rfl
    rw [under_after_of_read k hread]
    rfl

/-- A set that a caller was handed: its key, and the way that was found to it. -/
structure Handle where
  key : Key
  route : Route

/-- What a caller may ask of a map of sets, or of a set that it was handed. -/
inductive SetMapAsk where
  | add (key : Key) (members : MemberSet) (overwrite : Bool)
  | remove (key : Key)
  | contains (key : Key)
  | keys
  /-- Hand out the set under a key, if the key exists. -/
  | find (key : Key)
  /-- Hand out the set under a key. -/
  | reach (key : Key)
  /-- Ask something of the set that was handed out in the given place. -/
  | member (place : Nat) (op : SetOp)

namespace SetMapAsk

/-- Serve a caller that holds some handles; the answer is what it is handed. -/
def on (m : SetMapStore V) (held : List Handle) (t : Token) : SetMapAsk → Action V (List Handle)
  | .add k members overwrite => do
    let _ ← m.add k (.ofMembers members) overwrite t
    return []
  | .remove k => do
    let _ ← m.remove k t
    return []
  | .contains k => do
    let _ ← m.contains k t
    return []
  | .keys => do
    let _ ← m.keys t
    return []
  | .find k => do
    let route ← m.find k t
    return (route.map (Handle.mk k)).toList
  | .reach k => do
    let route ← m.route k t
    return [⟨k, route⟩]
  | .member place op =>
    match held[place]? with
    | some h => do
      let _ ← op.on (m.follow h.key h.route) t
      return []
    | none => return []

/-- The key whose set is written to in the secondary alone. -/
def strays (held : List Handle) : SetMapAsk → List Key
  | .member place op =>
    match held[place]? with
    | some ⟨k, .secondaryOnly _⟩ => if op.writes then [k] else []
    | _ => []
  | _ => []

end SetMapAsk

/-- The world, the sets that callers were handed, and the keys whose sets have been written to in
the secondary alone since the pair was last down. -/
structure Holding (V : Type) where
  world : World V
  handles : List Handle := []
  strays : List Key := []

/-- A caller is served. -/
def Holding.serve (g : Regime V) (b : BackupSetMap V) (h : Holding V) (turn : Turn SetMapAsk) :
    Holding V :=
  let out := g.act (h.world.atTime turn.time) (turn.op.on b.store h.handles turn.token)
  { world := out.2
    handles := h.handles ++ out.1.toOption.getD []
    strays :=
      if (h.world.engines.nth b.engine.core).health = .down then []
      else turn.op.strays h.handles ++ h.strays }

/-! ## What a caller's turn does -/

namespace SetMapPair

/-- Two base maps of sets, backed up by copies. -/
def backup (V : Type) (p : SetMapPair) (name : String) (limit : Nat) : BackupSetMap V where
  engine := p.engine V name limit
  limit := limit

variable {p : SetMapPair} {faults : Faults V} {w : World V} {name : String} {limit : Nat}

/-- What a turn leaves: a pair as it should be, whose stores have kept together. -/
def Kept (p : SetMapPair) (more : List Key) (w w' : World V) : Prop :=
  (p.view V).Fit w' ∧ ((p.view V).scene w).Tracks more ((p.view V).scene w')

theorem Kept.trans {w' w'' : World V} (h : p.Kept [] w w') (h' : p.Kept [] w' w'') :
    p.Kept [] w w'' :=
  ⟨h'.1, h.2.trans h'.2⟩

section Templates

variable {e : Engine V H} {base : Side → H} (hspared : faults.Spares (.setMap p.secondary))
  (hmends : (p.view V).Mends faults.regime e (Scene.converging (p.hazard faults)))
  (hbase : ∀ side, e.storeOn side = base side)
include hspared hbase

theorem serves {op : H → Action V α} {eff : Effect (Entries Roster) α}
    (hop : (p.view V).Carries faults.regime (p.hazard faults) (fun side => op (base side)) eff) :
    (p.view V).Serves faults.regime e op (Scene.asking (p.hazard faults) eff .primary) eff := by
  rw [← funext hbase] at hop
  exact hop.serves fun h => h hspared

include hmends

theorem wp_backup [WriteOutcome α] (op : H → Action V α) {eff : Effect (Entries Roster) α}
    (hop : (p.view V).Carries faults.regime (p.hazard faults) (fun side => op (base side)) eff)
    (hfits : eff.Fits Sequel.ofWrite) (hw : (p.view V).Fit w) :
    (e.backup op).wp faults.regime (fun _ w' => p.Kept [] w w') w := by
  refine Action.wp_mono (View.wp_backup hmends (serves hspared hbase hop) hw) ?_
  rintro r w' ⟨hw', hserved⟩
  exact ⟨hw', hserved.tracks hfits⟩

theorem wp_fallback (op : H → Action V α) {eff : Effect (Entries Roster) α}
    (hop : (p.view V).Carries faults.regime (p.hazard faults) (fun side => op (base side)) eff)
    (hread : eff.after = id) (hw : (p.view V).Fit w) :
    (e.fallback op).wp faults.regime (fun _ w' => p.Kept [] w w') w := by
  refine Action.wp_mono (View.wp_fallback hmends (serves hspared hbase hop) hw) ?_
  rintro r w' ⟨hw', hserved⟩
  exact ⟨hw', hserved.tracks (.of_read hread)⟩

end Templates

/-! ### The map -/

theorem storeOn_engine (side : Side) :
    (p.engine V name limit).storeOn side = p.base V side := by
  cases side <;> rfl

theorem mends (p : SetMapPair) (faults : Faults V) (name : String) (limit : Nat) :
    (p.view V).Mends faults.regime (p.engine V name limit)
      (Scene.converging (p.hazard faults)) :=
  (runs_engine name limit).mends

/-- The ways that a pair of base maps hands out. -/
def Finds (route : Route) : Prop :=
  route = .paired .direct .direct ∨ route = .secondaryOnly .direct

/-- A call that hands its caller nothing hands out only what can be found. -/
theorem wp_nothing {more : List Key} {a : Action V α}
    (h : a.wp faults.regime (fun _ w' => p.Kept more w w') w) :
    (a >>= fun _ => pure ([] : List Handle)).wp faults.regime (fun r w' => p.Kept more w w' ∧
      ∀ hs, r = .ok hs → ∀ x ∈ hs, Finds x.route) w := by
  rw [Action.wp_bind]
  refine Action.wp_mono h ?_
  rintro (halt | a) w' hkept
  · exact ⟨hkept, fun _ hr => nomatch hr⟩
  · refine ⟨hkept, fun hs hr => ?_⟩
    cases hr
    exact fun _ hx => nomatch hx

section Secondary

variable (hspared : faults.Spares (.setMap p.secondary))
include hspared

/-- The secondary's way to a set does not fail. -/
theorem wp_secondaryRoute (k : Key) (t : Token) (hw : (p.view V).Fit w) :
    ((p.base V .secondary).route k t).wp faults.regime (fun r w' => (p.view V).Fit w' ∧
      r = .ok .direct ∧ (p.view V).scene w' = (p.view V).scene w) w := by
  refine Action.wp_mono (carries_route k t .secondary w hw) ?_
  rintro r w' ⟨hw', tried⟩
  cases tried with
  | failed cause frail eq => exact absurd hspared frail
  | done route answers eq =>
    cases (answers : route = .direct)
    exact ⟨hw', rfl, eq.trans (Scene.put_contents _ _)⟩

theorem wp_route (k : Key) (t : Token) (hw : (p.view V).Fit w) :
    ((p.backup V name limit).route k t).wp faults.regime (fun r w' => p.Kept [] w w' ∧
      ∀ route, r = .ok route → Finds route) w := by
  unfold BackupSetMap.route
  rw [Action.wp_bind, Action.wp_attempt]
  refine Action.wp_mono (carries_route k t .primary w hw) ?_
  rintro r w₁ ⟨hw₁, tried⟩
  cases tried with
  | failed cause frail eq =>
    rw [MarkedAction.attempted, Action.andThen_ok]
    dsimp only
    rw [Action.wp_bind]
    refine Action.wp_mono (View.wp_markDown (e := p.engine V name limit) rfl hw₁ cause) ?_
    rintro _ w₂ ⟨hw₂, rfl, hdown⟩
    rw [Action.andThen_ok, Action.wp_bind]
    refine Action.wp_mono (wp_secondaryRoute hspared k t hw₂) ?_
    rintro _ w₃ ⟨hw₃, rfl, hsame⟩
    rw [Action.andThen_ok, Action.wp_pure]
    refine ⟨⟨hw₃, .of_down ?_⟩, fun route hroute => ?_⟩
    · rw [hsame, hdown, Scene.health_turn]
    · cases hroute
      exact .inr rfl
  | done route answers eq =>
    cases (answers : route = .direct)
    have hsame₁ : (p.view V).scene w₁ = (p.view V).scene w :=
      eq.trans (Scene.put_contents _ _)
    rw [MarkedAction.attempted, Action.andThen_ok]
    dsimp only
    rw [Action.wp_bind]
    refine Action.wp_mono (View.wp_recoverIfDown (mends p faults name limit) hw₁) ?_
    rintro r w₂ ⟨hw₂, mended⟩
    rw [hsame₁] at mended
    have hkept : p.Kept [] w w₂ := ⟨hw₂, mended.tracks⟩
    cases r with
    | error halt => exact ⟨hkept, fun _ hroute => by cases hroute⟩
    | ok _ =>
      rw [Action.andThen_ok, Action.wp_bind, Action.wp_attempt]
      refine Action.wp_mono (wp_secondaryRoute hspared k t hw₂) ?_
      rintro _ w₃ ⟨hw₃, rfl, hsame₃⟩
      refine ⟨⟨hw₃, hsame₃ ▸ hkept.2⟩, fun route hroute => ?_⟩
      cases hroute
      exact .inl rfl

theorem wp_find (k : Key) (t : Token) (hw : (p.view V).Fit w) :
    ((p.backup V name limit).store.find k t).wp faults.regime (fun r w' => p.Kept [] w w' ∧
      ∀ route, r = .ok (some route) → Finds route) w := by
  change Action.wp _ ((p.backup V name limit).contains k t >>= fun found => _) _ w
  rw [Action.wp_bind]
  refine Action.wp_mono (wp_fallback hspared (mends p faults name limit) storeOn_engine
    (fun m => m.contains k t) (carries_contains k t) rfl hw) ?_
  rintro (halt | found) w₁ hkept
  · exact ⟨hkept, fun _ hroute => nomatch hroute⟩
  · rw [Action.andThen_ok]
    cases found with
    | false => exact ⟨hkept, fun _ hroute => nomatch hroute⟩
    | true =>
      rw [if_pos rfl, Action.wp_bind]
      refine Action.wp_mono (wp_route hspared k t hkept.1) ?_
      rintro (halt | route) w₂ ⟨hkept', hfinds⟩
      · exact ⟨hkept.trans hkept', fun _ hroute => nomatch hroute⟩
      · refine ⟨hkept.trans hkept', fun route' hroute => ?_⟩
        cases hroute
        exact hfinds route rfl

/-! ### The sets that were handed out -/

/-- A set that was found in both maps is backed up; its failures and recoveries are the map's. -/
theorem wp_pairedSet (k : Key) (op : SetOp) (t : Token) (hw : (p.view V).Fit w) :
    (op.on ((p.backup V name limit).follow k (.paired .direct .direct)) t).wp faults.regime
      (fun _ w' => p.Kept [] w w') w := by
  let e := (p.engine V name limit).derive (p.baseSet V .primary k) (p.baseSet V .secondary k)
    (Converge.overwriteSet limit)
  have hmends : (p.view V).Mends faults.regime e (Scene.converging (p.hazard faults)) :=
    ⟨rfl, (mends p faults name limit).recovers⟩
  have hbase : ∀ side, e.storeOn side = p.baseSet V side k := fun side => by cases side <;> rfl
  change (op.on e.backupSet t).wp faults.regime (fun _ w' => p.Kept [] w w') w
  cases op with
  | add x =>
    exact wp_backup hspared hmends hbase (fun s => s.add x t) (carries_member k (.add x) t nofun)
      (Rosters.fits_under k (Members.refuses_adding x)) hw
  | remove x =>
    exact wp_backup hspared hmends hbase (fun s => s.remove x t)
      (carries_member k (.remove x) t nofun)
      (Rosters.fits_under k (Members.refuses_removing x)) hw
  | members =>
    change Action.wp _ (e.fallback (fun s => s.collect t) >>= fun xs => pure (Listing.full xs)) _ w
    rw [Action.wp_bind]
    refine Action.wp_mono (wp_fallback hspared hmends hbase (fun s => s.collect t)
      (carries_collect k t) (Rosters.under_after_of_read k rfl) hw) ?_
    rintro (halt | xs) w' hkept <;> exact hkept
  | contains x =>
    exact wp_fallback hspared hmends hbase (fun s => s.contains x t)
      (carries_member k (.contains x) t nofun) (Rosters.under_after_of_read k rfl) hw
  | count =>
    exact wp_fallback hspared hmends hbase (fun s => s.count t) (carries_member k .count t nofun)
      (Rosters.under_after_of_read k rfl) hw

/-- A set of the secondary's alone is written to there, whether the pair is up or down. -/
theorem wp_secondarySet (name : String) (limit : Nat) (k : Key) (op : SetOp) (t : Token)
    (hw : (p.view V).Fit w) :
    (op.on ((p.backup V name limit).follow k (.secondaryOnly .direct)) t).wp faults.regime
      (fun _ w' => p.Kept (if op.writes then [k] else []) w w') w := by
  have hcall : op.on ((p.backup V name limit).follow k (.secondaryOnly .direct)) t =
      Action.call (.setMap (p.index .secondary) (.member k op)) t := by
    cases op <;> rfl
  have hsite : (Call.setMap (V := V) (p.index .secondary) (.member k op)).site =
      (p.view V).site .secondary := rfl
  rw [hcall]
  refine View.wp_call hsite hw ?_ ?_ ?_
  · intro w' hw' hsame
    obtain ⟨hfit, hscene, -⟩ := perform_applies (applies_member k op) hw' .secondary
    rw [hsame] at hscene
    refine ⟨hfit, fun ks hs hup k' hk => ?_⟩
    have hup : ((p.view V).scene w).health = .up := (congrArg Scene.health hscene).symm.trans hup
    rw [Scene.leftOut_of_up hup, List.mem_append, not_or] at hk
    rw [hscene, Scene.primary_put_secondary, Scene.contents_put_self,
      Rosters.under_after_of_not_mem hk.1]
    exact hs hup k' hk.2
  · exact fun _ _ hfrail => absurd hspared hfrail
  · exact fun _ _ _ _ hfrail => absurd hspared hfrail

/-! ### A turn -/

/-- A caller's turn keeps the stores together, apart from the key of a set that it writes to in the
secondary alone, and hands out only the ways that a pair of base maps finds. -/
theorem wp_ask (name : String) (limit : Nat) {held : List Handle}
    (hheld : ∀ x ∈ held, Finds x.route) (ask : SetMapAsk) (t : Token) (hw : (p.view V).Fit w) :
    (ask.on (p.backup V name limit).store held t).wp faults.regime (fun r w' =>
      p.Kept (ask.strays held) w w' ∧ ∀ hs, r = .ok hs → ∀ x ∈ hs, Finds x.route) w := by
  have hmends := mends p faults name limit
  cases ask with
  | add k members overwrite =>
    exact wp_nothing (wp_backup hspared hmends storeOn_engine
      (fun m => m.add k (.ofMembers members) overwrite t) (carries_add k members overwrite t)
      (Rosters.fits_storing k members overwrite) hw)
  | remove k =>
    exact wp_nothing (wp_backup hspared hmends storeOn_engine (fun m => m.remove k t)
      (carries_remove k t) (Rosters.fits_removing k) hw)
  | contains k =>
    exact wp_nothing (wp_fallback hspared hmends storeOn_engine (fun m => m.contains k t)
      (carries_contains k t) rfl hw)
  | keys =>
    refine wp_nothing ?_
    change Action.wp _ ((p.engine V name limit).fallback (fun m => m.collectKeys "replica" t) >>=
      fun ks => pure (Listing.full ks)) _ w
    rw [Action.wp_bind]
    refine Action.wp_mono (wp_fallback hspared hmends storeOn_engine
      (fun m => m.collectKeys "replica" t) (carries_collectKeys "replica" t) rfl hw) ?_
    rintro (halt | ks) w' hkept <;> exact hkept
  | find k =>
    change Action.wp _ ((p.backup V name limit).store.find k t >>= fun route =>
      pure (route.map (Handle.mk k)).toList) _ w
    rw [Action.wp_bind]
    refine Action.wp_mono (wp_find hspared k t hw) ?_
    rintro (halt | route) w' ⟨hkept, hfinds⟩
    · exact ⟨hkept, fun _ hr => nomatch hr⟩
    · refine ⟨hkept, fun hs hr x hx => ?_⟩
      cases hr
      cases route with
      | none => exact nomatch hx
      | some route =>
        cases List.mem_singleton.1 hx
        exact hfinds route rfl
  | reach k =>
    change Action.wp _ ((p.backup V name limit).route k t >>= fun route =>
      pure [Handle.mk k route]) _ w
    rw [Action.wp_bind]
    refine Action.wp_mono (wp_route hspared k t hw) ?_
    rintro (halt | route) w' ⟨hkept, hfinds⟩
    · exact ⟨hkept, fun _ hr => nomatch hr⟩
    · refine ⟨hkept, fun hs hr x hx => ?_⟩
      cases hr
      cases List.mem_singleton.1 hx
      exact hfinds route rfl
  | member place op =>
    simp only [SetMapAsk.on, SetMapAsk.strays]
    cases hplace : held[place]? with
    | none =>
      refine ⟨⟨hw, .refl _⟩, fun hs hr => ?_⟩
      cases hr
      exact fun _ hx => nomatch hx
    | some x =>
      obtain ⟨k, route⟩ := x
      obtain rfl | rfl := hheld _ (List.mem_of_getElem? hplace)
      · exact wp_nothing (wp_pairedSet hspared k op t hw)
      · exact wp_nothing (wp_secondarySet hspared name limit k op t hw)

end Secondary

theorem steady {time : Nat} (h : time ≤ p.horizon) : (p.view V).Steady time := by
  intro w hw
  refine ⟨⟨h, fun side => ⟨(hw.2 side).tidy, (hw.2 side).lists⟩⟩, ?_⟩
  ext side k : 3
  · exact congrFun ((hw.2 side).tidy.rosters_eq h hw.1) k
  · rfl
  · rfl

/-! ## Runs of turns -/

/-- What every turn keeps: the pair is as it should be, its stores agree apart from the keys that
have strayed, and callers hold only what a pair of base maps finds. -/
structure Sound (p : SetMapPair) (h : Holding V) : Prop where
  fit : (p.view V).Fit h.world
  finds : ∀ x ∈ h.handles, Finds x.route
  agrees : ((p.view V).scene h.world).AgreesApart h.strays

theorem Sound.serve (hspared : faults.Spares (.setMap p.secondary)) {h : Holding V}
    {turn : Turn SetMapAsk} (htime : turn.time ≤ p.horizon) (hh : p.Sound h) :
    p.Sound (h.serve faults.regime (p.backup V name limit) turn) := by
  obtain ⟨hfit, hscene⟩ := steady htime h.world hh.fit
  obtain ⟨⟨hfit', htracks⟩, hfinds⟩ := wp_ask hspared name limit hh.finds turn.op turn.token
    hfit
  rw [hscene] at htracks
  refine ⟨hfit', fun x hx => ?_, htracks _ hh.agrees⟩
  rcases List.mem_append.1 hx with hx | hx
  · exact hh.finds x hx
  · cases hout : (faults.regime.act (h.world.atTime turn.time)
        (turn.op.on (p.backup V name limit).store h.handles turn.token)).1 with
    | error halt =>
      rw [hout] at hx
      cases hx
    | ok hs =>
      rw [hout] at hx
      exact hfinds hs hout x hx

theorem Sound.run (name : String) (limit : Nat) (hspared : faults.Spares (.setMap p.secondary))
    {h : Holding V} (hh : p.Sound h) (turns : List (Turn SetMapAsk))
    (htimes : ∀ turn ∈ turns, turn.time ≤ p.horizon) :
    p.Sound (turns.foldl (Holding.serve faults.regime (p.backup V name limit)) h) := by
  induction turns generalizing h with
  | nil => exact hh
  | cons turn rest ih =>
    exact ih (hh.serve hspared (htimes turn List.mem_cons_self))
      fun t ht => htimes t (List.mem_cons_of_mem _ ht)

end SetMapPair

/-- **Members agree.** Let the primary of two maps of sets that are backed up fail in any of its
calls, and the secondary in none. After any turns of callers, who store sets of their own and also
use the sets that they were handed in earlier turns, the two maps have the same members under every
key if the pair is up, unless the set under that key has been written to in the secondary alone
since the pair was last down. -/
theorem members_agree_apart_from_strays (p : SetMapPair) (faults : Faults V) (name : String)
    (limit : Nat) (turns : List (Turn SetMapAsk)) (w : World V) (hstart : (p.view V).InStep w)
    (hspared : faults.Spares (.setMap p.secondary))
    (htimes : ∀ turn ∈ turns, turn.time ≤ p.horizon) :
    let h := turns.foldl (Holding.serve faults.regime (p.backup V name limit)) { world := w }
    (h.world.engines.nth p.core).health = .up →
      ∀ k ∉ h.strays, p.members h.world .primary k = p.members h.world .secondary k := by
  intro h hup k hk
  have hsound : p.Sound { world := w } := {
    fit := hstart.fit
    finds := fun _ hx => nomatch hx
    agrees := .of_same hstart.same }
  have hsame := congrArg Roster.toMembers
    ((hsound.run name limit hspared turns htimes).agrees hup k hk)
  exact (Roster.toMembers_ofMembers _).symm.trans (hsame.trans (Roster.toMembers_ofMembers _))

/-! ### A new pair -/

/-- Two maps of sets with the same members and a new health record. -/
def World.twinSetMaps (V : Type) (entries : List (Key × List String)) : World V :=
  let base : Base MemberMap := { content := .ofList entries }
  (World.newEngine { setMaps := ((∅ : Shelf (Base MemberMap)).put 0 base).put 1 base } "pair" 16).2

/-- The maps of `World.twinSetMaps`. -/
def SetMapPair.twins (horizon : Nat) : SetMapPair :=
  { core := 0, primary := 0, secondary := 1, ne := Nat.zero_ne_one, horizon }

theorem SetMapPair.inStep_twins (entries : List (Key × List String)) (horizon : Nat) :
    ((twins horizon).view V).InStep (World.twinSetMaps V entries) where
  fit := by
    refine ⟨Nat.zero_le _, fun side => ?_⟩
    cases side <;> exact ⟨MemberMap.tidy_ofList entries horizon, rfl⟩
  up := rfl
  same := rfl

/-- A set that was handed out when the primary had failed is written to during the outage, and one
that was handed out after it, later. -/
theorem members_agree_after_outage :
    let h := [SetMapAsk.reach (.text "k"), .member 0 (.add "x"), .contains (.text "k"),
        .reach (.text "k"), .member 1 (.add "y")].map (Turn.mk · none 0) |>.foldl
      (Holding.serve ((Faults.hitting [0]).within (.setMap 0)).regime
        ((SetMapPair.twins 100).backup Nat "pair" 1000)) { world := World.twinSetMaps Nat [] }
    ((SetMapPair.twins 100).members h.world .primary (.text "k")).toList = ["x", "y"] ∧
      ∀ k, (SetMapPair.twins 100).members h.world .primary k =
        (SetMapPair.twins 100).members h.world .secondary k := by
  refine ⟨by decide +kernel, fun k => ?_⟩
  exact members_agree_apart_from_strays (SetMapPair.twins 100) _ "pair" 1000 _ _
    (SetMapPair.inStep_twins _ _) (Faults.spares_within _ (by decide)) (by decide)
    (by decide +kernel) k fun hk => List.ne_nil_of_mem hk (by decide +kernel)

/-- A set that was handed out when the primary had failed, and is written to once the pair is up
again, is written to in the secondary alone. -/
theorem set_kept_over_outage_strays :
    let h := [SetMapAsk.reach (.text "k"), .contains (.text "k"), .member 0 (.add "x")].map
      (Turn.mk · none 0) |>.foldl
      (Holding.serve ((Faults.hitting [0]).within (.setMap 0)).regime
        ((SetMapPair.twins 100).backup Nat "pair" 1000)) { world := World.twinSetMaps Nat [] }
    (h.world.engines.nth 0).health = .up ∧
      ((SetMapPair.twins 100).members h.world .primary (.text "k")).toList = [] ∧
      ((SetMapPair.twins 100).members h.world .secondary (.text "k")).toList = ["x"] := by
  decide +kernel

end TwinStore
