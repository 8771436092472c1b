import TwinStore.Converge.Entries
import TwinStore.Converge.Members
import TwinStore.Failover.Engine
import TwinStore.Program.Backend

/-!
# Programs that leave a health record alone

Base stores know nothing of the health of pairs, so programs that ask nothing but base stores have
nothing to do with any health record (`Prog.Avoids`). That goes for the convergence runs of pairs of
base stores: `Engine.runsApart_maps`, whatever the strategy, and `Engine.runsApart_sets`.
-/

namespace TwinStore

variable {V H α β : Type} {core : Nat}

/-- Whether a request is about a health record or its lock. -/
def Request.Concerns (core : Nat) : Request V → Prop
  | .health c => c = core
  | .markDown c _ => c = core
  | .markUp c => c = core
  | .acquire lock => lock = .engine core
  | .release lock => lock = .engine core
  | _ => False

/-- A program that has nothing to do with a health record. -/
def Prog.Avoids (core : Nat) : Prog V α → Prop
  | .ret _ => True
  | .ask r next => ¬ r.Concerns core ∧ ∀ a, (next a).Avoids core

namespace Prog

theorem avoids_request {r : Request V} (h : ¬ r.Concerns core) : (request r).Avoids core :=
  ⟨h, fun _ => trivial⟩

theorem avoids_bind {p : Prog V α} {f : α → Prog V β} (hp : p.Avoids core)
    (hf : ∀ a, (f a).Avoids core) : (p >>= f).Avoids core := by
  induction p with
  | ret a => exact hf a
  | ask r next ih => exact ⟨hp.1, fun a => ih a (hp.2 a)⟩

theorem avoids_map {p : Prog V α} (hp : p.Avoids core) (f : α → β) : (f <$> p).Avoids core :=
  avoids_bind hp fun _ => trivial

end Prog

/-! ## Actions -/

namespace Action

/-- `Prog.Avoids`, of an action. -/
def Avoids (core : Nat) (a : Action V α) : Prop :=
  a.run.Avoids core

theorem avoids_pure (x : α) : Avoids core (pure x : Action V α) := trivial

theorem avoids_fail (e : StoreError) : Avoids core (fail e : Action V α) := trivial

theorem avoids_bind {a : Action V α} {f : α → Action V β} (ha : a.Avoids core)
    (hf : ∀ x, (f x).Avoids core) : Avoids core (a >>= f) := by
  refine Prog.avoids_bind ha fun r => ?_
  cases r with
  | ok x => exact hf x
  | error halt => trivial

theorem avoids_lift {p : Prog V α} (hp : p.Avoids core) : Avoids core (liftM p : Action V α) :=
  Prog.avoids_map hp _

theorem avoids_ask {r : Request V} (h : ¬ r.Concerns core) : Avoids core (ask r) :=
  avoids_lift (Prog.avoids_request h)

theorem avoids_call (c : Call V) (t : Token) : Avoids core (call c t) :=
  Prog.avoids_request nofun

theorem avoids_count (m : Measure) (amount : Nat) : Avoids core (count m amount : Action V Unit) :=
  avoids_ask nofun

theorem avoids_collect (l : Listing α) : Avoids core (l.collect : Action V (List α)) := by
  unfold Listing.collect
  cases l.failure with
  | none => exact avoids_pure _
  | some e => exact avoids_fail e

end Action

/-! ## Walks -/

namespace Walk

/-- `Prog.Avoids`, of a walk, whatever it has counted so far. -/
def Avoids (core : Nat) (a : Walk V α) : Prop :=
  ∀ n, (a.run.run n).Avoids core

theorem avoids_pure (x : α) : Avoids core (pure x : Walk V α) := fun _ => trivial

theorem avoids_bind {a : Walk V α} {f : α → Walk V β} (ha : a.Avoids core)
    (hf : ∀ x, (f x).Avoids core) : Avoids core (a >>= f) := by
  refine fun n => Prog.avoids_bind (ha n) fun r => ?_
  obtain ⟨halt | x, n'⟩ := r
  · trivial
  · exact hf x n'

theorem avoids_lift {a : Action V α} (ha : a.Avoids core) : Avoids core (liftM a : Walk V α) :=
  fun _ => Prog.avoids_bind ha fun _ => trivial

theorem avoids_wrote : Avoids core (wrote : Walk V Unit) := fun _ => trivial

theorem avoids_removing {remove : Action V Bool} (h : remove.Avoids core) :
    (removing remove).Avoids core := by
  refine avoids_bind (avoids_lift h) fun found => ?_
  cases found <;> exact fun _ => trivial

theorem avoids_close (l : Listing α) : Avoids core (close l : Walk V Unit) := by
  unfold close
  cases l.failure <;> exact fun _ => trivial

theorem avoids_each {f : α → Walk V Unit} (hf : ∀ x, (f x).Avoids core) (items : List α) :
    (each items f).Avoids core := by
  induction items with
  | nil => exact avoids_pure ()
  | cons x rest ih => exact avoids_bind (hf x) fun _ => ih

end Walk

theorem Report.avoids_conclude (name : String) (tally : Tally) (timedOut : Bool) :
    (conclude name tally timedOut : Action V Report).Avoids core := by
  refine Action.avoids_bind (Action.avoids_count _ _) fun _ => ?_
  refine Action.avoids_bind (Action.avoids_count _ _) fun _ => ?_
  refine Action.avoids_bind (Action.avoids_count _ _) fun _ => ?_
  exact Action.avoids_bind (Action.avoids_count _ _) fun _ => Action.avoids_pure _

theorem avoids_drive (name : String) (limit : Nat) (t : Token) {walk : Walk V Unit}
    (h : walk.Avoids core) : (drive name limit t walk).Avoids core := by
  refine Action.avoids_bind (Action.avoids_ask nofun) fun cancelled => ?_
  cases cancelled with
  | true => exact Report.avoids_conclude _ _ _
  | false =>
    refine Action.avoids_bind (Action.avoids_ask nofun) fun run => ?_
    refine Action.avoids_bind (Action.avoids_lift (h {})) fun ⟨result, tally⟩ => ?_
    refine Action.avoids_bind (Action.avoids_ask nofun) fun _ => ?_
    rcases result with (cause | n) | _
    · refine Action.avoids_bind (Action.avoids_count _ _) fun _ => ?_
      exact Action.avoids_bind (Action.avoids_count _ _) fun _ => Action.avoids_fail cause
    · dsimp only
      split
      · exact Report.avoids_conclude _ _ _
      · exact Action.avoids_bind (Action.avoids_count _ _) fun _ => trivial
    · exact Report.avoids_conclude _ _ _

/-- The runs of an engine's own synchronizer over its own stores have nothing to do with a health
record. -/
def Engine.RunsApart (core : Nat) (e : Engine V H) : Prop :=
  ∀ t, (e.synchronizer.run e.primary e.secondary t).Avoids core ∧
    (e.synchronizer.run e.secondary e.primary t).Avoids core

/-! ## Maps -/

/-- The operations of a map that convergence runs use have nothing to do with a health record. -/
structure KeyedStore.Apart (core : Nat) (m : KeyedStore V α) : Prop where
  add : ∀ k v overwrite t, (m.add k v overwrite t).Avoids core
  get : ∀ k t, (m.get k t).Avoids core
  remove : ∀ k t, (m.remove k t).Avoids core
  canList : m.canList.Avoids core
  keys : ∀ t, (m.keys t).Avoids core

namespace KeyedStore.Apart

variable {m source target : KeyedStore V α}

theorem requireKeys (h : m.Apart core) (role : String) : (m.requireKeys role).Avoids core := by
  refine Action.avoids_bind (Action.avoids_lift h.canList) fun can => ?_
  cases can with
  | true => exact Action.avoids_pure ()
  | false => exact Action.avoids_fail _

theorem listAs (h : m.Apart core) (role : String) (t : Token) : (m.listAs role t).Avoids core :=
  Action.avoids_bind (h.requireKeys role) fun _ => h.keys t

theorem collectKeys (h : m.Apart core) (role : String) (t : Token) :
    (m.collectKeys role t).Avoids core :=
  Action.avoids_bind (h.listAs role t) fun l => Action.avoids_collect l

theorem copyKeys (hs : source.Apart core) (ht : target.Apart core) (t : Token)
    (ks stale : List Key) : (Converge.copyKeys source target t ks stale).Avoids core := by
  induction ks generalizing stale with
  | nil => exact Walk.avoids_pure stale
  | cons k ks ih =>
    refine Walk.avoids_bind (Walk.avoids_lift (hs.get k t)) fun v => ?_
    cases v with
    | none => exact ih stale
    | some v =>
      refine Walk.avoids_bind (Walk.avoids_lift (ht.add k v true t)) fun _ => ?_
      exact Walk.avoids_bind Walk.avoids_wrote fun _ => ih _

theorem copyWalk (hs : source.Apart core) (ht : target.Apart core) (t : Token) :
    (Converge.copyWalk source target t).Avoids core := by
  refine Walk.avoids_bind (Walk.avoids_lift (ht.collectKeys _ t)) fun stale => ?_
  refine Walk.avoids_bind (Walk.avoids_lift (hs.listAs _ t)) fun listing => ?_
  refine Walk.avoids_bind (hs.copyKeys ht t listing.items stale) fun stale => ?_
  refine Walk.avoids_bind (Walk.avoids_close listing) fun _ => ?_
  exact Walk.avoids_each (fun k => Walk.avoids_removing (ht.remove k t)) stale

theorem addMissing (hs : source.Apart core) (ht : target.Apart core) (t : Token) (k : Key) :
    (Converge.addMissing source target t k).Avoids core := by
  refine Walk.avoids_bind (Walk.avoids_lift (hs.get k t)) fun v => ?_
  cases v with
  | none => exact Walk.avoids_pure ()
  | some v =>
    refine Walk.avoids_bind (Walk.avoids_lift (ht.add k v false t)) fun added => ?_
    cases added with
    | true => exact Walk.avoids_wrote
    | false => exact Walk.avoids_pure ()

theorem differentialWalk (hs : source.Apart core) (ht : target.Apart core) (t : Token) :
    (Converge.differentialWalk source target t).Avoids core := by
  refine Walk.avoids_bind (Walk.avoids_lift (hs.listAs _ t)) fun listing => ?_
  refine Walk.avoids_bind (Walk.avoids_each (hs.addMissing ht t) listing.items) fun _ => ?_
  exact Walk.avoids_close listing

theorem refreshKey (hs : source.Apart core) (ht : target.Apart core) (t : Token) (k : Key) :
    (Converge.refreshKey source target t k).Avoids core := by
  refine Walk.avoids_bind (Walk.avoids_lift (hs.get k t)) fun v => ?_
  cases v with
  | none => exact Walk.avoids_removing (ht.remove k t)
  | some v =>
    refine Walk.avoids_bind (Walk.avoids_lift (ht.add k v true t)) fun _ => ?_
    exact Walk.avoids_wrote

theorem intersectionWalk (hs : source.Apart core) (ht : target.Apart core) (t : Token) :
    (Converge.intersectionWalk source target t).Avoids core := by
  refine Walk.avoids_bind (Walk.avoids_lift (ht.collectKeys _ t)) fun keys => ?_
  exact Walk.avoids_each (hs.refreshKey ht t) keys

theorem validate (hs : source.Apart core) (ht : target.Apart core) (s : Converge.Strategy) :
    (s.validate source target).Avoids core := by
  cases s with
  | copy => exact Action.avoids_bind (hs.requireKeys _) fun _ => ht.requireKeys _
  | differential => exact hs.requireKeys _
  | intersection => exact ht.requireKeys _

theorem walk (hs : source.Apart core) (ht : target.Apart core) (s : Converge.Strategy) (t : Token) :
    (s.walk source target t).Avoids core := by
  cases s with
  | copy => exact hs.copyWalk ht t
  | differential => exact hs.differentialWalk ht t
  | intersection => exact hs.intersectionWalk ht t

theorem run (hs : source.Apart core) (ht : target.Apart core) (s : Converge.Strategy) (limit : Nat)
    (t : Token) : ((s.synchronizer limit).run source target t).Avoids core :=
  Action.avoids_bind (hs.validate ht s) fun _ => avoids_drive _ _ t (hs.walk ht s t)

end KeyedStore.Apart

theorem Backend.apart_map (i : Nat) : (Backend.map i : MapStore V).Apart core where
  add _ _ _ _ := Action.avoids_call _ _
  get _ _ := Action.avoids_call _ _
  remove _ _ := Action.avoids_call _ _
  canList := Prog.avoids_map (Prog.avoids_request (r := .grants (.map i)) nofun) _
  keys _ := Action.avoids_call _ _

/-- The runs of a pair of base maps have nothing to do with any health record. -/
theorem Engine.runsApart_maps (own : Nat) (name : String) (i j : Nat) (s : Converge.Strategy)
    (limit : Nat) : (Engine.root own name (Backend.map i : MapStore V) (Backend.map j)
      (s.synchronizer limit)).RunsApart core :=
  fun t => ⟨(Backend.apart_map i).run (Backend.apart_map j) s limit t,
    (Backend.apart_map j).run (Backend.apart_map i) s limit t⟩

/-! ## Sets -/

/-- The operations of a set that convergence runs use have nothing to do with a health record. -/
structure SetStore.Apart (core : Nat) (s : SetStore V) : Prop where
  add : ∀ x t, (s.add x t).Avoids core
  remove : ∀ x t, (s.remove x t).Avoids core
  members : ∀ t, (s.members t).Avoids core

namespace SetStore.Apart

variable {s source target : SetStore V}

theorem collect (h : s.Apart core) (t : Token) : (s.collect t).Avoids core :=
  Action.avoids_bind (h.members t) fun l => Action.avoids_collect l

theorem overwriteWalk (hs : source.Apart core) (ht : target.Apart core) (t : Token) :
    (Converge.overwriteWalk source target t).Avoids core := by
  refine Walk.avoids_bind (Walk.avoids_lift (hs.collect t)) fun wanted => ?_
  refine Walk.avoids_bind (Walk.avoids_lift (ht.collect t)) fun present => ?_
  refine Walk.avoids_bind (Walk.avoids_each ?_ _) fun _ => Walk.avoids_each ?_ _
  · exact fun x => Walk.avoids_removing (ht.remove x t)
  · exact fun x => Walk.avoids_bind (Walk.avoids_lift (ht.add x t)) fun _ => Walk.avoids_wrote

theorem run (hs : source.Apart core) (ht : target.Apart core) (limit : Nat) (t : Token) :
    ((Converge.overwriteSet limit).run source target t).Avoids core :=
  Action.avoids_bind (Action.avoids_pure ()) fun _ => avoids_drive _ _ t (hs.overwriteWalk ht t)

end SetStore.Apart

theorem Backend.apart_set (i : Nat) : (Backend.set i : SetStore V).Apart core where
  add _ _ := Action.avoids_call _ _
  remove _ _ := Action.avoids_call _ _
  members _ := Action.avoids_call _ _

theorem Backend.apart_setUnder (i : Nat) (k : Key) :
    (Backend.setUnder i k : SetStore V).Apart core where
  add _ _ := Action.avoids_call _ _
  remove _ _ := Action.avoids_call _ _
  members _ := Action.avoids_call _ _

/-- The runs of a pair of base sets have nothing to do with any health record. -/
theorem Engine.runsApart_sets (own : Nat) (name : String) (i j : Nat) (limit : Nat) :
    (Engine.root own name (Backend.set i : SetStore V) (Backend.set j)
      (Converge.overwriteSet limit)).RunsApart core :=
  fun t => ⟨(Backend.apart_set i).run (Backend.apart_set j) limit t,
    (Backend.apart_set j).run (Backend.apart_set i) limit t⟩

/-- The runs of a pair of the sets under a key of two base maps of sets, derived from the pair of
the maps, have nothing to do with any health record. -/
theorem Engine.runsApart_setsUnder (e : Engine V H) (i j : Nat) (k : Key) (limit : Nat) :
    (e.derive (Backend.setUnder i k : SetStore V) (Backend.setUnder j k)
      (Converge.overwriteSet limit)).RunsApart core :=
  fun t => ⟨(Backend.apart_setUnder i k).run (Backend.apart_setUnder j k) limit t,
    (Backend.apart_setUnder j k).run (Backend.apart_setUnder i k) limit t⟩

end TwinStore
