import TwinStore.Proofs.OnDemandSets
import TwinStore.Proofs.Responses

/-!
# Sets that are fetched once

A set of the source of an `OnDemandSetMap` is fetched on first use, and the way to it is kept in a
cell. Everything that is done with a set handed out by the map goes through that cell, also what
fills and refreshes the cached set. So the way is found at most once: `Prog.FetchesOnce` says of a
program that what it finds of the way is paid for by the cell being filled, and a filled cell stays
filled whatever else happens (`Stops.isFilled_run`).

Over all turns in which a set is used, whatever fails in them and wherever they are cut short, the
source is asked for the way at most once more than it fails to tell it (`OnDemandPair.asks_once`).
-/

namespace TwinStore

variable {V ι α β : Type}

/-! ## Asking for the way to a set -/

namespace Response

/-- A base map of sets is asked for the way to the set under a key. -/
def asksWay (i : Nat) (k : Key) : Response V → Bool
  | ⟨.call (.setMap j (.reach k')) _, _⟩ => j = i ∧ k' = k
  | _ => false

/-- A call did not answer: it failed, or was cut short. -/
def isHalted : Response V → Bool
  | ⟨.call _ _, .error _⟩ => true
  | _ => false

/-- The way is told. -/
def findsWay (i : Nat) (k : Key) (r : Response V) : Bool := r.asksWay i k && !r.isHalted

/-- The way is not told. -/
def missesWay (i : Nat) (k : Key) (r : Response V) : Bool := r.asksWay i k && r.isHalted

theorem countP_asksWay (i : Nat) (k : Key) (l : List (Response V)) :
    l.countP (asksWay i k) = l.countP (missesWay i k) + l.countP (findsWay i k) := by
  rw [List.countP_eq_countP_filter_add l (asksWay i k) isHalted, List.countP_filter,
    List.countP_filter]
  rfl

/-- Only the way itself is asked for by its call. -/
theorem findsWay_eq_false {i : Nat} {k : Key} {r : Request V}
    (h : ∀ t, r ≠ .call (.setMap i (.reach k)) t) (a : r.Answer) : findsWay i k ⟨r, a⟩ = false := by
  refine Bool.and_eq_false_imp.2 fun hasks => ?_
  unfold asksWay at hasks
  split at hasks
  · rename_i heq
    obtain ⟨rfl, rfl⟩ := of_decide_eq_true hasks
    cases heq
    exact absurd rfl (h _)
  · cases hasks

end Response

/-! ## Filled cells -/

/-- Whether the way to a set is kept in a cell. -/
def World.isFilled (w : World V) (cell : Nat) : Bool :=
  (w.cells.nth cell).isSome

namespace Stops

variable {stops : Stops V} {w : World V} {cell : Nat}

/-- A call changes no cell. -/
theorem cells_call (w : World V) (c : Call V) (t : Token) :
    (stops.regime.call w c t).2.cells = w.cells := by
  have hperform : ∀ w : World V, (w.perform c).2.cells = w.cells := by
    intro w
    cases c <;> rfl
  have hunder (failure : Option Failure) : (w.callUnder failure c t).2.cells = w.cells :=
    World.callUnder_frame World.cells (fun _ _ => rfl) c hperform w failure t
  unfold regime
  dsimp only
  cases stops w.visits.length c with
  | none => exact hunder none
  | some stop =>
    cases stop with
    | failure f => exact hunder (some f)
    | cut run => rfl

/-- A filled cell stays filled. -/
theorem isFilled_answer (h : w.isFilled cell = true) (r : Request V) :
    (stops.regime.answer r w).2.isFilled cell = true := by
  unfold World.isFilled at h ⊢
  cases r with
  | call c t =>
    rw [show (stops.regime.answer (.call c t) w).2.cells = w.cells from cells_call w c t]
    exact h
  | fillCell c route =>
    change ((w.cells.put c (some route)).nth cell).isSome = true
    by_cases hc : c = cell
    · subst hc
      rw [Shelf.nth_put_self]
      rfl
    · rw [Shelf.nth_put_of_ne _ _ hc]
      exact h
  | _ => exact h

theorem isFilled_run (h : w.isFilled cell = true) (p : Prog V α) :
    (stops.regime.run w p).2.isFilled cell = true := by
  induction p generalizing w with
  | ret a => exact h
  | ask r next ih => exact ih _ (isFilled_answer h r)

end Stops

/-! ## Programs that fetch once -/

/-- In every world, the program finds the way to a set no oftener than it fills the cell for it: at
most once, and not at all if the cell is filled already. -/
def Prog.FetchesOnce (stops : Stops V) (i : Nat) (k : Key) (cell : Nat) (p : Prog V α) : Prop :=
  ∀ w, (stops.regime.responses p w).countP (Response.findsWay i k) + (w.isFilled cell).toNat ≤
    ((stops.regime.run w p).2.isFilled cell).toNat

section FetchesOnce

variable {stops : Stops V} {i : Nat} {k : Key} {cell : Nat}

namespace Prog

theorem once_ret (a : α) : (ret a : Prog V α).FetchesOnce stops i k cell := by
  intro w
  exact Nat.le_of_eq (Nat.zero_add _)

/-- One program after another fetches once if the one does, and the other after any end of it. -/
theorem FetchesOnce.bind {p : Prog V α} {f : α → Prog V β} (hp : p.FetchesOnce stops i k cell)
    (hf : ∀ w, (f (stops.regime.run w p).1).FetchesOnce stops i k cell) :
    (p >>= f).FetchesOnce stops i k cell := by
  intro w
  have hfirst := hp w
  have hrest := hf w (stops.regime.run w p).2
  rw [Regime.responses_bind, List.countP_append, Regime.run_bind]
  omega

/-- A request that is not for the way fetches nothing. -/
theorem once_request {r : Request V} (h : ∀ t, r ≠ .call (.setMap i (.reach k)) t) :
    (request r).FetchesOnce stops i k cell := by
  intro w
  have hstays : w.isFilled cell = true → (stops.regime.answer r w).2.isFilled cell = true :=
    fun hw => Stops.isFilled_answer hw r
  change [(⟨r, (stops.regime.answer r w).1⟩ : Response V)].countP _ + _ ≤
    ((stops.regime.answer r w).2.isFilled cell).toNat
  rw [List.countP_singleton, Response.findsWay_eq_false h]
  cases hw : w.isFilled cell with
  | false => simp
  | true => simp [hstays hw]

end Prog

/-! ### Actions -/

namespace Action

/-- `Prog.FetchesOnce`, of an action. -/
def FetchesOnce (stops : Stops V) (i : Nat) (k : Key) (cell : Nat) (a : Action V α) : Prop :=
  a.run.FetchesOnce stops i k cell

theorem once_pure (x : α) : (pure x : Action V α).FetchesOnce stops i k cell := Prog.once_ret _

theorem once_fail (e : StoreError) : (fail e : Action V α).FetchesOnce stops i k cell :=
  Prog.once_ret _

/-- One action after another fetches once if the one does, and the other after any good end of
it. -/
theorem FetchesOnce.bind_of {a : Action V α} {f : α → Action V β}
    (ha : a.FetchesOnce stops i k cell)
    (hf : ∀ w x, (stops.regime.act w a).1 = .ok x → (f x).FetchesOnce stops i k cell) :
    (a >>= f).FetchesOnce stops i k cell := by
  refine Prog.FetchesOnce.bind ha fun w => ?_
  change Prog.FetchesOnce stops i k cell (ExceptT.bindCont f (stops.regime.act w a).1)
  cases hr : (stops.regime.act w a).1 with
  | ok x => exact hf w x hr
  | error halt => exact Prog.once_ret _

theorem FetchesOnce.bind {a : Action V α} {f : α → Action V β} (ha : a.FetchesOnce stops i k cell)
    (hf : ∀ x, (f x).FetchesOnce stops i k cell) : (a >>= f).FetchesOnce stops i k cell :=
  ha.bind_of fun _ x _ => hf x

theorem once_lift {p : Prog V α} (hp : p.FetchesOnce stops i k cell) :
    FetchesOnce stops i k cell (ExceptT.lift p : Action V α) :=
  Prog.FetchesOnce.bind hp fun _ => Prog.once_ret _

theorem once_ask {r : Request V} (h : ∀ t, r ≠ .call (.setMap i (.reach k)) t) :
    (ask r).FetchesOnce stops i k cell :=
  once_lift (Prog.once_request h)

theorem once_count (m : Measure) (n : Nat) :
    (count m n : Action V Unit).FetchesOnce stops i k cell :=
  once_ask (by nofun)

theorem once_call {c : Call V} (h : c ≠ .setMap i (.reach k)) (t : Token) :
    (call c t).FetchesOnce stops i k cell :=
  Prog.once_request fun _ heq => h (Request.call.inj heq).1

theorem FetchesOnce.attempt {a : Action V α} (ha : a.FetchesOnce stops i k cell) :
    a.attempt.FetchesOnce stops i k cell := by
  refine Prog.FetchesOnce.bind ha fun w => ?_
  rcases (stops.regime.run w a.run).1 with (_ | _) | _ <;> exact Prog.once_ret _

theorem once_collectListing (l : Listing ι) :
    (l.collect : Action V (List ι)).FetchesOnce stops i k cell := by
  unfold Listing.collect
  cases l.failure with
  | none => exact once_pure _
  | some e => exact once_fail e

end Action

/-! ### Walks -/

namespace Walk

/-- `Prog.FetchesOnce`, of a walk, whatever it has counted so far. -/
def FetchesOnce (stops : Stops V) (i : Nat) (k : Key) (cell : Nat) (a : Walk V α) : Prop :=
  ∀ n, (a.run.run n).FetchesOnce stops i k cell

theorem once_pure (x : α) : (pure x : Walk V α).FetchesOnce stops i k cell :=
  fun _ => Prog.once_ret _

theorem FetchesOnce.bind {a : Walk V α} {f : α → Walk V β} (ha : a.FetchesOnce stops i k cell)
    (hf : ∀ x, (f x).FetchesOnce stops i k cell) : (a >>= f).FetchesOnce stops i k cell := by
  refine fun n => Prog.FetchesOnce.bind (ha n) fun w => ?_
  rcases (stops.regime.run w (a n)).1 with ⟨halt | x, n'⟩
  · exact Prog.once_ret _
  · exact hf x n'

theorem once_lift {a : Action V α} (ha : a.FetchesOnce stops i k cell) :
    (liftM a : Walk V α).FetchesOnce stops i k cell :=
  fun _ => Prog.FetchesOnce.bind ha fun _ => Prog.once_ret _

theorem once_wrote : (wrote : Walk V Unit).FetchesOnce stops i k cell :=
  fun _ => Prog.once_ret _

theorem once_removing {remove : Action V Bool} (h : remove.FetchesOnce stops i k cell) :
    (removing remove).FetchesOnce stops i k cell := by
  refine (once_lift h).bind fun found => ?_
  cases found <;> exact fun _ => Prog.once_ret _

theorem once_each {f : α → Walk V Unit} (hf : ∀ x, (f x).FetchesOnce stops i k cell)
    (items : List α) : (each items f).FetchesOnce stops i k cell := by
  induction items with
  | nil => exact once_pure ()
  | cons x rest ih => exact (hf x).bind fun _ => ih

end Walk

theorem Report.once_conclude (name : String) (tally : Tally) (timedOut : Bool) :
    (conclude name tally timedOut : Action V Report).FetchesOnce stops i k cell := by
  refine (Action.once_count _ _).bind fun _ => (Action.once_count _ _).bind fun _ => ?_
  refine (Action.once_count _ _).bind fun _ => (Action.once_count _ _).bind fun _ => ?_
  exact Action.once_pure _

theorem once_drive (name : String) (limit : Nat) (t : Token) {walk : Walk V Unit}
    (h : walk.FetchesOnce stops i k cell) :
    (drive name limit t walk).FetchesOnce stops i k cell := by
  refine (Action.once_ask (by nofun)).bind fun cancelled => ?_
  cases cancelled with
  | true => exact Report.once_conclude _ _ _
  | false =>
    refine (Action.once_ask (by nofun)).bind fun run => ?_
    refine (Action.once_lift (h {})).bind fun out => ?_
    obtain ⟨result, tally⟩ := out
    refine (Action.once_ask (by nofun)).bind fun _ => ?_
    rcases result with (cause | n) | _
    · refine (Action.once_count _ _).bind fun _ => ?_
      exact (Action.once_count _ _).bind fun _ => Action.once_fail cause
    · dsimp only
      split
      · exact Report.once_conclude _ _ _
      · exact (Action.once_count _ _).bind fun _ => Prog.once_ret _
    · exact Report.once_conclude _ _ _

/-! ## Sets -/

/-- Whatever is asked of the set, the way is fetched once. -/
def SetStore.FetchesOnce (stops : Stops V) (i : Nat) (k : Key) (cell : Nat)
    (s : SetStore V) : Prop :=
  ∀ (op : SetOp) (t : Token), (op.on s t).FetchesOnce stops i k cell

theorem SetStore.once_ofMembers (c : MemberSet) :
    (SetStore.ofMembers c : SetStore V).FetchesOnce stops i k cell := by
  intro op t
  cases op <;> exact Action.once_pure _

theorem Backend.once_setUnder (j : Nat) (k' : Key) :
    (Backend.setUnder j k' : SetStore V).FetchesOnce stops i k cell := by
  intro op t
  cases op <;> exact Action.once_call (by nofun) t

namespace SetStore.FetchesOnce

variable {s source cache : SetStore V}

theorem collect (h : s.FetchesOnce stops i k cell) (t : Token) :
    (s.collect t).FetchesOnce stops i k cell :=
  (h .members t).bind fun l => Action.once_collectListing l

theorem overwriteWalk (hs : source.FetchesOnce stops i k cell)
    (hc : cache.FetchesOnce stops i k cell) (t : Token) :
    (Converge.overwriteWalk source cache t).FetchesOnce stops i k cell := by
  refine (Walk.once_lift (hs.collect t)).bind fun wanted => ?_
  refine (Walk.once_lift (hc.collect t)).bind fun present => ?_
  refine (Walk.once_each ?_ _).bind fun _ => Walk.once_each ?_ _
  · exact fun x => Walk.once_removing (hc (.remove x) t)
  · exact fun x => (Walk.once_lift (hc (.add x) t)).bind fun _ => Walk.once_wrote

theorem refresh (hs : source.FetchesOnce stops i k cell) (hc : cache.FetchesOnce stops i k cell)
    (name : String) (limit : Nat) (t : Token) :
    (CacheTier.refresh { name, source, cache, synchronizer := Converge.overwriteSet limit }
      t).FetchesOnce stops i k cell :=
  (Action.once_pure ()).bind fun _ => once_drive _ _ t (hs.overwriteWalk hc t)

end SetStore.FetchesOnce

/-! ### Sets fetched on first use -/

/-- Fetching reads the cell; if it is empty, it takes the lock, reads again, asks and fills it. -/
theorem LazySet.run_resolve (t : Token) :
    (LazySet.resolve (V := V) { map := Backend.setMap i, key := k, cell } t).run =
      .ask (.readCell cell) fun
        | some _ => .ret (.ok (Backend.setUnder i k))
        | none => .ask (.acquire (.cell cell)) fun
          | .error halt => .ret (.error halt)
          | .ok () => .ask (.readCell cell) fun
            | some _ => .ask (.release (.cell cell)) fun _ => .ret (.ok (Backend.setUnder i k))
            | none => .ask (.call (.setMap i (.reach k)) t) fun
              | .error halt => .ask (.release (.cell cell)) fun _ => .ret (.error halt)
              | .ok () => .ask (.fillCell cell .direct) fun _ =>
                .ask (.release (.cell cell)) fun _ => .ret (.ok (Backend.setUnder i k)) := by
  refine congrArg (Prog.ask _) (funext fun found => ?_)
  cases found with
  | some route => rfl
  | none =>
    refine congrArg (Prog.ask _) (funext fun held => ?_)
    cases held with
    | error halt => rfl
    | ok =>
      refine congrArg (Prog.ask _) (funext fun found => ?_)
      cases found with
      | some route => rfl
      | none =>
        refine congrArg (Prog.ask _) (funext fun told => ?_)
        cases told <;> rfl

/-- Whoever finds the cell empty asks for the way, and fills the cell if it is told. -/
theorem LazySet.once_resolve (t : Token) :
    (LazySet.resolve (V := V) { map := Backend.setMap i, key := k, cell } t).FetchesOnce
      stops i k cell := by
  intro w
  rw [LazySet.run_resolve]
  have hread : stops.regime.answer (.readCell cell) w = (w.cells.nth cell, w) := rfl
  have hheld : stops.regime.answer (.acquire (.cell cell)) w = (.ok (), w) := rfl
  cases hcell : w.cells.nth cell with
  | some route =>
    simp only [Regime.responses, Regime.run_ask, Regime.run_ret, hread, hcell]
    exact Nat.le_of_eq (Nat.zero_add _)
  | none =>
    have hempty : w.isFilled cell = false := by rw [World.isFilled, hcell]; rfl
    simp only [Regime.responses, Regime.run_ask, hread, hcell, hheld, hempty]
    cases htold : (stops.regime.answer (.call (.setMap i (.reach k)) t) w).1 with
    | error halt =>
      simp [Regime.responses, Response.findsWay, Response.asksWay, Response.isHalted]
    | ok =>
      have hfilled {w' : World V} :
          (stops.regime.answer (.fillCell cell .direct) w').2.isFilled cell = true := by
        change ((w'.cells.put cell _).nth cell).isSome = true
        rw [Shelf.nth_put_self]
        rfl
      have hreleased {w' : World V} (h : w'.isFilled cell = true) :
          (stops.regime.answer (.release (.cell cell)) w').2.isFilled cell = true :=
        Stops.isFilled_answer h _
      simp [Regime.responses, Response.findsWay, Response.asksWay, Response.isHalted,
        hreleased hfilled]

/-- What is fetched is the base set. -/
theorem LazySet.resolve_eq {w : World V} {t : Token} {set : SetStore V}
    (h : (stops.regime.act w
      (LazySet.resolve { map := Backend.setMap i, key := k, cell } t)).1 = .ok set) :
    set = Backend.setUnder i k := by
  unfold Regime.act at h
  rw [LazySet.run_resolve] at h
  have hread : stops.regime.answer (.readCell cell) w = (w.cells.nth cell, w) := rfl
  have hheld : stops.regime.answer (.acquire (.cell cell)) w = (.ok (), w) := rfl
  cases hcell : w.cells.nth cell with
  | some route =>
    simp only [Regime.run_ask, Regime.run_ret, hread, hcell] at h
    exact (Except.ok.inj h).symm
  | none =>
    simp only [Regime.run_ask, hread, hcell, hheld] at h
    cases htold : (stops.regime.answer (.call (.setMap i (.reach k)) t) w).1 with
    | error halt =>
      simp only [htold, Regime.run_ask, Regime.run_ret] at h
      cases h
    | ok =>
      simp only [htold, Regime.run_ask, Regime.run_ret] at h
      exact (Except.ok.inj h).symm

theorem LazySet.once_store :
    (LazySet.store (V := V) { map := Backend.setMap i, key := k, cell }).FetchesOnce stops i k
      cell := by
  intro op t
  have hsteps : op.on (LazySet.store (V := V) { map := Backend.setMap i, key := k, cell }) t =
      LazySet.resolve { map := Backend.setMap i, key := k, cell } t >>= fun set => op.on set t := by
    cases op <;> rfl
  rw [hsteps]
  refine (LazySet.once_resolve t).bind_of fun w set hset => ?_
  rw [LazySet.resolve_eq hset]
  exact Backend.once_setUnder i k op t

/-! ### Cached sets -/

namespace OnDemandSet

variable {s : OnDemandSet V} (hs : s.source.FetchesOnce stops i k cell)
  (hc : s.cache.FetchesOnce stops i k cell)
  (hslide : ∀ slide ∈ s.slide, ∀ t, (slide t).FetchesOnce stops i k cell)

section Touch

include hslide

theorem once_touch (t : Token) : (s.touch t).FetchesOnce stops i k cell := by
  unfold touch
  cases h : s.slide with
  | none => exact Action.once_pure ()
  | some slide => exact (hslide slide h t).bind fun _ => Action.once_pure ()

end Touch

include hc

theorem once_addUntilError (t : Token) (xs : List String) (seeded : Nat) :
    (s.addUntilError t xs seeded).FetchesOnce stops i k cell := by
  induction xs generalizing seeded with
  | nil => exact Action.once_pure seeded
  | cons x xs ih =>
    refine (Action.FetchesOnce.attempt (hc (.add x) t)).bind fun r => ?_
    cases r with
    | ok => exact ih (seeded + 1)
    | error => exact (Action.once_count _ _).bind fun _ => Action.once_pure seeded

include hslide

theorem once_add (x : String) (t : Token) : (s.add x t).FetchesOnce stops i k cell := by
  refine Action.FetchesOnce.bind (hc .count t) fun n => ?_
  split
  · exact Action.once_pure ()
  · exact Action.FetchesOnce.bind (hc (.add x) t) fun _ => once_touch hslide t

theorem once_contains (x : String) (t : Token) : (s.contains x t).FetchesOnce stops i k cell := by
  refine Action.FetchesOnce.bind (hc (.contains x) t) fun found => ?_
  cases found with
  | false => exact Action.once_pure false
  | true =>
    exact Action.FetchesOnce.bind (hc (.add x) t) fun _ =>
      (once_touch hslide t).bind fun _ => Action.once_pure true

include hs

theorem once_seed (t : Token) : (s.seed t).FetchesOnce stops i k cell := by
  refine (hs.collect t).bind fun members => ?_
  cases members.isEmpty with
  | true => exact Action.once_pure members
  | false =>
    refine (once_addUntilError hc t members 0).bind fun seeded => ?_
    dsimp only
    split
    · exact (once_touch hslide t).attempt.bind fun _ =>
        (Action.once_count _ _).bind fun _ => Action.once_pure members
    · exact (Action.once_count _ _).bind fun _ => Action.once_pure members

theorem once_collect (t : Token) : (s.collect t).FetchesOnce stops i k cell := by
  refine (hc.collect t).bind fun cached => ?_
  cases cached.isEmpty with
  | true => exact once_seed hs hc hslide t
  | false => exact Action.once_pure cached

theorem once_count (t : Token) : (s.count t).FetchesOnce stops i k cell := by
  refine Action.FetchesOnce.bind (hc .count t) fun cached => ?_
  split
  · exact Action.once_pure cached
  · exact (once_seed hs hc hslide t).bind fun _ => Action.once_pure _

theorem once_store : s.store.FetchesOnce stops i k cell := by
  intro op t
  cases op with
  | add x => exact once_add hc hslide x t
  | remove x => exact hc (.remove x) t
  | members => exact (once_collect hs hc hslide t).bind fun _ => Action.once_pure _
  | contains x => exact once_contains hc hslide x t
  | count => exact once_count hs hc hslide t

end OnDemandSet

namespace CacheTier

variable {H : Type} {c : CacheTier V H} (op : H → Action V α)

theorem once_probe [CacheProbe α] (h : (op c.cache).FetchesOnce stops i k cell) :
    (c.probe op).FetchesOnce stops i k cell := by
  refine h.attempt.bind fun r => ?_
  cases r with
  | ok a => exact (Action.once_count _ _).bind fun _ => Action.once_pure _
  | error => exact (Action.once_count _ _).bind fun _ => Action.once_pure none

theorem once_read [CacheProbe α] {backfill : H → α → Action V Unit}
    (hs : (op c.source).FetchesOnce stops i k cell) (hc : (op c.cache).FetchesOnce stops i k cell)
    (hback : ∀ a, (backfill c.cache a).FetchesOnce stops i k cell) :
    (c.read op backfill).FetchesOnce stops i k cell := by
  refine (once_probe op hc).bind fun answer => ?_
  cases answer with
  | some a => exact Action.once_pure a
  | none =>
    refine hs.bind fun a => ?_
    dsimp only
    split
    · refine (hback a).attempt.bind fun r => ?_
      cases r with
      | ok => exact Action.once_pure a
      | error => exact (Action.once_count _ _).bind fun _ => Action.once_pure a
    · exact Action.once_pure a

theorem once_readThrough [CacheProbe α] (hs : (op c.source).FetchesOnce stops i k cell)
    (hc : (op c.cache).FetchesOnce stops i k cell) :
    (c.readThrough op).FetchesOnce stops i k cell := by
  refine (once_probe op hc).bind fun answer => ?_
  cases answer with
  | some a => exact Action.once_pure a
  | none => exact hs

theorem once_write {update : H → α → Option (Action V Bool)}
    (hs : (op c.source).FetchesOnce stops i k cell)
    (hupdate : ∀ a, ∀ change ∈ update c.cache a, change.FetchesOnce stops i k cell)
    (hrefresh : (c.refresh none).FetchesOnce stops i k cell) :
    (c.write op update).FetchesOnce stops i k cell := by
  refine hs.bind fun a => ?_
  cases h : update c.cache a with
  | none => exact Action.once_pure a
  | some change =>
    have hafter (applied : Bool) : Action.FetchesOnce stops i k cell (do
        if !applied then
          let _ ← Action.attempt (c.refresh none)
        return a : Action V α) := by
      cases applied with
      | true => exact Action.once_pure a
      | false => exact hrefresh.attempt.bind fun _ => Action.once_pure a
    refine (hupdate a change h).attempt.bind fun r => ?_
    cases r with
    | ok accepted => exact hafter accepted
    | error => exact (Action.once_count _ _).bind fun _ => hafter false

end CacheTier

namespace CacheSet

variable {source cache : SetStore V} (hs : source.FetchesOnce stops i k cell)
  (hc : cache.FetchesOnce stops i k cell)
include hs hc

omit hs in
theorem once_addAll (t : Token) (xs : List String) :
    (addAll cache t xs).FetchesOnce stops i k cell := by
  induction xs with
  | nil => exact Action.once_pure ()
  | cons x xs ih => exact Action.FetchesOnce.bind (hc (.add x) t) fun _ => ih

theorem once_store (name : String) (limit : Nat) :
    (make name source cache limit).store.FetchesOnce stops i k cell := by
  intro op t
  let c := make name source cache limit
  have hrefresh : (c.tier.refresh none).FetchesOnce stops i k cell := hs.refresh hc name limit none
  cases op with
  | add x =>
    change (c.tier.write (fun set => set.add x t) fun cache _ => some do
      cache.add x t
      return true).FetchesOnce stops i k cell
    refine CacheTier.once_write _ (hs (.add x) t) (fun _ change h => ?_) hrefresh
    cases h
    exact Action.FetchesOnce.bind (hc (.add x) t) fun _ => Action.once_pure true
  | remove x =>
    change (c.tier.write (fun set => set.remove x t) fun cache _ => some do
      let _ ← cache.remove x t
      return true).FetchesOnce stops i k cell
    refine CacheTier.once_write _ (hs (.remove x) t) (fun _ change h => ?_) hrefresh
    cases h
    exact Action.FetchesOnce.bind (hc (.remove x) t) fun _ => Action.once_pure true
  | members =>
    change (c.tier.read (fun set => set.collect t) (fun cache xs => addAll cache t xs) >>=
      fun xs => pure (Listing.full xs)).FetchesOnce stops i k cell
    refine (CacheTier.once_read _ (hs.collect t) (hc.collect t) ?_).bind fun _ => Action.once_pure _
    exact fun xs => once_addAll hc t xs
  | contains x =>
    change (c.tier.read (fun set => set.contains x t) fun cache _ =>
      cache.add x t).FetchesOnce stops i k cell
    exact CacheTier.once_read _ (hs (.contains x) t) (hc (.contains x) t) fun _ => hc (.add x) t
  | count =>
    change (c.tier.readThrough fun set => set.count t).FetchesOnce stops i k cell
    exact CacheTier.once_readThrough _ (hs .count t) (hc .count t)

end CacheSet

end FetchesOnce

/-! ## Sets that were handed out -/

/-- The cell that a way leads through. -/
def Route.cell : Route → Nat
  | .cached _ cell => cell
  | .uncached cell => cell
  | _ => 0

namespace OnDemandPair

variable (p : OnDemandPair) (stops : Stops V)

theorem once_slide (i : Nat) (k k' : Key) (cell ttl : Nat) (t : Token) :
    ((Backend.setMap (V := V) p.cache).touch k' ttl t).FetchesOnce stops i k cell := by
  have hgrants : Action.FetchesOnce stops i k cell
      (ExceptT.lift (Backend.setMap (V := V) p.cache).canExpire) :=
    Action.once_lift ((Prog.once_request (by nofun)).bind fun _ => Prog.once_ret _)
  refine hgrants.bind fun can => ?_
  cases can with
  | true => exact Action.once_call (by nofun) t
  | false => exact Action.once_pure false

/-- A set that was handed out is fetched once. -/
theorem once_follow (l : Lent Unit) :
    (l.follow fun _ => (p.map V).store).FetchesOnce stops p.source l.key l.route.cell := by
  have hlazy (cell : Nat) :
      ((p.map V).sourceSet l.key cell).FetchesOnce stops p.source l.key cell :=
    LazySet.once_store
  unfold Lent.follow
  cases hroute : l.route with
  | cached cache cell =>
    refine CacheSet.once_store (hlazy cell) (OnDemandSet.once_store (hlazy cell) ?_ ?_) _ _
    · exact Backend.once_setUnder p.cache l.key
    · intro slide hslide t
      obtain ⟨ttl, -, rfl⟩ := Option.map_eq_some_iff.1 hslide
      exact p.once_slide stops _ _ _ _ _ t
  | uncached cell => exact hlazy cell
  | direct | paired | primaryOnly | secondaryOnly => exact Backend.once_setUnder p.source l.key

end OnDemandPair

/-! ## Turns -/

/-- Whether a use is one of the set that was handed out in the given place. -/
def SetUse.isOf (place : Nat) : SetUse ι → Bool
  | .member q _ => q = place
  | .add _ _ (.lent q) _ => q = place
  | _ => false

namespace Custody

variable (g : Regime V) (maps : ι → SetMapStore V)

/-- What the base stores are asked, and answer, in the turns that use the set that was handed out in
the given place. -/
def responsesOf (place : Nat) : Custody V ι → List (Turn (SetUse ι)) → List (Response V)
  | _, [] => []
  | h, turn :: rest =>
    (if turn.op.isOf place then
      g.responses (turn.op.on maps h.lent turn.token).run (h.world.atTime turn.time)
    else []) ++ responsesOf place (h.serve g maps turn) rest

variable {g maps} in
/-- What was handed out keeps its place. -/
theorem getElem?_lent_serveAll {h : Custody V ι} {place : Nat} {l : Lent ι}
    (hl : h.lent[place]? = some l) (turns : List (Turn (SetUse ι))) :
    (h.serveAll g maps turns).lent[place]? = some l := by
  induction turns generalizing h with
  | nil => exact hl
  | cons turn rest ih =>
    refine ih (h := h.serve g maps turn) ?_
    exact List.getElem?_append_left (List.getElem?_eq_some_iff.1 hl).1 ▸ hl

end Custody

namespace OnDemandPair

variable {p : OnDemandPair} {stops : Stops V} {place : Nat} {l : Lent Unit}

/-- A turn in which the set that was handed out in the given place is used, if it was already. -/
theorem once_use {use : SetUse Unit} (huse : use.isOf place = true) {lent : List (Lent Unit)}
    (hl : ∀ l', lent[place]? = some l' → l' = l) (t : Token) :
    (use.on (fun _ => (p.map V).store) lent t).FetchesOnce stops p.source l.key l.route.cell := by
  match use, huse with
  | .member q op, huse =>
    obtain rfl : q = place := of_decide_eq_true huse
    cases hq : lent[q]? with
    | none =>
      rw [SetUse.on_member_of_none hq]
      exact Action.once_pure none
    | some l' =>
      obtain rfl := hl l' hq
      rw [SetUse.on_member_of_some hq]
      exact Action.FetchesOnce.bind (p.once_follow stops l' op t) fun _ => Action.once_pure _
  | .add _ k (.lent q) overwrite, huse =>
    obtain rfl : q = place := of_decide_eq_true huse
    have hset : (Whole.set (fun _ => (p.map V).store) lent (.lent q)).FetchesOnce stops p.source
        l.key l.route.cell := by
      change SetStore.FetchesOnce _ _ _ _
        ((lent[q]?.map (Lent.follow fun _ => (p.map V).store)).getD (.ofMembers ∅))
      cases hq : lent[q]? with
      | none => exact SetStore.once_ofMembers ∅
      | some l' =>
        obtain rfl := hl l' hq
        exact p.once_follow stops l'
    have hadd : (Backend.addSet p.source k (Whole.set (fun _ => (p.map V).store) lent (.lent q))
        overwrite t).FetchesOnce stops p.source l.key l.route.cell := by
      refine (Action.once_call (c := .setMap p.source (.add k overwrite)) (by nofun) t).bind
        fun accepted => ?_
      cases accepted with
      | false => exact Action.once_pure false
      | true =>
        exact (hset.collect t).bind fun _ => (Action.once_ask (by nofun)).bind fun _ =>
          Action.once_pure true
    refine Action.FetchesOnce.bind hadd fun added => ?_
    cases added with
    | false => exact Action.once_pure false
    | true =>
      refine Action.FetchesOnce.bind ?_ fun _ => Action.once_pure true
      have hremove : ((Backend.setMap (V := V) p.cache).remove k t).FetchesOnce stops p.source l.key
          l.route.cell :=
        Action.once_call (c := .setMap p.cache (.remove k))
          (fun h => nomatch (Call.setMap.inj h).2) t
      refine hremove.attempt.bind fun r => ?_
      cases r with
      | ok => exact Action.once_pure ()
      | error => exact Action.once_count _ _

/-- Turn after turn, the way to a set that was handed out is found once. -/
theorem finds_once (h : Custody V Unit) (turns : List (Turn (SetUse Unit)))
    (hl : (h.serveAll stops.regime (fun _ => (p.map V).store) turns).lent[place]? = some l) :
    (h.responsesOf stops.regime (fun _ => (p.map V).store) place turns).countP
        (Response.findsWay p.source l.key) + (h.world.isFilled l.route.cell).toNat ≤ 1 := by
  induction turns generalizing h with
  | nil =>
    change 0 + _ ≤ 1
    rw [Nat.zero_add]
    exact Bool.toNat_le _
  | cons turn rest ih =>
    have hrest := ih (h.serve stops.regime (fun _ => (p.map V).store) turn) hl
    unfold Custody.responsesOf
    rw [List.countP_append]
    by_cases huse : turn.op.isOf place = true
    · have hsame (l' : Lent Unit) (hl' : h.lent[place]? = some l') : l' = l :=
        Option.some.inj ((Custody.getElem?_lent_serveAll hl' (turn :: rest)).symm.trans hl)
      have hturn : (turn.op.on (fun _ => (p.map V).store) h.lent turn.token).FetchesOnce stops
          p.source l.key l.route.cell := once_use huse hsame turn.token
      have hfirst := hturn (h.world.atTime turn.time)
      rw [if_pos huse]
      change _ + (h.world.isFilled l.route.cell).toNat ≤ _ at hfirst
      change _ + ((stops.regime.run _ _).2.isFilled l.route.cell).toNat ≤ 1 at hrest
      omega
    · have hstays : h.world.isFilled l.route.cell = true →
          (h.serve stops.regime (fun _ => (p.map V).store) turn).world.isFilled l.route.cell =
            true :=
        fun hw => Stops.isFilled_run (w := h.world.atTime turn.time) hw _
      rw [if_neg huse, List.countP_nil, Nat.zero_add]
      cases hw : h.world.isFilled l.route.cell with
      | false => exact Nat.le_trans (by simp) hrest
      | true =>
        rw [hstays hw] at hrest
        exact hrest

/-- Over all the turns in which a set is used that was handed out, the source is asked for the way
to it at most once more than it fails to tell it. -/
theorem asks_once (h : Custody V Unit) (turns : List (Turn (SetUse Unit)))
    (hl : (h.serveAll stops.regime (fun _ => (p.map V).store) turns).lent[place]? = some l) :
    let made := h.responsesOf stops.regime (fun _ => (p.map V).store) place turns
    made.countP (Response.asksWay p.source l.key) ≤
      made.countP (Response.missesWay p.source l.key) + 1 := by
  intro made
  have hfound := finds_once h turns hl
  change made.countP _ + _ ≤ 1 at hfound
  rw [Response.countP_asksWay]
  omega

end OnDemandPair

end TwinStore
