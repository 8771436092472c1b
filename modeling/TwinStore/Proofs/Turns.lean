import TwinStore.Proofs.PairedMaps
import TwinStore.Proofs.PairedSets

/-!
# Callers of a pair, one after the other

A pair of maps is written to in one of two ways (`Doubling`): to both maps, or to the secondary what
the primary has accepted. A pair of sets is always backed up. Callers take turns: each is served to
its end before the next comes, and `serveAll` is the world after all of them.

`performAll` serves them with the convergence runs marked, so that it also tells the journal of all
that took place; the worlds are the same (`serveAll_erase`). Seen as scenes, a run of turns is a
`Scene.Run` of what the templates can do (`performAll_run`): invariants of runs are proved there, by
induction.
-/

namespace TwinStore

variable {V σ Op : Type}

/-! ## What callers ask for -/

/-- Operations of a map, except those that let keys expire. -/
inductive PlainOp (V : Type) where
  | add (key : Key) (value : V) (overwrite : Bool)
  | get (key : Key)
  | remove (key : Key)
  | contains (key : Key)
  | keys

namespace PlainOp

/-- What an operation answers. -/
@[reducible] def Answer : PlainOp V → Type
  | .get _ => Option V
  | .keys => Listing Key
  | _ => Bool

/-- Carry out an operation on a map. -/
def on (m : MapStore V) (t : Token) : (op : PlainOp V) → Action V op.Answer
  | .add k v overwrite => m.add k v overwrite t
  | .get k => m.get k t
  | .remove k => m.remove k t
  | .contains k => m.contains k t
  | .keys => m.keys t

/-- What an operation leaves of what a map holds. -/
def after : PlainOp V → Entries V → Entries V
  | .add k v overwrite => (Entries.adding k v overwrite).after
  | .remove k => (Entries.removing k).after
  | _ => id

end PlainOp

/-- Carry out an operation on a set. -/
def SetOp.on (s : SetStore V) (t : Token) : (op : SetOp) → Action V op.Answer
  | .add x => s.add x t
  | .remove x => s.remove x t
  | .members => s.members t
  | .contains x => s.contains x t
  | .count => s.count t

/-- How a pair of maps is written to: both are, or the secondary is once the primary has accepted.
-/
inductive Doubling where
  | replicated
  | backup

namespace Doubling

/-- The pair as a map. -/
def store (d : Doubling) (e : Engine V (MapStore V)) : MapStore V :=
  match d with
  | replicated => e.replicatedMap
  | backup => e.backupMap

/-- A write to the pair, its convergence runs marked. -/
def markedWrite (d : Doubling) (e : Engine V (MapStore V)) (op : MapStore V → Action V Bool) :
    MarkedAction V Bool :=
  match d with
  | replicated => e.markedReplicate fun m => liftM (op m)
  | backup => e.markedBackup fun m => liftM (op m)

/-- An operation of the pair, its convergence runs marked. -/
def marked (d : Doubling) (e : Engine V (MapStore V)) (t : Token) :
    (op : PlainOp V) → MarkedAction V op.Answer
  | .add k v overwrite => d.markedWrite e fun m => m.add k v overwrite t
  | .get k => e.markedFallback fun m => liftM (m.get k t)
  | .remove k => d.markedWrite e fun m => m.remove k t
  | .contains k => e.markedFallback fun m => liftM (m.contains k t)
  | .keys => do return .full (← e.markedFallback fun m => liftM (m.collectKeys "replica" t))

theorem erase_markedWrite (d : Doubling) (e : Engine V (MapStore V))
    (op : MapStore V → Action V Bool) :
    (d.markedWrite e op).erase =
      match d with
      | replicated => e.replicate op
      | backup => e.backup op := by
  cases d with
  | replicated =>
    have h := e.erase_markedReplicate fun m => liftM (op m)
    simp only [MarkedAction.erase_lift] at h
    exact h
  | backup =>
    have h := e.erase_markedBackup fun m => liftM (op m)
    simp only [MarkedAction.erase_lift] at h
    exact h

/-- Marks aside, a marked operation of a pair of maps is the operation. -/
theorem erase_marked (d : Doubling) (e : Engine V (MapStore V)) (t : Token) (op : PlainOp V) :
    (d.marked e t op).erase = op.on (d.store e) t := by
  cases op with
  | get k =>
    have h := e.erase_markedFallback fun m => liftM (m.get k t)
    simp only [MarkedAction.erase_lift] at h
    cases d <;> exact h
  | contains k =>
    have h := e.erase_markedFallback fun m => liftM (m.contains k t)
    simp only [MarkedAction.erase_lift] at h
    cases d <;> exact h
  | keys =>
    have h : (d.marked e t .keys).erase = e.listKeys t := by
      unfold marked Engine.listKeys
      rw [MarkedAction.erase_bind, e.erase_markedFallback]
      simp only [MarkedAction.erase_lift, MarkedAction.erase_pure]
    cases d <;> exact h
  | add k v overwrite =>
    have h := d.erase_markedWrite e fun m => m.add k v overwrite t
    cases d <;> exact h
  | remove k =>
    have h := d.erase_markedWrite e fun m => m.remove k t
    cases d <;> exact h

end Doubling

namespace Engine

/-- An operation of a pair of sets, its convergence runs marked. -/
def markedSet (e : Engine V (SetStore V)) (t : Token) : (op : SetOp) → MarkedAction V op.Answer
  | .add x => e.markedBackup fun s => liftM (s.add x t)
  | .remove x => e.markedBackup fun s => liftM (s.remove x t)
  | .members => do return .full (← e.markedFallback fun s => liftM (s.collect t))
  | .contains x => e.markedFallback fun s => liftM (s.contains x t)
  | .count => e.markedFallback fun s => liftM (s.count t)

/-- Marks aside, a marked operation of a pair of sets is the operation. -/
theorem erase_markedSet (e : Engine V (SetStore V)) (t : Token) (op : SetOp) :
    (e.markedSet t op).erase = op.on e.backupSet t := by
  cases op with
  | members =>
    unfold markedSet
    rw [MarkedAction.erase_bind, e.erase_markedFallback]
    simp only [MarkedAction.erase_lift, MarkedAction.erase_pure]
    rfl
  | _ =>
    simp only [markedSet, e.erase_markedBackup, e.erase_markedFallback, MarkedAction.erase_lift]
    rfl

end Engine

/-! ## Turns -/

/-- What one caller asks for, and when. -/
structure Turn (Op : Type) where
  op : Op
  token : Token := none
  time : Nat := 0

/-- A world at another time. -/
def World.atTime (w : World V) (time : Nat) : World V :=
  { w with clock := time }

section Serving

variable {A : Op → Type} (g : Regime V)

/-- The world after every caller has been served. -/
def serveAll (serve : (op : Op) → Token → Action V (A op)) (w : World V) :
    List (Turn Op) → World V
  | [] => w
  | turn :: rest => serveAll serve (g.act (w.atTime turn.time) (serve turn.op turn.token)).2 rest

/-- The world after every caller has been served, with the journal of the convergence runs that took
place. -/
def performAll (serve : (op : Op) → Token → MarkedAction V (A op)) (w : World V) :
    List (Turn Op) → List (Span (World V)) × World V
  | [] => ([], w)
  | turn :: rest =>
    let out := (serve turn.op turn.token).perform g (w.atTime turn.time)
    let later := performAll serve out.2.2 rest
    (out.2.1 ++ later.1, later.2)

variable {g}

theorem serveAll_append (serve : (op : Op) → Token → Action V (A op)) (w : World V)
    (turns later : List (Turn Op)) :
    serveAll g serve w (turns ++ later) = serveAll g serve (serveAll g serve w turns) later := by
  induction turns generalizing w with
  | nil => rfl
  | cons turn rest ih => exact ih _

theorem serveAll_erase (serve : (op : Op) → Token → MarkedAction V (A op)) (w : World V)
    (turns : List (Turn Op)) :
    serveAll g (fun op t => (serve op t).erase) w turns = (performAll g serve w turns).2 := by
  induction turns generalizing w with
  | nil => rfl
  | cons turn rest ih =>
    unfold serveAll performAll
    rw [MarkedAction.act_erase, ih]

end Serving

namespace Doubling

variable (d : Doubling) (faults : Faults V) (e : Engine V (MapStore V)) (w : World V)
  (turns : List (Turn (PlainOp V)))

/-- The world after every caller of a pair of maps has been served. -/
def serve : World V :=
  serveAll faults.regime (fun op t => op.on (d.store e) t) w turns

/-- The convergence runs that took place while callers of a pair of maps were served. -/
def journal : List (Span (World V)) :=
  (performAll faults.regime (fun op t => d.marked e t op) w turns).1

theorem performAll_snd :
    (performAll faults.regime (fun op t => d.marked e t op) w turns).2 =
      d.serve faults e w turns := by
  rw [← serveAll_erase]
  exact congrArg (fun serve => serveAll faults.regime serve w turns)
    (funext fun op => funext fun t => d.erase_marked e t op)

end Doubling

namespace Engine

variable (e : Engine V (SetStore V)) (faults : Faults V) (w : World V) (turns : List (Turn SetOp))

/-- The world after every caller of a pair of sets has been served. -/
def serveSet : World V :=
  serveAll faults.regime (fun op t => op.on e.backupSet t) w turns

/-- The convergence runs that took place meanwhile. -/
def setJournal : List (Span (World V)) :=
  (performAll faults.regime (fun op t => e.markedSet t op) w turns).1

theorem performAll_snd :
    (performAll faults.regime (fun op t => e.markedSet t op) w turns).2 =
      e.serveSet faults w turns := by
  rw [← serveAll_erase]
  exact congrArg (fun serve => serveAll faults.regime serve w turns)
    (funext fun op => funext fun t => e.erase_markedSet t op)

end Engine

/-! ## Runs of turns, seen as scenes -/

namespace Scene

/-- Steps one after the other, with the journal of all of them. -/
inductive Run (Step : Op → Scene σ → List (Span (Scene σ)) → Scene σ → Prop) :
    Scene σ → List Op → List (Span (Scene σ)) → Scene σ → Prop
  | nil (s : Scene σ) : Run Step s [] [] s
  | cons {s s' s'' : Scene σ} {op : Op} {ops : List Op} {js js' : List (Span (Scene σ))}
      (step : Step op s js s') (rest : Run Step s' ops js' s'') :
      Run Step s (op :: ops) (js ++ js') s''

/-- What every step preserves as long as its journal is as it should be, a run preserves. -/
theorem Run.preserves {Step : Op → Scene σ → List (Span (Scene σ)) → Scene σ → Prop}
    {P : Scene σ → Prop} {Q : Span (Scene σ) → Prop}
    (hstep : ∀ op s js s', Step op s js s' → (∀ span ∈ js, Q span) → P s → P s')
    {s s' : Scene σ} {ops : List Op} {js : List (Span (Scene σ))} (h : Run Step s ops js s')
    (hq : ∀ span ∈ js, Q span) (hp : P s) : P s' := by
  induction h with
  | nil s => exact hp
  | cons step rest ih =>
    refine ih (fun span hmem => hq span (List.mem_append_right _ hmem)) ?_
    exact hstep _ _ _ _ step (fun span hmem => hq span (List.mem_append_left _ hmem)) hp

/-- What every step carries from one view of the scene to the next, a run carries through. -/
theorem Run.fold {τ : Type} {Step : Op → Scene σ → List (Span (Scene σ)) → Scene σ → Prop}
    {s s' : Scene σ} {ops : List Op} {js : List (Span (Scene σ))} (h : Run Step s ops js s')
    (f : Op → τ → τ) (look : Scene σ → τ)
    (hstep : ∀ op s js s', Step op s js s' → look s' = f op (look s)) :
    look s' = ops.foldl (fun c op => f op c) (look s) := by
  induction h with
  | nil s => rfl
  | cons step rest ih => rw [ih, hstep _ _ _ _ step, List.foldl_cons]

/-- A run of one step is that step. -/
theorem Run.single {Step : Op → Scene σ → List (Span (Scene σ)) → Scene σ → Prop}
    {s s' : Scene σ} {op : Op} {js : List (Span (Scene σ))} (h : Run Step s [op] js s') :
    Step op s js s' := by
  cases h with
  | cons step rest =>
    cases rest with
    | nil => rwa [List.append_nil]

end Scene

/-- At this time a pair is as it should be and shows what it shows now. -/
def View.Steady (v : View V σ) (time : Nat) : Prop :=
  ∀ w, v.Fit w → v.Fit (w.atTime time) ∧ v.scene (w.atTime time) = v.scene w

/-- Turn after turn, what happens is what the steps allow. -/
theorem performAll_run {A : Op → Type} {g : Regime V} {v : View V σ}
    {serve : (op : Op) → Token → MarkedAction V (A op)}
    {Step : Op → Scene σ → List (Span (Scene σ)) → Scene σ → Prop}
    (hstep : ∀ op t w, v.Fit w → (serve op t).wp g (fun _ js w' => v.Fit w' ∧
      Step op (v.scene w) (js.map (Span.map v.scene)) (v.scene w')) w)
    {w : World V} (hw : v.Fit w) {turns : List (Turn Op)}
    (hsteady : ∀ turn ∈ turns, v.Steady turn.time) :
    v.Fit (performAll g serve w turns).2 ∧
      Scene.Run Step (v.scene w) (turns.map Turn.op)
        ((performAll g serve w turns).1.map (Span.map v.scene))
        (v.scene (performAll g serve w turns).2) := by
  induction turns generalizing w with
  | nil => exact ⟨hw, .nil _⟩
  | cons turn rest ih =>
    obtain ⟨hfit, hsame⟩ := hsteady turn List.mem_cons_self w hw
    obtain ⟨hw₁, hfirst⟩ := hstep turn.op turn.token (w.atTime turn.time) hfit
    obtain ⟨hw₂, hrest⟩ := ih hw₁ fun turn' hmem => hsteady turn' (List.mem_cons_of_mem _ hmem)
    rw [hsame] at hfirst
    refine ⟨hw₂, ?_⟩
    unfold performAll
    rw [List.map_append]
    exact .cons hfirst hrest

/-! ## Pairs of maps -/

namespace Doubling

/-- What a write to a pair of maps can do. -/
def Writes (d : Doubling) (z : Hazard σ) (e : Effect σ Bool) (s : Scene σ)
    (r : Except Halt Bool) (js : List (Span (Scene σ))) (s' : Scene σ) : Prop :=
  match d with
  | replicated => Scene.Replicate z e s r js s'
  | backup => Scene.Backup z e s r js s'

/-- What an operation of a pair of maps can do. -/
def Step (d : Doubling) (z : Hazard (Entries V)) :
    (op : PlainOp V) → Scene (Entries V) → Except Halt op.Answer →
      List (Span (Scene (Entries V))) → Scene (Entries V) → Prop
  | .add k v overwrite => d.Writes z (Entries.adding k v overwrite)
  | .get k => Scene.Fallback z (Entries.reading k)
  | .remove k => d.Writes z (Entries.removing k)
  | .contains k => Scene.Fallback z (Entries.finding k)
  | .keys => fun s r js s' =>
    ∃ ks, r = ks.map Listing.full ∧ Scene.Fallback z Entries.listing s ks js s'

end Doubling

namespace MapPair

variable {p : MapPair} {faults : Faults V} {w : World V} {name : String} {limit : Nat}

theorem steady {time : Nat} (h : time ≤ p.horizon) : (p.view V).Steady time := by
  intro w hw
  refine ⟨⟨h, fun side => ⟨(hw.2 side).outlasts, (hw.2 side).lists⟩⟩, ?_⟩
  ext side k : 3
  · have hout := (hw.2 side).outlasts
    exact (hout.live? h k).trans (hout.live? hw.1 k).symm
  · rfl
  · rfl

/-- What the base maps carry out, the stores of the engine carry out. -/
theorem carries_engine {α : Type} (op : MapStore V → Action V α) {eff : Effect (Entries V) α}
    (h : (p.view V).Carries faults.regime (p.hazard faults) (fun side => op (p.base V side)) eff) :
    (p.view V).Carries faults.regime (p.hazard faults)
      (fun side => op ((p.engine V name limit).storeOn side)) eff := by
  intro side
  cases side
  · exact h .primary
  · exact h .secondary

theorem wp_markedWrite (d : Doubling) (op : MapStore V → Action V Bool)
    {eff : Effect (Entries V) Bool}
    (h : (p.view V).Carries faults.regime (p.hazard faults) (fun side => op (p.base V side)) eff)
    (hw : (p.view V).Fit w) :
    (d.markedWrite (p.engine V name limit) op).wp faults.regime (fun r js w' =>
      (p.view V).Fit w' ∧ d.Writes (p.hazard faults) eff ((p.view V).scene w) r
        (js.map (Span.map (p.view V).scene)) ((p.view V).scene w')) w := by
  cases d with
  | replicated => exact View.wp_markedReplicate (runs_engine name limit) (carries_engine op h) hw
  | backup => exact View.wp_markedBackup (runs_engine name limit) (carries_engine op h) hw

theorem wp_markedRead {α : Type} (op : MapStore V → Action V α) {eff : Effect (Entries V) α}
    (h : (p.view V).Carries faults.regime (p.hazard faults) (fun side => op (p.base V side)) eff)
    (hw : (p.view V).Fit w) :
    ((p.engine V name limit).markedFallback fun h => liftM (op h)).wp faults.regime (fun r js w' =>
      (p.view V).Fit w' ∧ Scene.Fallback (p.hazard faults) eff ((p.view V).scene w) r
        (js.map (Span.map (p.view V).scene)) ((p.view V).scene w')) w :=
  View.wp_markedFallback (runs_engine name limit) (carries_engine op h) hw

/-- An operation of the pair does what it can do. -/
theorem wp_marked (d : Doubling) (faults : Faults V) (name : String) (limit : Nat)
    (op : PlainOp V) (t : Token) (hw : (p.view V).Fit w) :
    (d.marked (p.engine V name limit) t op).wp faults.regime (fun r js w' =>
      (p.view V).Fit w' ∧ d.Step (p.hazard faults) op ((p.view V).scene w) r
        (js.map (Span.map (p.view V).scene)) ((p.view V).scene w')) w := by
  cases op with
  | add k v overwrite =>
    exact wp_markedWrite d (fun m => m.add k v overwrite t) (carries_add k v overwrite t) hw
  | get k => exact wp_markedRead (fun m => m.get k t) (carries_get k t) hw
  | remove k => exact wp_markedWrite d (fun m => m.remove k t) (carries_remove k t) hw
  | contains k => exact wp_markedRead (fun m => m.contains k t) (carries_contains k t) hw
  | keys =>
    unfold Doubling.marked
    rw [MarkedAction.wp_bind]
    refine MarkedAction.wp_mono (wp_markedRead (fun m => m.collectKeys "replica" t)
      (carries_collectKeys "replica" t) hw) ?_
    rintro r js w' ⟨hw', hread⟩
    cases r with
    | error halt => exact ⟨hw', .error halt, rfl, hread⟩
    | ok ks =>
      rw [MarkedAction.andThen_ok, MarkedAction.wp_pure, List.append_nil]
      exact ⟨hw', .ok ks, rfl, hread⟩

/-- Runs of turns of the pair are runs of its steps. -/
theorem run_turns (d : Doubling) (faults : Faults V) (name : String) (limit : Nat)
    (hw : (p.view V).Fit w) (turns : List (Turn (PlainOp V)))
    (htimes : ∀ turn ∈ turns, turn.time ≤ p.horizon) :
    (p.view V).Fit (d.serve faults (p.engine V name limit) w turns) ∧
      Scene.Run (fun op s js s' => ∃ r, d.Step (p.hazard faults) op s r js s') ((p.view V).scene w)
        (turns.map Turn.op)
        ((d.journal faults (p.engine V name limit) w turns).map (Span.map (p.view V).scene))
        ((p.view V).scene (d.serve faults (p.engine V name limit) w turns)) := by
  rw [← d.performAll_snd]
  refine performAll_run (fun op t w hw => ?_) hw fun turn hmem => steady (htimes turn hmem)
  refine MarkedAction.wp_mono (wp_marked d faults name limit op t hw) ?_
  rintro r js w' ⟨hw', hstep⟩
  exact ⟨hw', r, hstep⟩

end MapPair

/-! ## Pairs of sets -/

namespace SetPair

variable {p : SetPair} {faults : Faults V} {w : World V} {name : String} {limit : Nat}

/-- What an operation of a pair of sets can do. -/
def Step (z : Hazard MemberSet) (op : SetOp) (s : Scene MemberSet)
    (js : List (Span (Scene MemberSet))) (s' : Scene MemberSet) : Prop :=
  match op with
  | .add x => ∃ r, Scene.Backup z (Members.adding x) s r js s'
  | .remove x => ∃ r, Scene.Backup z (Members.removing x) s r js s'
  | .members => ∃ r, Scene.Fallback z Members.listing s r js s'
  | .contains x => ∃ r, Scene.Fallback z (Members.finding x) s r js s'
  | .count => ∃ r, Scene.Fallback z Members.counting s r js s'

theorem steady (time : Nat) : (p.view V).Steady time := fun _ _ => ⟨trivial, rfl⟩

theorem carries_engine {α : Type} (op : SetStore V → Action V α) {eff : Effect MemberSet α}
    (h : (p.view V).Carries faults.regime (p.hazard faults) (fun side => op (p.base V side)) eff) :
    (p.view V).Carries faults.regime (p.hazard faults)
      (fun side => op ((p.engine V name limit).storeOn side)) eff := by
  intro side
  cases side
  · exact h .primary
  · exact h .secondary

theorem wp_markedWrite {α : Type} [WriteOutcome α] (op : SetStore V → Action V α)
    {eff : Effect MemberSet α}
    (h : (p.view V).Carries faults.regime (p.hazard faults) (fun side => op (p.base V side)) eff)
    (hw : (p.view V).Fit w) :
    ((p.engine V name limit).markedBackup fun h => liftM (op h)).wp faults.regime (fun _ js w' =>
      (p.view V).Fit w' ∧ ∃ r, Scene.Backup (p.hazard faults) eff ((p.view V).scene w) r
        (js.map (Span.map (p.view V).scene)) ((p.view V).scene w')) w :=
  MarkedAction.wp_mono (View.wp_markedBackup (runs_engine name limit) (carries_engine op h) hw)
    fun r _ _ h => ⟨h.1, r, h.2⟩

theorem wp_markedRead {α : Type} (op : SetStore V → Action V α) {eff : Effect MemberSet α}
    (h : (p.view V).Carries faults.regime (p.hazard faults) (fun side => op (p.base V side)) eff)
    (hw : (p.view V).Fit w) :
    ((p.engine V name limit).markedFallback fun h => liftM (op h)).wp faults.regime (fun _ js w' =>
      (p.view V).Fit w' ∧ ∃ r, Scene.Fallback (p.hazard faults) eff ((p.view V).scene w) r
        (js.map (Span.map (p.view V).scene)) ((p.view V).scene w')) w :=
  MarkedAction.wp_mono (View.wp_markedFallback (runs_engine name limit) (carries_engine op h) hw)
    fun r _ _ h => ⟨h.1, r, h.2⟩

/-- An operation of the pair does what it can do. -/
theorem wp_marked (op : SetOp) (t : Token) (hw : (p.view V).Fit w) :
    ((p.engine V name limit).markedSet t op).wp faults.regime (fun _ js w' =>
      (p.view V).Fit w' ∧ Step (p.hazard faults) op ((p.view V).scene w)
        (js.map (Span.map (p.view V).scene)) ((p.view V).scene w')) w := by
  cases op with
  | add x => exact wp_markedWrite (fun s => s.add x t) (carries_add x t) hw
  | remove x => exact wp_markedWrite (fun s => s.remove x t) (carries_remove x t) hw
  | contains x => exact wp_markedRead (fun s => s.contains x t) (carries_contains x t) hw
  | count => exact wp_markedRead (fun s => s.count t) (carries_count t) hw
  | members =>
    unfold Engine.markedSet
    rw [MarkedAction.wp_bind]
    refine MarkedAction.wp_mono
      (wp_markedRead (fun s => s.collect t) (carries_collect t) hw) ?_
    rintro r js w' ⟨hw', hread⟩
    cases r with
    | error halt => exact ⟨hw', hread⟩
    | ok ks =>
      rw [MarkedAction.andThen_ok, MarkedAction.wp_pure, List.append_nil]
      exact ⟨hw', hread⟩

/-- Runs of turns of the pair are runs of its steps. -/
theorem run_turns (faults : Faults V) (name : String) (limit : Nat) (hw : (p.view V).Fit w)
    (turns : List (Turn SetOp)) :
    (p.view V).Fit ((p.engine V name limit).serveSet faults w turns) ∧
      Scene.Run (Step (p.hazard faults)) ((p.view V).scene w) (turns.map Turn.op)
        (((p.engine V name limit).setJournal faults w turns).map (Span.map (p.view V).scene))
        ((p.view V).scene ((p.engine V name limit).serveSet faults w turns)) := by
  rw [← Engine.performAll_snd]
  exact performAll_run (fun op t _ hw => wp_marked op t hw) hw fun turn _ => steady turn.time

end SetPair

end TwinStore
