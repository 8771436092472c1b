import TwinStore.Notify
import TwinStore.Proofs.SetUses

/-!
# Stores that report their writes

A notifying store does what the store within does, and besides tells a handler of the writes that
were applied. What a handler has been told (`World.heard`) and the measures are all that sets the
worlds after the two apart (`World.unreported`); no request asks for either, so that two runs that
differ in nothing else never come to differ in anything else (`Faults.act_unreported`).

`Service.Echoes` is that relation for all that a store may be asked, with `told` naming the writes
that an answer reports; `Service.Replays` says that these writes lead from what the store within
held to what it holds. Turn by turn both carry over to all turns (`Service.faithful`).
-/

namespace TwinStore

variable {V α β σ Op : Type}

/-! ## Worlds apart from their reports -/

namespace World

/-- The world without what was reported and counted. -/
def unreported (w : World V) : World V :=
  { w with notices := [], measures := [] }

/-- The writes that a handler has been told of, in order. -/
def heard (w : World V) (handler : Nat) : List (Write V) :=
  w.notices.filterMap fun notice => if notice.handler = handler then some notice.write else none

theorem perform_unreported (w : World V) (c : Call V) :
    (w.unreported.perform c).1 = (w.perform c).1 ∧
      (w.unreported.perform c).2.unreported = (w.perform c).2.unreported := by
  cases c <;> exact ⟨rfl, rfl⟩

theorem settle_unreported (w : World V) (c : Call V) (fate : Option Strike) :
    (w.unreported.settle c fate).1 = (w.settle c fate).1 ∧
      (w.unreported.settle c fate).2.unreported = (w.settle c fate).2.unreported := by
  obtain ⟨hanswer, hleft⟩ := w.perform_unreported c
  have hdone := And.intro (congrArg (Except.ok (ε := Halt)) hanswer) hleft
  match fate with
  | none => exact hdone
  | some .reject =>
    simp only [settle]
    cases c.refusal with
    | none => exact hdone
    | some a => exact ⟨rfl, rfl⟩
  | some (.fail cause none) => exact ⟨rfl, rfl⟩
  | some (.fail cause (some n)) =>
    simp only [settle]
    rw [hanswer]
    cases c.failAfter n cause (w.perform c).1 with
    | none => exact ⟨rfl, rfl⟩
    | some a => exact ⟨rfl, hleft⟩

theorem callUnder_unreported (w : World V) (failure : Option Failure) (c : Call V) (t : Token) :
    (w.unreported.callUnder failure c t).1 = (w.callUnder failure c t).1 ∧
      (w.unreported.callUnder failure c t).2.unreported =
        (w.callUnder failure c t).2.unreported :=
  settle_unreported (w.visit _) c (failure.map Failure.strike)

end World

namespace Faults

variable (faults : Faults V)

/-- No request asks what was reported or counted. -/
theorem answer_unreported (r : Request V) (w : World V) :
    (faults.regime.answer r w.unreported).1 = (faults.regime.answer r w).1 ∧
      (faults.regime.answer r w.unreported).2.unreported =
        (faults.regime.answer r w).2.unreported := by
  cases r with
  | call c t => exact w.callUnder_unreported (faults w.visits.length c) c t
  | _ => exact ⟨rfl, rfl⟩

variable {faults} {w w' : World V}

/-- Programs cannot tell worlds apart that differ only in what was reported and counted. -/
theorem run_unreported (p : Prog V α) (h : w'.unreported = w.unreported) :
    (faults.regime.run w' p).1 = (faults.regime.run w p).1 ∧
      (faults.regime.run w' p).2.unreported = (faults.regime.run w p).2.unreported := by
  induction p generalizing w w' with
  | ret a => exact ⟨rfl, h⟩
  | ask r next ih =>
    have hw := faults.answer_unreported r w
    have hw' := faults.answer_unreported r w'
    rw [h] at hw'
    rw [Regime.run_ask, Regime.run_ask, ← hw.1, hw'.1]
    exact ih _ (hw'.2.symm.trans hw.2)

theorem act_unreported (a : Action V α) (h : w'.unreported = w.unreported) :
    (faults.regime.act w' a).1 = (faults.regime.act w a).1 ∧
      (faults.regime.act w' a).2.unreported = (faults.regime.act w a).2.unreported :=
  run_unreported a.run h

end Faults

/-! ## Actions that report -/

/-- In this world, `loud` ends as `quiet` does, and besides the handler is told of the writes that
`told` finds in the end. -/
def Action.Echoes (faults : Faults V) (handler : Nat) (loud quiet : Action V α)
    (told : Except Halt α → List (Write V)) (w : World V) : Prop :=
  loud.wp faults.regime (fun r w' =>
    r = (faults.regime.act w quiet).1 ∧
      w'.unreported = (faults.regime.act w quiet).2.unreported ∧
      w'.heard handler = (faults.regime.act w quiet).2.heard handler ++ told r) w

namespace Action

variable {faults : Faults V} {handler : Nat} {quiet : Action V α}
  {told : Except Halt α → List (Write V)} {w : World V}

/-- What reports nothing is its own echo. -/
theorem echoes_self (h : ∀ r, told r = []) : quiet.Echoes faults handler quiet told w := by
  refine ⟨rfl, rfl, ?_⟩
  rw [h, List.append_nil]

/-- Once `quiet` has ended well, the write that it made, if any, is reported. -/
theorem echoes_report (kind : NoticeKind) (t : Token) {rest : α → Action V α}
    (write? : α → Option (Write V))
    (hrest : ∀ x, rest x = match write? x with
      | some write => Notify.report handler kind write t >>= fun _ => pure x
      | none => pure x)
    (herror : ∀ halt, told (.error halt) = []) (hok : ∀ x, told (.ok x) = (write? x).toList) :
    (quiet >>= rest).Echoes faults handler quiet told w := by
  unfold Echoes
  rw [wp_bind]
  unfold wp
  generalize faults.regime.act w quiet = out
  obtain ⟨halt | x, w'⟩ := out
  · refine ⟨rfl, rfl, ?_⟩
    rw [herror, List.append_nil]
  · rw [andThen_ok, hrest]
    cases hx : write? x with
    | none =>
      refine ⟨rfl, rfl, ?_⟩
      change w'.heard handler = w'.heard handler ++ told (.ok x)
      rw [hok, hx, Option.toList_none, List.append_nil]
    | some write =>
      refine ⟨rfl, rfl, ?_⟩
      change World.heard { w' with notices := w'.notices ++ [_] } handler =
        w'.heard handler ++ told (.ok x)
      unfold World.heard
      rw [hok, hx, List.filterMap_append]
      simp

/-- What holds of the answers of an action once something has been made of them. -/
theorem wp_bind_pure {g : Regime V} {a : Action V α} (f : α → β)
    {post : Except Halt β → World V → Prop} (h : a.wp g (fun r w' => post (r.map f) w') w) :
    (a >>= fun x => pure (f x)).wp g post w := by
  rw [wp_bind]
  refine wp_mono h ?_
  rintro (halt | x) w' hpost <;> exact hpost

theorem act_bind_pure (g : Regime V) (a : Action V α) (f : α → β) :
    g.act w (a >>= fun x => pure (f x)) = ((g.act w a).1.map f, (g.act w a).2) := by
  have h : (a >>= fun x => pure (f x)).wp g
      (fun r w' => (r, w') = ((g.act w a).1.map f, (g.act w a).2)) w := wp_bind_pure f rfl
  exact h

/-- Making something of the answers changes nothing in what is reported. -/
theorem Echoes.bind_pure {loud : Action V α} (h : loud.Echoes faults handler quiet told w)
    (f : α → β) {told' : Except Halt β → List (Write V)} (htold : ∀ r, told' (r.map f) = told r) :
    (loud >>= fun x => pure (f x)).Echoes faults handler (quiet >>= fun x => pure (f x)) told'
      w := by
  unfold Echoes
  rw [act_bind_pure]
  refine wp_bind_pure f (wp_mono h ?_)
  rintro _ w' ⟨rfl, hleft, hheard⟩
  exact ⟨rfl, hleft, by rw [htold, hheard]⟩

end Action

/-! ## Turns -/

/-- The base maps, sets and maps of sets. -/
def World.shelves (w : World V) :
    Shelf (Base (EntryMap V)) × Shelf (Base MemberSet) × Shelf (Base MemberMap) :=
  (w.maps, w.sets, w.setMaps)

/-- A turn, and the handlers that do not cope while it lasts. -/
structure Occasion (Op : Type) extends Turn Op where
  failing : List Nat := []

/-- The world as a caller finds it. -/
def World.onOccasion (w : World V) (o : Occasion Op) : World V :=
  { w.atTime o.time with failing := o.failing }

/-- What callers may ask, given what has been handed out to them, and what an answer hands out. -/
structure Service (V Op : Type) (A : Op → Type) where
  on : List (Lent Unit) → Token → (op : Op) → Action V (A op)
  handed : (op : Op) → A op → List (Lent Unit) := fun _ _ => []

namespace Service

variable {A : Op → Type}

section Serving

variable (faults : Faults V) (s : Service V Op A)

/-- What a caller's turn ends with. -/
def turn (h : Custody V Unit) (o : Occasion Op) : Except Halt (A o.op) × World V :=
  faults.regime.act (h.world.onOccasion o) (s.on h.lent o.token o.op)

/-- A caller is served. -/
def serve (h : Custody V Unit) (o : Occasion Op) : Custody V Unit where
  world := (s.turn faults h o).2
  lent := h.lent ++ ((s.turn faults h o).1.toOption.map (s.handed o.op)).getD []

/-- Callers are served in turn. -/
def serveAll (h : Custody V Unit) (os : List (Occasion Op)) : Custody V Unit :=
  os.foldl (s.serve faults) h

end Serving

/-- What base stores hold, and how a write that was reported changes it. -/
structure Record (V σ : Type) where
  content : Shelf (Base (EntryMap V)) × Shelf (Base MemberSet) × Shelf (Base MemberMap) → σ
  replay : Write V → σ → σ

/-- Replay writes, one after the other. -/
def Record.replayAll (r : Record V σ) (writes : List (Write V)) (c : σ) : σ :=
  writes.foldl (fun c write => r.replay write c) c

variable (faults : Faults V) (handler : Nat)

/-- Where the base stores are fit for it, `loud` does what `quiet` does, and reports what `told`
finds in its answers. What `quiet` does leaves the base stores fit, tells nobody, and does to what
they hold what the writes that are reported do to it. -/
structure Reports (loud quiet : Service V Op A)
    (told : List (Lent Unit) → (op : Op) → Except Halt (A op) → List (Write V))
    (Allowed : Op → Prop) (Fit : World V → Prop) (r : Record V σ) : Prop where
  handed_eq : loud.handed = quiet.handed
  fit_congr : ∀ {w w' : World V}, w'.shelves = w.shelves → Fit w → Fit w'
  echoes : ∀ lent t op w, Allowed op → Fit w →
    (loud.on lent t op).Echoes faults handler (quiet.on lent t op) (told lent op) w
  replays : ∀ lent t op w, Allowed op → Fit w → (quiet.on lent t op).wp faults.regime
    (fun a w' => Fit w' ∧ w'.notices = w.notices ∧
      r.content w'.shelves = r.replayAll (told lent op a) (r.content w.shelves)) w

/-- Since `start`, `loud` has handed out what `quiet` has, and left the same worlds but for what was
reported. Replayed in order, what its handler has been told leads from what the base stores held to
what they hold. -/
structure Faithful (Fit : World V → Prop) (r : Record V σ) (start : World V)
    (h h' : Custody V Unit) : Prop where
  lent : h.lent = h'.lent
  world : h.world.unreported = h'.world.unreported
  fit : Fit h'.world
  heard : ∃ writes, h.world.heard handler = start.heard handler ++ writes ∧
    r.content h'.world.shelves = r.replayAll writes (r.content start.shelves)

variable {faults handler} {loud quiet : Service V Op A}
  {told : List (Lent Unit) → (op : Op) → Except Halt (A op) → List (Write V)}
  {Allowed : Op → Prop} {Fit : World V → Prop} {r : Record V σ} {start : World V}
  {h h' : Custody V Unit}

theorem Faithful.refl (hfit : Fit start) : Faithful handler Fit r start ⟨start, []⟩ ⟨start, []⟩ :=
  ⟨rfl, rfl, hfit, [], (List.append_nil _).symm, rfl⟩

/-- A turn with the service that reports ends as a turn with the one that does not, and leaves them
as faithful as before. -/
theorem Reports.turn (hr : Reports faults handler loud quiet told Allowed Fit r)
    (hf : Faithful handler Fit r start h h') {o : Occasion Op} (ho : Allowed o.op) :
    (loud.turn faults h o).1 = (quiet.turn faults h' o).1 ∧
      Faithful handler Fit r start (loud.serve faults h o) (quiet.serve faults h' o) := by
  obtain ⟨hlent, hworld, hfit, writes, hheard, hcontent⟩ := hf
  have hsame : (h.world.onOccasion o).unreported = (h'.world.onOccasion o).unreported :=
    congrArg (fun w : World V => w.onOccasion o) hworld
  have hshelves : (h.world.onOccasion o).shelves = (h'.world.onOccasion o).shelves :=
    (congrArg World.shelves hsame :)
  have hfit' : Fit (h'.world.onOccasion o) := hr.fit_congr (w := h'.world) rfl hfit
  have hfit₁ : Fit (h.world.onOccasion o) := hr.fit_congr hshelves hfit'
  obtain ⟨hanswer, hleft, htold⟩ := hr.echoes h.lent o.token o.op _ ho hfit₁
  obtain ⟨-, hsilent, -⟩ := hr.replays h.lent o.token o.op _ ho hfit₁
  obtain ⟨hfit₂, -, hreplayed⟩ := hr.replays h'.lent o.token o.op _ ho hfit'
  obtain ⟨hquiet, hquietLeft⟩ := Faults.act_unreported (quiet.on h.lent o.token o.op) hsame
  have hturn : (loud.turn faults h o).1 = (quiet.turn faults h' o).1 := by
    unfold Service.turn
    rw [hanswer, hquiet, hlent]
  refine ⟨hturn, ?_, ?_, hfit₂, writes ++ told h'.lent o.op (quiet.turn faults h' o).1, ?_, ?_⟩
  · unfold serve
    rw [hturn, hlent, hr.handed_eq]
  · rw [hlent] at hleft hquietLeft
    unfold serve Service.turn
    rw [hlent]
    exact hleft.trans hquietLeft
  · rw [← List.append_assoc, ← hheard, ← hturn, ← hlent]
    refine htold.trans (congrArg (· ++ _) ?_)
    unfold World.heard
    rw [hsilent]
    rfl
  · refine hreplayed.trans ?_
    change r.replayAll _ (r.content h'.world.shelves) = _
    rw [hcontent]
    exact List.foldl_append.symm

/-- Any turns leave a service that reports and one that does not as faithful as before. -/
theorem Reports.serveAll (hr : Reports faults handler loud quiet told Allowed Fit r)
    {os : List (Occasion Op)} (hos : ∀ o ∈ os, Allowed o.op)
    (hf : Faithful handler Fit r start h h') :
    Faithful handler Fit r start (loud.serveAll faults h os) (quiet.serveAll faults h' os) := by
  induction os generalizing h h' with
  | nil => exact hf
  | cons o rest ih =>
    exact ih (fun o' hmem => hos o' (List.mem_cons_of_mem _ hmem))
      (hr.turn hf (hos o List.mem_cons_self)).2

end Service

end TwinStore
