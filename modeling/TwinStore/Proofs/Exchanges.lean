import Mathlib.Control.Monad.Basic
import TwinStore.Proofs.Reliable
import TwinStore.Proofs.Turns

/-!
# What callers are told

Callers take turns, and each is told something. An `Exchange` is a turn with what the caller was
told and with the scenes around it; `exchanges` lists all of them, and `worldAfter` is the world in
which they leave the stores. If each turn is a step of some relation, the exchanges of a run form a
chain of such steps (`exchanges_chain`), and what is kept along with them, exchange by exchange, can
be tied to the scene by an invariant (`Exchange.Chain.invariant`).
-/

namespace TwinStore

variable {V σ τ Λ : Type} {A : τ → Type}

deriving instance DecidableEq for Halt

/-- A turn, what its caller was told, and the scenes around it. -/
structure Exchange (A : τ → Type) (σ : Type) where
  turn : τ
  before : Scene σ
  result : Except Halt (A turn)
  after : Scene σ

section Serving

variable (v : View V σ) (serve : (turn : τ) → World V → Except Halt (A turn) × World V)

/-- The world after every turn. -/
def worldAfter (w : World V) : List τ → World V
  | [] => w
  | turn :: rest => worldAfter (serve turn w).2 rest

/-- Turn by turn, what came of it. -/
def exchanges (w : World V) : List τ → List (Exchange A σ)
  | [] => []
  | turn :: rest =>
    let out := serve turn w
    { turn, before := v.scene w, result := out.1, after := v.scene out.2 } ::
      exchanges out.2 rest

variable {v serve} in
/-- There is one exchange for each turn. -/
theorem map_turn_exchanges (w : World V) (turns : List τ) :
    (exchanges v serve w turns).map Exchange.turn = turns := by
  induction turns generalizing w with
  | nil => rfl
  | cons turn rest ih => exact congrArg (turn :: ·) (ih _)

end Serving

/-- Serving callers in a regime is serving them turn by turn. -/
theorem worldAfter_eq_serveAll {Op : Type} {A : Op → Type} (g : Regime V)
    (serve : (op : Op) → Token → Action V (A op)) (w : World V) (turns : List (Turn Op)) :
    worldAfter (A := fun turn : Turn Op => A turn.op)
      (fun turn w => g.act (w.atTime turn.time) (serve turn.op turn.token)) w turns =
      serveAll g serve w turns := by
  induction turns generalizing w with
  | nil => rfl
  | cons turn rest ih => exact ih _

/-- Exchanges one after the other, each of them a step. -/
inductive Exchange.Chain (Step : (turn : τ) → Scene σ → Except Halt (A turn) → Scene σ → Prop) :
    Scene σ → List (Exchange A σ) → Scene σ → Prop
  | nil (s : Scene σ) : Chain Step s [] s
  | cons {x : Exchange A σ} {xs : List (Exchange A σ)} {s' : Scene σ}
      (step : Step x.turn x.before x.result x.after) (rest : Chain Step x.after xs s') :
      Chain Step x.before (x :: xs) s'

section Chains

variable {Step : (turn : τ) → Scene σ → Except Halt (A turn) → Scene σ → Prop}

theorem exchanges_chain {v : View V σ}
    {serve : (turn : τ) → World V → Except Halt (A turn) × World V} {turns : List τ}
    (hstep : ∀ turn ∈ turns, ∀ w, v.Fit w → v.Fit (serve turn w).2 ∧
      Step turn (v.scene w) (serve turn w).1 (v.scene (serve turn w).2))
    {w : World V} (hw : v.Fit w) :
    v.Fit (worldAfter serve w turns) ∧
      Exchange.Chain Step (v.scene w) (exchanges v serve w turns)
        (v.scene (worldAfter serve w turns)) := by
  induction turns generalizing w with
  | nil => exact ⟨hw, .nil _⟩
  | cons turn rest ih =>
    obtain ⟨hw₁, hfirst⟩ := hstep turn List.mem_cons_self w hw
    obtain ⟨hw₂, hrest⟩ := ih (fun t ht => hstep t (List.mem_cons_of_mem _ ht)) hw₁
    exact ⟨hw₂, .cons (x := ⟨turn, v.scene w, _, v.scene (serve turn w).2⟩) hfirst hrest⟩

/-- What is recorded exchange by exchange stays tied to the scene if every step keeps it so. -/
theorem Exchange.Chain.invariant {s s' : Scene σ} {xs : List (Exchange A σ)}
    (h : Chain Step s xs s')
    (record : Λ → Exchange A σ → Λ) (Inv : Λ → Scene σ → Prop)
    (hstep : ∀ (l : Λ) (x : Exchange A σ), Step x.turn x.before x.result x.after →
      Inv l x.before → Inv (record l x) x.after) {l : Λ} (hs : Inv l s) :
    Inv (xs.foldl record l) s' := by
  induction h generalizing l with
  | nil s => exact hs
  | cons step rest ih => exact ih (hstep l _ step hs)

end Chains

end TwinStore
