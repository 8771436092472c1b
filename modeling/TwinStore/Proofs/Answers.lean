import TwinStore.Proofs.Agreement
import TwinStore.Proofs.Exchanges

/-!
# What callers of a pair of maps are told

Let the secondary of a pair of maps never fail. What it holds is what a single map holds after the
same writes, and the primary holds the same except under the keys that have been written to since
the pair went down. A `Ledger` keeps both: the entries of the single map, and the keys that are
unsettled. So every answer is the single map's, with one exception: while the pair is down, a
primary that answers a call about an unsettled key answers from what it missed the writes of
(`answers_of_single_map`). If such a primary rejects a write, a map that is backed up lets nobody
else see it, and the ledger leaves it out (`Doubling.TurnedAway`).
-/

namespace TwinStore

variable {V : Type}

/-! ## Operations, key by key -/

namespace PlainOp

/-- What an operation does to what a map holds, and what it answers. -/
def effect : (op : PlainOp V) → Effect (Entries V) op.Answer
  | .add k v overwrite => Entries.adding k v overwrite
  | .get k => Entries.reading k
  | .remove k => Entries.removing k
  | .contains k => Entries.finding k
  | .keys =>
    { after := id
      answers := fun c ks => ks.failure = none ∧ Entries.listing.answers c ks.items }

/-- The keys whose entries an answer depends on. -/
def Concerns : PlainOp V → Key → Prop
  | .add k _ _, k' | .get k, k' | .remove k, k' | .contains k, k' => k = k'
  | .keys, _ => True

/-- The keys that are written to. -/
def written : PlainOp V → List Key
  | .add k _ _ | .remove k => [k]
  | _ => []

theorem effect_after (op : PlainOp V) : op.effect.after = op.after := by
  cases op <;> rfl

/-- Other keys keep their entries. -/
theorem after_of_not_mem {op : PlainOp V} {k : Key} (h : k ∉ op.written) (c : Entries V) :
    op.after c k = c k := by
  cases op with
  | add k' v overwrite =>
    have hne : k' ≠ k := fun he => h (List.mem_singleton.2 he.symm)
    change (if !overwrite && (c k').isSome then c else c.set k' (some v)) k = c k
    split
    · rfl
    · exact c.set_of_ne _ hne
  | remove k' => exact c.set_of_ne _ fun he => h (List.mem_singleton.2 he.symm)
  | _ => rfl

/-- What an operation leaves under a key depends on what was there. -/
theorem after_congr (op : PlainOp V) {c c' : Entries V} {k : Key} (h : c k = c' k) :
    op.after c k = op.after c' k := by
  by_cases hk : k ∈ op.written
  · cases op with
    | add k' v overwrite =>
      cases List.mem_singleton.1 hk
      change (if !overwrite && (c k).isSome then c else c.set k (some v)) k =
        (if !overwrite && (c' k).isSome then c' else c'.set k (some v)) k
      rw [h]
      split
      · exact h
      · rw [Entries.set_self, Entries.set_self]
    | remove k' =>
      cases List.mem_singleton.1 hk
      exact (c.set_self k none).trans (c'.set_self k none).symm
    | _ => exact h
  · rw [after_of_not_mem hk, after_of_not_mem hk, h]

/-- An answer depends on the entries under the keys that the operation concerns. -/
theorem answers_congr {op : PlainOp V} {c c' : Entries V} {a : op.Answer}
    (h : ∀ k, op.Concerns k → c k = c' k) (ha : op.effect.answers c a) :
    op.effect.answers c' a := by
  cases op with
  | add k v overwrite =>
    have ha : a = !(!overwrite && (c k).isSome) := ha
    rw [h k rfl] at ha
    exact ha
  | get k =>
    have ha : a = c k := ha
    rw [h k rfl] at ha
    exact ha
  | remove k =>
    have ha : a = (c k).isSome := ha
    rw [h k rfl] at ha
    exact ha
  | contains k =>
    have ha : a = (c k).isSome := ha
    rw [h k rfl] at ha
    exact ha
  | keys => exact ⟨ha.1, fun k => by rw [ha.2 k, h k trivial]⟩

end PlainOp

/-! ## What the pair does -/

namespace Doubling

/-- What follows an answer of the primary. -/
def sequel (d : Doubling) : (op : PlainOp V) → op.Answer → Sequel
  | .add .., a | .remove .., a =>
    match d with
    | replicated => .passOn
    | backup => .ofWrite a
  | _, _ => .recover

/-- What an operation of a pair of maps does where the secondary never fails. -/
def Serves (d : Doubling) (z : Hazard (Entries V)) (op : PlainOp V) :
    Scene (Entries V) → Except Halt op.Answer → Scene (Entries V) → Prop :=
  Scene.Served (Scene.converging z) (Scene.asking z op.effect .primary) op.effect (d.sequel op)

end Doubling

namespace MapPair

variable {p : MapPair} {faults : Faults V} {w : World V} {name : String} {limit : Nat}

/-- An operation of the pair does what it can do where the secondary never fails. -/
theorem wp_on (d : Doubling) (faults : Faults V) (name : String) (limit : Nat)
    (hspared : faults.Spares (.map p.secondary)) (op : PlainOp V) (t : Token)
    (hw : (p.view V).Fit w) :
    (op.on (d.store (p.engine V name limit)) t).wp faults.regime (fun r w' =>
      (p.view V).Fit w' ∧
        d.Serves (p.hazard faults) op ((p.view V).scene w) r ((p.view V).scene w')) w := by
  have hfrail : ¬ (p.hazard faults).frail .secondary := fun h => h hspared
  have hmends : (p.view V).Mends faults.regime (p.engine V name limit)
      (Scene.converging (p.hazard faults)) := (runs_engine name limit).mends
  have hserves : ∀ {α : Type} (op : MapStore V → Action V α) {eff : Effect (Entries V) α},
      (p.view V).Carries faults.regime (p.hazard faults) (fun side => op (p.base V side)) eff →
      (p.view V).Serves faults.regime (p.engine V name limit) op
        (Scene.asking (p.hazard faults) eff .primary) eff := fun op eff h =>
    (carries_engine op h).serves hfrail
  cases op with
  | add k v overwrite =>
    have h := hserves (fun m => m.add k v overwrite t) (carries_add k v overwrite t)
    have hboth := View.wp_replicate hmends h hw
    have hbackup := View.wp_backup hmends h hw
    cases d
    · exact hboth
    · exact hbackup
  | get k =>
    have h := hserves (fun m => m.get k t) (carries_get k t)
    have hread := View.wp_fallback hmends h hw
    cases d <;> exact hread
  | remove k =>
    have h := hserves (fun m => m.remove k t) (carries_remove k t)
    have hboth := View.wp_replicate hmends h hw
    have hbackup := View.wp_backup hmends h hw
    cases d
    · exact hboth
    · exact hbackup
  | contains k =>
    have h := hserves (fun m => m.contains k t) (carries_contains k t)
    have hread := View.wp_fallback hmends h hw
    cases d <;> exact hread
  | keys =>
    have h := hserves (fun m => m.collectKeys "replica" t) (carries_collectKeys "replica" t)
    have hlist : ((p.engine V name limit).listKeys t).wp faults.regime (fun r w' =>
        (p.view V).Fit w' ∧
          d.Serves (p.hazard faults) .keys ((p.view V).scene w) r ((p.view V).scene w')) w := by
      unfold Engine.listKeys
      rw [Action.wp_bind]
      refine Action.wp_mono (View.wp_fallback hmends h hw) ?_
      rintro r w' ⟨hw', hserved⟩
      have hmapped : d.Serves (p.hazard faults) .keys ((p.view V).scene w) (r.map Listing.full)
          ((p.view V).scene w') :=
        hserved.map Listing.full ?_ rfl (fun c ks hks => ⟨rfl, hks⟩) (fun _ => rfl)
      · cases r <;> exact ⟨hw', hmapped⟩
      · rintro s (cause | ks) s' htried
        · cases htried with
          | failed _ frail eq => exact .failed cause frail eq
        · cases htried with
          | done _ answers eq => exact .done _ ⟨rfl, answers⟩ eq
    cases d <;> exact hlist

end MapPair

/-! ## The single map -/

/-- What a caller of a pair of maps asked and was told. -/
abbrev MapExchange (V : Type) :=
  Exchange (fun turn : Turn (PlainOp V) => turn.op.Answer) (Entries V)

/-- What a single map would hold, and the keys of the writes that the primary has missed since the
pair went down. -/
structure Ledger (V : Type) where
  entries : Entries V
  unsettled : List Key

namespace Doubling

variable (d : Doubling)

/-- A write that the primary of a pair that is down rejected, and that was not passed on. -/
def TurnedAway (x : MapExchange V) : Prop :=
  x.before.health = .down ∧ x.after.failures .primary = x.before.failures .primary ∧
    (x.result.map (d.sequel x.turn.op)).toOption = some .stop

instance : DecidablePred (d.TurnedAway (V := V)) := fun x =>
  inferInstanceAs (Decidable (x.before.health = .down ∧
    x.after.failures .primary = x.before.failures .primary ∧
      (x.result.map (d.sequel x.turn.op)).toOption = some .stop))

/-- The ledger after an exchange. A write that is answered while the pair stays down has missed the
primary; one that ends in an error has reached both maps. -/
def record (l : Ledger V) (x : MapExchange V) : Ledger V :=
  if d.TurnedAway x then l
  else
    { entries := x.turn.op.after l.entries
      unsettled :=
        if x.after.health = .up then []
        else if x.result.isOk then x.turn.op.written ++ l.unsettled
        else l.unsettled }

variable {d} {l : Ledger V} {x : MapExchange V}

/-- Only a write that is not passed on is turned away. -/
theorem not_turnedAway (h : ∀ a, x.result = .ok a → d.sequel x.turn.op a ≠ .stop) :
    ¬ d.TurnedAway x := by
  rintro ⟨-, -, hstop⟩
  cases hr : x.result with
  | error halt =>
    rw [hr] at hstop
    cases hstop
  | ok a =>
    rw [hr] at hstop
    exact h a hr (Option.some.inj hstop)

theorem record_of_up (haway : ¬ d.TurnedAway x) (hup : x.after.health = .up) :
    d.record l x = { entries := x.turn.op.after l.entries, unsettled := [] } := by
  unfold record
  rw [if_neg haway, if_pos hup]

theorem record_of_missed (haway : ¬ d.TurnedAway x) (hdown : x.after.health = .down)
    {a : x.turn.op.Answer} (hr : x.result = .ok a) :
    d.record l x =
      { entries := x.turn.op.after l.entries
        unsettled := x.turn.op.written ++ l.unsettled } := by
  have hne : x.after.health ≠ .up := by
    rw [hdown]
    decide
  unfold record
  rw [if_neg haway, if_neg hne, hr]
  rfl

theorem record_of_error {halt : Halt} (hr : x.result = .error halt) :
    d.record l x =
      { entries := x.turn.op.after l.entries
        unsettled := if x.after.health = .up then [] else l.unsettled } := by
  have haway : ¬ d.TurnedAway x := not_turnedAway fun a ha => by
    rw [hr] at ha
    cases ha
  unfold record
  rw [if_neg haway, hr]
  rfl

end Doubling

namespace Ledger

/-- The secondary holds what the single map holds; so does the primary, unsettled keys aside. -/
structure Tracks (l : Ledger V) (s : Scene (Entries V)) : Prop where
  secondary : s.contents .secondary = l.entries
  primary : ∀ k, k ∉ l.unsettled → s.contents .primary k = l.entries k
  settled : s.health = .up → l.unsettled = []

/-- Between two scenes a primary that was down, and did not fail, has answered a call about a key
whose write it has missed. -/
def Stale (l : Ledger V) (op : PlainOp V) (s s' : Scene (Entries V)) : Prop :=
  s.health = .down ∧ s'.failures .primary = s.failures .primary ∧
    ∃ k ∈ l.unsettled, op.Concerns k

variable {l : Ledger V} {z : Hazard (Entries V)} {s s' : Scene (Entries V)}

/-- While the pair is up, its primary holds what the single map holds. -/
theorem Tracks.primary_eq (h : l.Tracks s) (hup : s.health = .up) :
    s.contents .primary = l.entries := by
  funext k
  refine h.primary k ?_
  rw [h.settled hup]
  exact List.not_mem_nil

/-- A recovery settles all keys, or brings the entries under some of them up to date. -/
theorem Tracks.mended (h : l.Tracks s) (hz : z.leaves = Entries.Mixed) {r : Except Halt Unit}
    (hm : Scene.Mended (Scene.converging z) s r s') :
    Tracks { l with unsettled := if s'.health = .up then [] else l.unsettled } s' := by
  cases hm with
  | idle up =>
    rw [if_pos up]
    exact ⟨h.secondary, fun k _ => congrFun (h.primary_eq up) k, fun _ => rfl⟩
  | done report s₁ down run =>
    cases run with
    | done _ c hc eq =>
      subst hc eq
      rw [if_pos (Scene.health_turn _ _)]
      refine ⟨h.secondary, fun k _ => ?_, fun _ => rfl⟩
      rw [Scene.contents_turn, Scene.contents_put_self]
      exact congrFun h.secondary k
  | failed cause _ down run =>
    cases run with
    | failed _ side c hc frail worse =>
      have hdown : s'.health = .down := worse.health.trans down
      have hne : s'.health ≠ .up := by
        rw [hdown]
        decide
      rw [if_neg hne]
      refine ⟨?_, fun k hk => ?_, fun hup => absurd hup hne⟩
      · rw [worse.contents, Scene.secondary_put_primary]
        exact h.secondary
      · rw [worse.contents, Scene.contents_put_self]
        rw [hz] at hc
        rcases hc k with hold | hnew
        · exact hold.trans (h.primary k hk)
        · exact hnew.trans (congrFun h.secondary k)

/-- An operation that both maps have carried out unsettles no key. -/
theorem Tracks.both (h : l.Tracks s) (op : PlainOp V) :
    Tracks { l with entries := op.after l.entries }
      ((s.put .primary (op.effect.after (s.contents .primary))).passOn op.effect) := by
  rw [op.effect_after]
  refine ⟨?_, fun k hk => ?_, h.settled⟩
  · rw [Scene.secondary_passOn, op.effect_after, Scene.secondary_put_primary, h.secondary]
  · rw [Scene.primary_passOn, Scene.contents_put_self]
    exact op.after_congr (h.primary k hk)

/-- After an operation that the primary has missed, the keys that it wrote are unsettled. -/
theorem Tracks.missed (h : l.Tracks s) (op : PlainOp V) :
    Tracks { entries := op.after l.entries, unsettled := op.written ++ l.unsettled }
      (((s.blame .primary).turn .down).passOn op.effect) := by
  refine ⟨?_, fun k hk => ?_, fun hup => ?_⟩
  · rw [Scene.secondary_passOn, op.effect_after, Scene.contents_turn, Scene.contents_blame,
      h.secondary]
  · rw [List.mem_append, not_or] at hk
    rw [Scene.primary_passOn, Scene.contents_turn, Scene.contents_blame, h.primary k hk.2]
    exact (PlainOp.after_of_not_mem hk.1 _).symm
  · cases hup

end Ledger

namespace Doubling

variable {d : Doubling} {z : Hazard (Entries V)} {l : Ledger V}

/-- Only a rejected write, which changes nothing, is neither passed on nor followed by a recovery.
-/
theorem after_of_stop {op : PlainOp V} {a : op.Answer} {c : Entries V}
    (hstop : d.sequel op a = .stop) (ha : op.effect.answers c a) : op.after c = c := by
  have hrefused : ∀ {a : Bool}, Sequel.ofWrite a = .stop → a = false := by
    intro a h
    cases a with
    | false => rfl
    | true => cases h
  cases op with
  | add k v overwrite =>
    cases d with
    | replicated => cases hstop
    | backup => exact Entries.refuses_adding k v overwrite c a ha (hrefused hstop)
  | remove k =>
    cases d with
    | replicated => cases hstop
    | backup => exact Entries.refuses_removing k c a ha (hrefused hstop)
  | _ => rfl

/-- Only an operation that changes nothing is followed by a recovery alone. -/
theorem after_of_recover {op : PlainOp V} {a : op.Answer} (h : d.sequel op a = .recover) :
    op.after = id := by
  cases op with
  | add k v overwrite =>
    cases d with
    | replicated => cases h
    | backup => cases a <;> cases h
  | remove k =>
    cases d with
    | replicated => cases h
    | backup => cases a <;> cases h
  | _ => rfl

/-- What the ledger records once the primary has answered and a recovery has been due. -/
theorem record_of_mended {x : MapExchange V} {a : x.turn.op.Answer} {r : Except Halt Unit}
    {s : Scene (Entries V)} (hmended : Scene.Mended (Scene.converging z) s r x.after)
    (hr : x.result = r.map fun _ => a) (hnext : d.sequel x.turn.op a ≠ .stop) :
    d.record l x =
      { entries := x.turn.op.after l.entries
        unsettled := if x.after.health = .up then [] else l.unsettled } := by
  cases r with
  | error halt => exact record_of_error hr
  | ok _ =>
    have hup : x.after.health = .up := hmended.up
    have hkept : ¬ d.TurnedAway x := not_turnedAway fun b hb => by
      rw [hr] at hb
      cases hb
      exact hnext
    rw [record_of_up hkept hup, if_pos hup]

/-- Every exchange keeps the ledger tied to the two maps. -/
theorem Serves.tracks (hz : z.leaves = Entries.Mixed) {x : MapExchange V}
    (h : d.Serves z x.turn.op x.before x.result x.after) (hs : l.Tracks x.before) :
    (d.record l x).Tracks x.after := by
  unfold Serves at h
  generalize hr : x.result = r at h
  generalize hafter : x.after = s' at h ⊢
  cases h with
  | diverted cause s₁ b failed answers =>
    cases failed with
    | failed _ frail eq =>
      subst eq
      have hdown : x.after.health = .down := by rw [hafter, Scene.health_passOn, Scene.health_turn]
      have hkept : ¬ d.TurnedAway x := fun h => by
        have heq := h.2.1
        rw [hafter, Scene.failures_passOn, Scene.failures_turn, Scene.failures_blame_self] at heq
        omega
      rw [record_of_missed hkept hdown hr]
      exact hs.missed x.turn.op
  | stopped a _ done next =>
    cases done with
    | done _ answers eq =>
      have hsame : s' = x.before := by
        rw [eq, x.turn.op.effect_after, after_of_stop next answers, Scene.put_contents]
      subst hsame
      cases hh : x.before.health with
      | down =>
        have haway : d.TurnedAway x := by
          refine ⟨hh, by rw [hafter], ?_⟩
          rw [hr]
          exact congrArg some next
        have hl : d.record l x = l := if_pos haway
        rw [hl]
        exact hs
      | up =>
        have hkept : ¬ d.TurnedAway x := fun h => by
          have hdown := h.1
          rw [hh] at hdown
          cases hdown
        have hnothing : x.turn.op.after l.entries = l.entries := by
          rw [hs.primary_eq hh] at answers
          exact after_of_stop next answers
        rw [record_of_up hkept (by rw [hafter, hh]), hnothing, ← hs.settled hh]
        exact hs
  | recovered a s₁ r _ done next mended =>
    cases done with
    | done _ answers eq =>
      have hread := after_of_recover next
      have hsame : s₁ = x.before := by
        rw [eq, x.turn.op.effect_after, hread, id, Scene.put_contents]
      rw [hsame] at mended
      have hmended := hs.mended hz mended
      rw [← hafter] at mended hmended ⊢
      rw [record_of_mended mended hr (by rw [next]; decide), hread]
      exact hmended
  | passedOn a s₁ r _ done next mended =>
    cases done with
    | done _ answers eq =>
      rw [eq] at mended
      have hmended := (hs.both x.turn.op).mended hz mended
      rw [← hafter] at mended hmended ⊢
      rw [record_of_mended mended hr (by rw [next]; decide)]
      exact hmended

end Doubling

/-- What a caller is told is the single map's answer, unless it is a stale primary's. -/
theorem Ledger.Tracks.answers {d : Doubling} {z : Hazard (Entries V)} {l : Ledger V}
    {op : PlainOp V} {s s' : Scene (Entries V)} {a : op.Answer} (hs : l.Tracks s)
    (h : d.Serves z op s (.ok a) s') :
    op.effect.answers l.entries a ∨
      l.Stale op s s' ∧ op.effect.answers (s.contents .primary) a := by
  rcases h.answered with hsecondary | ⟨hsame, hprimary⟩
  · rw [hs.secondary] at hsecondary
    exact .inl hsecondary
  · cases hh : s.health with
    | up =>
      rw [hs.primary_eq hh] at hprimary
      exact .inl hprimary
    | down =>
      by_cases hstale : ∃ k ∈ l.unsettled, op.Concerns k
      · exact .inr ⟨⟨hh, hsame, hstale⟩, hprimary⟩
      · refine .inl (op.answers_congr (fun k hk => hs.primary k fun hmem => ?_) hprimary)
        exact hstale ⟨k, hmem, hk⟩

/-! ## Runs of turns -/

namespace Doubling

variable (d : Doubling) (p : MapPair) (faults : Faults V) (name : String) (limit : Nat)
  (w : World V) (turns : List (Turn (PlainOp V)))

/-- What the callers of a pair of maps asked and were told. -/
def exchanges : List (MapExchange V) :=
  TwinStore.exchanges (p.view V) (fun turn w => faults.regime.act (w.atTime turn.time)
    (turn.op.on (d.store (p.engine V name limit)) turn.token)) w turns

/-- The ledger after all of them, for a pair whose maps held the same at first. -/
def ledger : Ledger V :=
  (d.exchanges p faults name limit w turns).foldl d.record
    { entries := ((p.view V).scene w).contents .secondary, unsettled := [] }

end Doubling

/-- **Callers of a pair of maps whose secondary never fails are told what a single map would tell
them**, over any run of turns, unless a primary that is down answers about a key whose write it has
missed; then they are told what that primary holds. -/
theorem answers_of_single_map (d : Doubling) (p : MapPair) (faults : Faults V) (name : String)
    (limit : Nat) (w : World V) (turns : List (Turn (PlainOp V))) (turn : Turn (PlainOp V))
    (hspared : faults.Spares (.map p.secondary)) (hstart : (p.view V).InStep w)
    (htimes : ∀ turn' ∈ turns, turn'.time ≤ p.horizon) (htime : turn.time ≤ p.horizon) :
    let e := p.engine V name limit
    let w₁ := d.serve faults e w turns
    let out := faults.regime.act (w₁.atTime turn.time) (turn.op.on (d.store e) turn.token)
    let l := d.ledger p faults name limit w turns
    let before := (p.view V).scene w₁
    ∀ a, out.1 = .ok a → turn.op.effect.answers l.entries a ∨
      l.Stale turn.op before ((p.view V).scene out.2) ∧
        turn.op.effect.answers (before.contents .primary) a := by
  intro e w₁ out l before a ha
  have hserve : ∀ turn : Turn (PlainOp V), turn.time ≤ p.horizon → ∀ w, (p.view V).Fit w →
      let out := faults.regime.act (w.atTime turn.time) (turn.op.on (d.store e) turn.token)
      (p.view V).Fit out.2 ∧
        d.Serves (p.hazard faults) turn.op ((p.view V).scene w) out.1 ((p.view V).scene out.2) := by
    intro turn htime w hw
    obtain ⟨hfit, hsame⟩ := MapPair.steady htime w hw
    rw [← hsame]
    exact MapPair.wp_on d faults name limit hspared turn.op turn.token hfit
  obtain ⟨hfit, hchain⟩ := exchanges_chain (fun turn hmem => hserve turn (htimes turn hmem))
    hstart.fit
  have hinit : Ledger.Tracks
      { entries := ((p.view V).scene w).contents .secondary, unsettled := [] }
      ((p.view V).scene w) :=
    ⟨rfl, fun k _ => congrFun hstart.same k, fun _ => rfl⟩
  have htracks := hchain.invariant d.record Ledger.Tracks
    (fun l x hstep hs => Doubling.Serves.tracks rfl hstep hs) hinit
  rw [worldAfter_eq_serveAll (A := PlainOp.Answer) faults.regime
    (fun op t => op.on (d.store e) t)] at hfit htracks
  obtain ⟨-, hlast⟩ := hserve turn htime w₁ hfit
  have hout : faults.regime.act (w₁.atTime turn.time) (turn.op.on (d.store e) turn.token) = out :=
    rfl
  rw [hout, ha] at hlast
  exact Ledger.Tracks.answers htracks hlast

/-- The primary misses a write and the read that follows, and the answer is the single map's. -/
theorem answers_through_outage :
    let p := MapPair.twins 100
    let e := p.engine Nat "pair" 1000
    let faults := (Faults.hitting [0, 2]).within (.map 0)
    let w := World.twinMaps [(.number 1, 10)]
    let turns : List (Turn (PlainOp Nat)) := [{ op := .add (.number 2) 7 true }]
    let out := faults.regime.act ((Doubling.replicated.serve faults e w turns).atTime 0)
      (e.replicatedMap.get (.number 2) none)
    out.1 = .ok (some 7) ∧
      some 7 = (Doubling.replicated.ledger p faults "pair" 1000 w turns).entries (.number 2) := by
  intro p e faults w turns out
  have hout : out.1 = .ok (some 7) := by decide +kernel
  have hfailed : ((p.view Nat).scene out.2).failures .primary ≠
      ((p.view Nat).scene (Doubling.replicated.serve faults e w turns)).failures .primary := by
    decide +kernel
  have h := answers_of_single_map .replicated p faults "pair" 1000 w turns
    { op := .get (.number 2) }
    (Faults.spares_within _ (by decide)) (MapPair.inStep_twins _ _) (by decide) (by decide)
    (some 7) hout
  exact ⟨hout, h.resolve_right fun hstale => hfailed hstale.1.2.1⟩

/-- **A primary that has missed a write answers from before it.** The replicated map does not find
an entry that it has acknowledged; the map that is backed up takes an entry that it has removed to
be there still, and rejects a write that a single map would accept. -/
theorem stale_primary_answers :
    let p := MapPair.twins 100
    let e := p.engine Nat "pair" 1000
    let faults := (Faults.hitting [0]).within (.map 0)
    let w := World.twinMaps [(.number 1, 10)]
    let single (ops : List (PlainOp Nat)) :=
      ops.foldl (fun c op => op.after c) (((p.view Nat).scene w).contents .secondary)
    faults.Spares (.map p.secondary) ∧ (p.view Nat).InStep w ∧
    (let w₁ := Doubling.replicated.serve faults e w [{ op := .add (.number 2) 7 true }]
      let out := faults.regime.act w₁ (e.replicatedMap.get (.number 2) none)
      out.1 = .ok none ∧
        ¬ (Entries.reading (.number 2)).answers (single [.add (.number 2) 7 true]) none) ∧
    (let w₁ := Doubling.backup.serve faults e w [{ op := .remove (.number 1) }]
      let out := faults.regime.act w₁ (e.backupMap.add (.number 1) 5 false none)
      out.1 = .ok false ∧
        ¬ (Entries.adding (.number 1) 5 false).answers (single [.remove (.number 1)]) false) := by
  intro p e faults w single
  have hspared : faults.Spares (.map p.secondary) := Faults.spares_within _ (by decide)
  refine ⟨hspared, MapPair.inStep_twins _ _, ⟨by decide +kernel, ?_⟩, ⟨by decide +kernel, ?_⟩⟩
  · intro h
    cases (h : none = some 7)
  · intro h
    cases (h : false = true)

end TwinStore
