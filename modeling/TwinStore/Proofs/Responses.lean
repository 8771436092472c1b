import TwinStore.Proofs.Stops

/-!
# What a run was told, and what it reports

`Regime.responses` lists the requests of a program with their answers. Which of them put something
into a store or took something out is for the answer to say, and a run is to report just that: an
action `Weighs` what its responses come to, and a walk that is `Honest` has counted it all, also
when it halts. What an answer promises and the walk has yet to count is `owed`.

A bounded run of an honest walk reports what its responses come to, and that it was cut short
exactly if it was (`Walk.Honest.truthful`).
-/

namespace TwinStore

variable {V α β ι : Type}

/-! ## Responses -/

/-- A request and what it was answered. -/
structure Response (V : Type) where
  request : Request V
  answer : request.Answer

namespace Response

/-- A run was cut short while it waited for this answer. -/
def cuts (run : Nat) : Response V → Bool
  | ⟨.call _ _, .error (.cut r)⟩ => r = run
  | _ => false

/-- Something was put into the store. -/
def writes (site : Site) : Response V → Bool
  | ⟨.call (.map i (.add ..)) _, .ok true⟩ => site = .map i
  | ⟨.call (.set i (.add _)) _, .ok _⟩ => site = .set i
  | ⟨.call (.queue i (.enqueue _)) _, .ok _⟩ => site = .queue i
  | ⟨.storeSet i .., _⟩ => site = .setMap i
  | _ => false

/-- Something was taken out of the store. -/
def removes (site : Site) : Response V → Bool
  | ⟨.call (.map i (.remove _)) _, .ok true⟩ => site = .map i
  | ⟨.call (.setMap i (.remove _)) _, .ok true⟩ => site = .setMap i
  | ⟨.call (.set i (.remove _)) _, .ok true⟩ => site = .set i
  | ⟨.call (.queue i .dequeue) _, .ok (some _)⟩ => site = .queue i
  | ⟨.call (.queue i .take) _, .ok (some _)⟩ => site = .queue i
  | _ => false

/-- How much was put into the store, and how much was taken out. -/
def tally (site : Site) (responses : List (Response V)) : Tally where
  written := responses.countP (writes site)
  removed := responses.countP (removes site)

@[simp] theorem tally_nil (site : Site) : tally site ([] : List (Response V)) = {} := rfl

@[simp] theorem tally_append (site : Site) (l l' : List (Response V)) :
    tally site (l ++ l') = tally site l + tally site l' := by
  ext <;> simp [tally]

/-- A call that halts its program has put nothing anywhere and taken nothing out. -/
theorem tally_error (site : Site) (c : Call V) (t : Token) (h : Halt) :
    tally site [⟨.call c t, .error h⟩] = {} := by
  cases c with
  | map i op | set i op | setMap i op | queue i op => cases op <;> rfl

/-- One of the responses cut the run short, if and only if that is how it ended. -/
def CutShort (run : Nat) (r : Except Halt α) (l : List (Response V)) : Prop :=
  l.any (cuts run) = true ↔ r = .error (.cut run)

section CutShort

variable {run : Nat} {l l' : List (Response V)}

theorem cutShort_ok (x : α) : CutShort run (.ok x) ([] : List (Response V)) := by
  constructor <;> nofun

theorem cutShort_failed (e : StoreError) :
    CutShort run (.error (.failed e) : Except Halt α) ([] : List (Response V)) := by
  constructor <;> nofun

theorem cutShort_call (c : Call V) (t : Token) (r : Except Halt c.Answer) :
    CutShort run r [⟨.call c t, r⟩] := by
  rcases r with (e | r) | a <;> simp [CutShort, cuts]

theorem cutShort_ask (x : α) {response : Response V} (h : cuts run response = false) :
    CutShort run (.ok x) [response] := by
  simp [CutShort, h]

/-- What halts asks nothing more. -/
theorem CutShort.halted {h : Halt} (hl : CutShort run (.error h : Except Halt α) l) :
    CutShort run (.error h : Except Halt β) (l ++ []) := by
  unfold CutShort at hl ⊢
  rw [List.append_nil, hl]
  simp

theorem CutShort.not_cut {r : Except Halt α} (hl : CutShort run r l)
    (hr : r ≠ .error (.cut run)) : l.any (cuts run) = false :=
  Bool.eq_false_iff.2 fun h => hr (hl.1 h)

theorem CutShort.followed {x : α} {r : Except Halt β} (hl : CutShort run (.ok x) l)
    (hl' : CutShort run r l') : CutShort run r (l ++ l') := by
  unfold CutShort
  rw [List.any_append, hl.not_cut nofun, Bool.false_or]
  exact hl'

end CutShort

end Response

namespace Regime

variable (g : Regime V)

/-- The requests of a program that runs alone, with their answers. -/
def responses : Prog V α → World V → List (Response V)
  | .ret _, _ => []
  | .ask r next, w =>
    ⟨r, (g.answer r w).1⟩ :: responses (next (g.answer r w).1) (g.answer r w).2

theorem responses_bind (p : Prog V α) (f : α → Prog V β) (w : World V) :
    g.responses (p >>= f) w = g.responses p w ++ g.responses (f (g.run w p).1) (g.run w p).2 := by
  induction p generalizing w with
  | ret a => rfl
  | ask r next ih => exact congrArg (_ :: ·) (ih _ _)

end Regime

/-- In every world, this holds of what the program ends with and of the responses to it. -/
def Prog.Tells (g : Regime V) (p : Prog V α) (post : α → List (Response V) → Prop) : Prop :=
  ∀ w, post (g.run w p).1 (g.responses p w)

theorem Prog.Tells.bind {g : Regime V} {p : Prog V α} {f : α → Prog V β}
    {mid : α → List (Response V) → Prop} {post : β → List (Response V) → Prop} (h : p.Tells g mid)
    (hf : ∀ x l, mid x l → (f x).Tells g fun y l' => post y (l ++ l')) :
    (p >>= f).Tells g post := by
  intro w
  rw [Regime.run_bind, Regime.responses_bind]
  exact hf _ _ (h w) _

/-! ## Actions -/

namespace Action

variable (g : Regime V) (run : Nat) (site : Site)

/-- What the responses to an action come to: `good` of its result, and nothing if it halted. -/
structure Weighed (good : α → Tally → Prop) (r : Except Halt α) (l : List (Response V)) : Prop where
  ok : ∀ x, r = .ok x → good x (Response.tally site l)
  error : ∀ h, r = .error h → Response.tally site l = {}
  cut : Response.CutShort run r l

/-- In every world, the responses to the action come to what is good of its result. -/
def Weighs (a : Action V α) (good : α → Tally → Prop) : Prop :=
  a.run.Tells g (Weighed run site good)

/-- An action that puts nothing into the store and takes nothing out. -/
def Reads (a : Action V α) (P : α → Prop) : Prop :=
  a.Weighs g run site fun x m => m = {} ∧ P x

variable {g run site} {good : α → Tally → Prop} {P : α → Prop}

theorem weighs_pure {x : α} (h : good x {}) : (pure x : Action V α).Weighs g run site good :=
  fun _ =>
    { ok := fun _ hx => Except.ok.inj hx ▸ h
      error := nofun
      cut := Response.cutShort_ok x }

theorem weighs_fail (e : StoreError) : (Action.fail e : Action V α).Weighs g run site good :=
  fun _ =>
    { ok := nofun
      error := fun _ _ => rfl
      cut := Response.cutShort_failed e }

theorem reads_collect (l : Listing ι) :
    (l.collect : Action V _).Reads g run site fun _ => True := by
  unfold Listing.collect
  cases l.failure with
  | none => exact weighs_pure ⟨rfl, trivial⟩
  | some e => exact weighs_fail e

theorem Weighs.mono {good' : α → Tally → Prop} {a : Action V α} (h : a.Weighs g run site good)
    (hgood : ∀ x m, good x m → good' x m) : a.Weighs g run site good' :=
  fun w => { h w with ok := fun x hx => hgood x _ ((h w).ok x hx) }

/-- An action that only reads adds nothing to what follows it. -/
theorem Reads.bind {a : Action V α} {f : α → Action V β} {good : β → Tally → Prop}
    (h : a.Reads g run site P) (hf : ∀ x, P x → (f x).Weighs g run site good) :
    (a >>= f).Weighs g run site good := by
  refine Prog.Tells.bind h ?_ (f := ExceptT.bindCont f)
  rintro (halt | x) l hl w
  · exact
      { ok := nofun
        error := fun _ _ => (Response.tally_append site l []).trans (hl.error halt rfl)
        cut := hl.cut.halted }
  · obtain ⟨hnone, hx⟩ := hl.ok x rfl
    obtain ⟨hok, herror, hcut⟩ := hf x hx w
    exact
      { ok := fun y hy => by
          rw [Response.tally_append, hnone, Tally.empty_add]
          exact hok y hy
        error := fun h hh => by
          rw [Response.tally_append, hnone, Tally.empty_add]
          exact herror h hh
        cut := hl.cut.followed hcut }

/-- A call weighs what its answers do. -/
theorem weighs_call {c : Call V} {t : Token} {good : c.Answer → Tally → Prop}
    (h : ∀ w a, (g.call w c t).1 = .ok a → good a (Response.tally site [⟨.call c t, .ok a⟩])) :
    (Action.call c t).Weighs g run site good := by
  intro w
  change Weighed run site good (g.call w c t).1 [⟨.call c t, (g.call w c t).1⟩]
  cases hout : (g.call w c t).1 with
  | ok a =>
    exact
      { ok := fun x hx => Except.ok.inj hx ▸ h w a hout
        error := nofun
        cut := Response.cutShort_call c t _ }
  | error halt =>
    exact
      { ok := nofun
        error := fun _ _ => Response.tally_error site c t halt
        cut := Response.cutShort_call c t _ }

/-- A request that is no call weighs what its answers do. -/
theorem weighs_ask {r : Request V} {x : α} (hcut : ∀ a, Response.cuts run ⟨r, a⟩ = false)
    (h : ∀ a, good x (Response.tally site [⟨r, a⟩])) :
    (Action.ask r >>= fun _ => pure x : Action V α).Weighs g run site good :=
  fun w =>
    { ok := fun _ hx => Except.ok.inj hx ▸ h (g.answer r w).1
      error := nofun
      cut := Response.cutShort_ask x (hcut (g.answer r w).1) }

end Action

/-! ## Walks -/

namespace Walk

variable (g : Regime V) (run : Nat) (site : Site)

/-- A walk has counted what it owed and what its responses come to. -/
structure Counted (n owed : Tally) (r : Except Halt α) (n' : Tally) (l : List (Response V)) :
    Prop where
  tally : n' = n + owed + Response.tally site l
  cut : Response.CutShort run r l

/-- In every world, the walk counts what it owes and what its responses come to. -/
def Honest (walk : Walk V α) (owed : Tally := {}) : Prop :=
  ∀ n, (walk.run.run n).Tells g fun out l => Counted run site n owed out.1 out.2 l

variable {g run site} {owed : Tally}

theorem honest_pure (x : α) : (pure x : Walk V α).Honest g run site :=
  fun _ _ => { tally := rfl, cut := Response.cutShort_ok x }

theorem honest_wrote : (Walk.wrote : Walk V Unit).Honest g run site { written := 1 } :=
  fun _ _ => { tally := rfl, cut := Response.cutShort_ok () }

theorem honest_removed : (Walk.removed : Walk V Unit).Honest g run site { removed := 1 } :=
  fun _ _ => { tally := rfl, cut := Response.cutShort_ok () }

theorem honest_close (l : Listing ι) : (Walk.close l : Walk V Unit).Honest g run site := by
  unfold Walk.close
  cases l.failure with
  | none => exact honest_pure ()
  | some e => exact fun _ _ => { tally := rfl, cut := Response.cutShort_failed e }

theorem Honest.bind {a : Walk V α} {f : α → Walk V β} (h : a.Honest g run site owed)
    (hf : ∀ x, (f x).Honest g run site) : (a >>= f).Honest g run site owed := by
  intro n
  refine Prog.Tells.bind (h n) ?_ (f := fun out => (ExceptT.bindCont f out.1).run out.2)
  rintro ⟨halt | x, n'⟩ l hl w
  · exact
      { tally := by
          rw [Response.tally_append, ← Tally.add_assoc, ← hl.tally]
          rfl
        cut := hl.cut.halted }
  · have hrest := hf x n' w
    exact
      { tally := by
          rw [Response.tally_append, ← Tally.add_assoc, ← hl.tally]
          exact hrest.tally
        cut := hl.cut.followed hrest.cut }

/-- An action within a walk, and what follows: the walk owes what the responses to the action come
to. -/
theorem honest_then {a : Action V α} {f : α → Walk V β} {good : α → Tally → Prop}
    (h : a.Weighs g run site good) (hf : ∀ x m, good x m → (f x).Honest g run site m) :
    (liftM a >>= f).Honest g run site := by
  intro n
  have hlifted : ((liftM a : Walk V α).run.run n).Tells g fun out l =>
      out.2 = n ∧ Action.Weighed run site good out.1 l := by
    refine Prog.Tells.bind h fun r l hl w => ?_
    exact ⟨rfl, (List.append_nil l).symm ▸ hl⟩
  refine Prog.Tells.bind hlifted ?_ (f := fun out => (ExceptT.bindCont f out.1).run out.2)
  rintro ⟨halt | x, n'⟩ l ⟨rfl, hl⟩ w
  · exact
      { tally := by
          rw [Response.tally_append, hl.error halt rfl]
          rfl
        cut := hl.cut.halted }
  · have hrest := hf x _ (hl.ok x rfl) n' w
    exact
      { tally := by
          rw [Response.tally_append, ← Tally.add_assoc]
          exact hrest.tally
        cut := hl.cut.followed hrest.cut }

theorem honest_each {items : List ι} {f : ι → Walk V Unit} (hf : ∀ x, (f x).Honest g run site) :
    (Walk.each items f).Honest g run site := by
  induction items with
  | nil => exact honest_pure ()
  | cons x items ih => exact (hf x).bind fun _ => ih

theorem honest_removing {a : Action V Bool}
    (h : a.Weighs g run site fun found m => m = { removed := found.toNat }) :
    (Walk.removing a).Honest g run site := by
  refine honest_then h fun found m hm => ?_
  subst hm
  cases found with
  | true => exact honest_removed
  | false => exact honest_pure ()

end Walk

/-! ## Runs -/

/-- What a run reports is what its responses come to, and that it was cut short if it was: by its
caller before it began, or by a response. A run that was cut short reports. -/
structure Report.Truthful (run : Nat) (site : Site) (cancelled : Bool) (r : Except Halt Report)
    (l : List (Response V)) : Prop where
  tally : ∀ report, r = .ok report → report.toTally = Response.tally site l
  timedOut : ∀ report, r = .ok report →
    (report.timedOut = true ↔ cancelled = true ∨ l.any (Response.cuts run) = true)
  reports : cancelled = true ∨ l.any (Response.cuts run) = true → ∃ report, r = .ok report

namespace Report.Truthful

variable {run : Nat} {site : Site} {cancelled : Bool} {r : Except Halt Report}
  {l l' : List (Response V)}

/-- Responses that neither write nor remove nor cut are not reported. -/
theorem congr (h : Truthful run site cancelled r l)
    (htally : Response.tally site l' = Response.tally site l)
    (hcut : l'.any (Response.cuts run) = l.any (Response.cuts run)) :
    Truthful run site cancelled r l' where
  tally := by
    rw [htally]
    exact h.tally
  timedOut := by
    rw [hcut]
    exact h.timedOut
  reports := by
    rw [hcut]
    exact h.reports

theorem of_report {n : Tally} {timedOut : Bool} (htally : n = Response.tally site l)
    (hcut : timedOut = true ↔ cancelled = true ∨ l.any (Response.cuts run) = true) :
    Truthful run site cancelled (.ok { n with timedOut }) l where
  tally := by
    rintro _ ⟨⟩
    exact htally
  timedOut := by
    rintro _ ⟨⟩
    exact hcut
  reports _ := ⟨_, rfl⟩

theorem of_halt {h : Halt} (hcancelled : cancelled = false)
    (hcut : l.any (Response.cuts run) = false) : Truthful run site cancelled (.error h) l where
  tally := nofun
  timedOut := nofun
  reports := by simp [hcancelled, hcut]

end Report.Truthful

theorem Regime.responses_lift (g : Regime V) (p : Prog V α) (f : α → Action V β) (w : World V) :
    g.responses (ExceptT.lift p >>= f).run w =
      g.responses p w ++ g.responses (f (g.run w p).1).run (g.run w p).2 := by
  rw [ExceptT.run_bind_lift, responses_bind]

theorem Regime.act_lift (g : Regime V) (p : Prog V α) (f : α → Action V β) (w : World V) :
    g.act w (ExceptT.lift p >>= f) = g.act (g.run w p).2 (f (g.run w p).1) := by
  unfold Regime.act
  rw [ExceptT.run_bind_lift, run_bind]

/-- What comes before a run is not reported if it only reads. -/
theorem Report.Truthful.after {g : Regime V} {run : Nat} {site : Site} {cancelled : Bool}
    {a : Action V Unit} {b : Action V Report} {w : World V}
    (h : Truthful run site cancelled (g.act w b).1 (g.responses b.run w))
    (ha : a.Reads g run site fun _ => True) (hok : g.act w a = (.ok (), w)) :
    Truthful run site cancelled (g.act w (a >>= fun _ => b)).1
      (g.responses (a >>= fun _ => b).run w) := by
  have hrun : g.act w (a >>= fun _ => b) =
      g.run (g.act w a).2 (ExceptT.bindCont (fun _ => b) (g.act w a).1) :=
    Regime.run_bind g w a.run (ExceptT.bindCont fun _ => b)
  have hresponses : g.responses (a >>= fun _ => b).run w = g.responses a.run w ++
      g.responses (ExceptT.bindCont (fun _ => b) (g.act w a).1) (g.act w a).2 :=
    g.responses_bind a.run (ExceptT.bindCont fun _ => b) w
  have hbefore := ha w
  change Action.Weighed _ _ _ (g.act w a).1 _ at hbefore
  rw [hok] at hrun hresponses hbefore
  rw [hrun, hresponses]
  refine h.congr ?_ ?_
  · rw [Response.tally_append, (hbefore.ok () rfl).1, Tally.empty_add]
    rfl
  · rw [List.any_append, hbefore.cut.not_cut nofun, Bool.false_or]
    rfl

/-- A bounded run of an honest walk reports truthfully. -/
theorem Walk.Honest.truthful {g : Regime V} {site : Site} {walk : Walk V Unit} {w : World V}
    (h : walk.Honest g w.runs site) (name : String) (limit : Nat) (t : Token) :
    Report.Truthful w.runs site (w.isCancelled t) (g.act w (drive name limit t walk)).1
      (g.responses (drive name limit t walk).run w) := by
  unfold drive
  change Report.Truthful _ _ _ (g.act w (if w.isCancelled t then _ else _)).1
    (⟨.isCancelled t, w.isCancelled t⟩ ::
      g.responses (if w.isCancelled t = true then _ else _ : Action V Report).run w)
  cases w.isCancelled t with
  | true => exact .of_report rfl (by simp)
  | false =>
    rw [if_neg Bool.false_ne_true]
    change Report.Truthful _ _ _ (g.act (g.answer (.enter limit t) w).2 (ExceptT.lift _ >>= _)).1
      (_ :: _ :: g.responses (ExceptT.lift _ >>= _ : Action V Report).run
        (g.answer (.enter limit t) w).2)
    rw [g.act_lift, g.responses_lift]
    have hcounted := h {} (g.answer (.enter limit t) w).2
    generalize g.run (g.answer (.enter limit t) w).2 (walk.run.run {}) = out at hcounted ⊢
    generalize g.responses (walk.run.run {}) (g.answer (.enter limit t) w).2 = l at hcounted ⊢
    obtain ⟨⟨r, n⟩, w'⟩ := out
    obtain ⟨htally, hcut⟩ := hcounted
    rw [Tally.add_empty, Tally.empty_add] at htally
    -- What surrounds the walk is not reported.
    have hframe : ∀ {r' l'}, Response.tally site l' = {} → l'.any (Response.cuts w.runs) = false →
        Report.Truthful w.runs site false r' l → Report.Truthful w.runs site false r'
          (⟨.isCancelled t, false⟩ :: ⟨.enter limit t, w.runs⟩ :: (l ++ l')) := by
      intro r' l' htally' hcut' hl
      refine hl.congr ?_ ?_
      · change Response.tally site
          ([⟨.isCancelled t, false⟩, ⟨.enter limit t, w.runs⟩] ++ (l ++ l')) = _
        rw [Response.tally_append, Response.tally_append, htally']
        exact Tally.empty_add _
      · change (l ++ l').any (Response.cuts w.runs) = _
        rw [List.any_append, hcut', Bool.or_false]
    match r, hcut with
    | .ok (), hcut =>
      refine hframe rfl rfl (.of_report htally ?_)
      rw [hcut.not_cut nofun]
      simp
    | .error (.failed e), hcut => exact hframe rfl rfl (.of_halt rfl (hcut.not_cut nofun))
    | .error (.cut r), hcut =>
      change Report.Truthful _ _ _ (g.act _ (if r = w.runs then _ else _)).1
        (_ :: _ :: (l ++ ⟨.leave, ()⟩ :: g.responses (if r = w.runs then _ else _ :
          Action V Report).run _))
      by_cases hr : r = w.runs
      · rw [if_pos hr]
        refine hframe rfl rfl (.of_report htally ?_)
        rw [hcut.2 (by rw [hr])]
        simp
      · rw [if_neg hr]
        exact hframe rfl rfl (.of_halt rfl (hcut.not_cut fun h => hr (by cases h; rfl)))

end TwinStore
