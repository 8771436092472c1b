import TwinStore.Proofs.PromptStores

/-!
# Lazy eviction cannot be observed

Memory stores drop an expired entry only when they come across it. Callers of a base map, or of a
base map of sets and of the sets that it has handed out, are served one after the other at times
that do not go back (`MapUse`, `SetMapUse`). Every answer but the number of entries that a purge
drops is the answer of a store that drops each entry at the instant its deadline comes
(`answers_promptly`). The run and the run of that store stay related turn by turn
(`MapUse.turn_related`, `SetMapUse.turn_related`).
-/

namespace TwinStore

variable {V ι Op : Type}

/-- Two runs of the same turns, at times that do not go back, stay related if every turn keeps them
so. -/
theorem foldl_related {σ τ : Type} {f : σ → Turn Op → σ} {f' : τ → Turn Op → τ}
    {R : σ → τ → Prop} (clock : σ → Nat)
    (hstep : ∀ s p turn, clock s ≤ turn.time → R s p →
      R (f s turn) (f' p turn) ∧ clock (f s turn) = turn.time)
    {s : σ} {p : τ} (h : R s p) {turns : List (Turn Op)} {last : Turn Op}
    (htimes : (clock s :: (turns ++ [last]).map Turn.time).Pairwise (· ≤ ·)) :
    R (turns.foldl f s) (turns.foldl f' p) ∧ clock (turns.foldl f s) ≤ last.time := by
  obtain ⟨hle, hrest⟩ := List.pairwise_cons.1 htimes
  induction turns generalizing s p with
  | nil => exact ⟨h, hle last.time List.mem_cons_self⟩
  | cons turn rest ih =>
    obtain ⟨hnext, hclock⟩ := hstep s p turn (hle turn.time List.mem_cons_self) h
    refine ih hnext (by rwa [hclock]) ?_ (List.pairwise_cons.1 hrest).2
    rw [hclock]
    exact (List.pairwise_cons.1 hrest).1

/-- The time, the date and the order in which base stores enumerate. -/
def Stand.moment (s : Stand V) : Nat × Nat × Arrangement :=
  (s.now, s.date, s.order)

/-- When the clock and the date are what they were, so is the date at time zero. -/
theorem World.epoch_eq_of_moment {w w' : World V} (h : w'.stand.moment = w.stand.moment) :
    w'.epoch = w.epoch := by
  have hclock : w'.clock = w.clock := congrArg (·.1) h
  have hdate : w'.epoch + w'.clock = w.epoch + w.clock := congrArg (·.2.1) h
  omega

/-! ## Maps -/

/-- What may be asked of a base map, and of what it holds. -/
inductive MapUse (V : Type) where
  | call (op : MapOp V)
  /-- The number of entries. -/
  | size
  /-- Drop what has expired. How much that is depends on what was dropped before, so it is not
  told. -/
  | purge

namespace MapUse

/-- What a use answers. -/
@[reducible] def Answer : MapUse V → Type
  | .call op => op.Answer
  | .size => Nat
  | .purge => Unit

section Serving

variable (g : Regime V) (i : Nat)

/-- Serve a caller of base map `i`. -/
def on (w : World V) (t : Token) : (use : MapUse V) → Except Halt use.Answer × World V
  | .call op => g.act w (Backend.onMap i op t)
  | .size => (.ok ((w.maps.nth i).content.size w.clock), w)
  | .purge =>
    let b := w.maps.nth i
    (.ok (), { w with maps := w.maps.put i { b with content := (b.content.purge w.clock).2 } })

/-- What a caller's turn ends with. -/
def turn (w : World V) (turn : Turn (MapUse V)) : Except Halt turn.op.Answer × World V :=
  turn.op.on g i (w.atTime turn.time) turn.token

/-- Callers are served in turn. -/
def serveAll (w : World V) (turns : List (Turn (MapUse V))) : World V :=
  turns.foldl (fun w turn => (MapUse.turn g i w turn).2) w

end Serving

section Promptly

variable (order : Arrangement) (epoch : Nat)

/-- Carry out a use on a map that forgets at once. -/
def promptly (now date : Nat) : (use : MapUse V) → Prompt V → use.Answer × Prompt V
  | .call op, p => op.promptly order now date p
  | .size, p => (p.size, p)
  | .purge, p => ((), p)

/-- The turn of a caller of a map that forgets at once. -/
def promptTurn (p : Prompt V) (turn : Turn (MapUse V)) : turn.op.Answer × Prompt V :=
  let (a, p) := turn.op.promptly order turn.time (epoch + turn.time) (p.drop turn.time)
  (a, p.drop turn.time)

/-- Callers of a map that forgets at once are served in turn. -/
def promptAll (p : Prompt V) (turns : List (Turn (MapUse V))) : Prompt V :=
  turns.foldl (fun p turn => (promptTurn order epoch p turn).2) p

end Promptly

/-- A base map looks like a map that forgets at once. -/
structure Related (order : Arrangement) (epoch i : Nat) (w : World V) (p : Prompt V) : Prop where
  order_eq : w.arrangement = order
  epoch_eq : w.epoch = epoch
  prompt_eq : (w.maps.nth i).content.prompt w.clock = p

section Related

variable {faults : Faults V} {i : Nat} {order : Arrangement} {epoch : Nat} {w : World V}
  {p : Prompt V}

/-- A use answers what is answered promptly, and what it leaves looks the same. -/
theorem on_related (h : faults.Spares (.map i)) (use : MapUse V) (t : Token)
    (hw : Related order epoch i w p) :
    (use.on faults.regime i w t).1 = .ok (use.promptly order w.clock (epoch + w.clock) p).1 ∧
      (use.on faults.regime i w t).2.clock = w.clock ∧
      Related order epoch i (use.on faults.regime i w t).2
        ((use.promptly order w.clock (epoch + w.clock) p).2.drop w.clock) := by
  obtain ⟨rfl, rfl, rfl⟩ := hw
  cases use with
  | call op =>
    have hop := op.apply_prompt w.arrangement w.clock w.date (w.maps.nth i).content
    have hends : (Backend.onMap i op t).ends faults.regime (fun a s' =>
        a = (op.apply w.arrangement w.clock w.date (w.maps.nth i).content).1 ∧
          s'.moment = w.stand.moment ∧
          s'.maps i = (op.apply w.arrangement w.clock w.date (w.maps.nth i).content).2) w.stand :=
      h.ends_onMap op ⟨rfl, rfl, w.stand.maps_onMap_self i op⟩
    obtain ⟨a, ha, rfl, hmoment, hleft⟩ := Action.ends_act hends
    have hclock : ((MapUse.call op).on faults.regime i w t).2.clock = w.clock :=
      congrArg (·.1) hmoment
    refine ⟨ha.trans (congrArg Except.ok hop.1), hclock, congrArg (·.2.2) hmoment,
      World.epoch_eq_of_moment hmoment, ?_⟩
    rw [hclock]
    exact (congrArg (EntryMap.prompt · w.clock) hleft).trans hop.2
  | size =>
    refine ⟨?_, rfl, rfl, rfl, (EntryMap.prompt_drop_self _ _).symm⟩
    exact congrArg Except.ok (EntryMap.size_prompt _ _).symm
  | purge =>
    refine ⟨rfl, rfl, rfl, rfl, ?_⟩
    simp [on, promptly]

/-- A turn at a later time answers what is answered promptly, and leaves what looks the same. -/
theorem turn_related (h : faults.Spares (.map i)) (turn : Turn (MapUse V))
    (hle : w.clock ≤ turn.time) (hw : Related order epoch i w p) :
    (MapUse.turn faults.regime i w turn).1 = .ok (promptTurn order epoch p turn).1 ∧
      (MapUse.turn faults.regime i w turn).2.clock = turn.time ∧
      Related order epoch i (MapUse.turn faults.regime i w turn).2
        (promptTurn order epoch p turn).2 := by
  refine on_related (w := w.atTime turn.time) h turn.op turn.token ⟨hw.order_eq, hw.epoch_eq, ?_⟩
  rw [← hw.prompt_eq]
  exact (EntryMap.prompt_drop _ _ hle).symm

/-- After turns at times that do not go back the map still looks the same. -/
theorem all_related (h : faults.Spares (.map i)) {turns : List (Turn (MapUse V))}
    {last : Turn (MapUse V)}
    (htimes : (w.clock :: (turns ++ [last]).map Turn.time).Pairwise (· ≤ ·))
    (hw : Related order epoch i w p) :
    Related order epoch i (serveAll faults.regime i w turns) (promptAll order epoch p turns) ∧
      (serveAll faults.regime i w turns).clock ≤ last.time := by
  refine foldl_related World.clock (fun w p turn hle hw => ?_) hw htimes
  obtain ⟨-, hclock, hleft⟩ := turn_related h turn hle hw
  exact ⟨hleft, hclock⟩

end Related

end MapUse
/-! ## Calls to a map of sets -/

/-- The members of a whole set to be stored. -/
def Whole.promptly (p : PromptSets) (lent : List (Lent ι)) : Whole → MemberSet
  | .own members => members
  | .lent place => (lent[place]?.map fun l => p.members l.key).getD ∅

/-- A base map of sets looks like this one, at the moment it is. -/
structure Stand.LooksLike (s : Stand V) (i : Nat) (p : PromptSets) (s' : Stand V) : Prop where
  moment_eq : s'.moment = s.moment
  sets : (s'.setMaps i).LooksLike s.now p

namespace Stand.LooksLike

variable {s s' : Stand V} {i : Nat} {p : PromptSets}

theorem now_eq (h : s.LooksLike i p s') : s'.now = s.now := congrArg (·.1) h.moment_eq

theorem date_eq (h : s.LooksLike i p s') : s'.date = s.date := congrArg (·.2.1) h.moment_eq

theorem order_eq (h : s.LooksLike i p s') : s'.order = s.order := congrArg (·.2.2) h.moment_eq

/-- Nothing is left to drop in what a map of sets looks like. -/
theorem drop_eq (h : s.LooksLike i p s') : p.drop s.now = p := by
  apply PromptSets.ext_prompt
  rw [PromptSets.toPrompt_drop, ← h.sets.prompt_eq, EntryMap.prompt_drop_self]

theorem dropped (h : s.LooksLike i p s') : s.LooksLike i (p.drop s.now) s' := by
  rwa [h.drop_eq]

end Stand.LooksLike

namespace Faults.Spares

variable {faults : Faults V} {s s' : Stand V} {i : Nat} {t : Token} {p : PromptSets}
  (h : faults.Spares (.setMap i))
include h

/-- A call answers what is answered promptly, and what it leaves looks the same. -/
theorem ends_promptly (op : SetMapOp) (hs : s.LooksLike i p s') :
    (Backend.onSetMap i op t).ends faults.regime (fun a s'' =>
      a = (op.promptly s.order s.now s.date p).1 ∧
        s.LooksLike i ((op.promptly s.order s.now s.date p).2.drop s.now) s'') s' := by
  have hop := op.apply_prompt s.order s.date hs.sets
  refine h.ends_onSetMap op ?_
  rw [hs.order_eq, hs.now_eq, hs.date_eq]
  refine ⟨hop.1, hs.moment_eq, ?_⟩
  rw [Stand.setMaps_onSetMap_self, hs.order_eq, hs.now_eq, hs.date_eq]
  exact hop.2

/-- A call that changes nothing in the prompt store answers as there, and the two look alike. -/
theorem ends_promptly_of_same (op : SetMapOp) (hs : s.LooksLike i p s')
    (hsame : (op.promptly s.order s.now s.date p).2 = p) :
    (Backend.onSetMap i op t).ends faults.regime (fun a s'' =>
      a = (op.promptly s.order s.now s.date p).1 ∧ s.LooksLike i p s'') s' := by
  refine Action.ends_mono (h.ends_promptly op hs) ?_
  rw [hsame, hs.drop_eq]
  exact fun _ _ hpost => hpost

/-- An operation on the set under a key answers and leaves what it does in a prompt store. -/
theorem ends_under_promptly (k : Key) (op : SetOp) (hs : s.LooksLike i p s') :
    (op.on (Backend.setUnder i k) t).ends faults.regime (fun a s'' =>
      a = (p.applyUnder s.order k op).1 ∧
        s.LooksLike i ((p.applyUnder s.order k op).2.drop s.now) s'') s' := by
  have hcall : op.on (Backend.setUnder i k) t = Backend.onSetMap (V := V) i (.member k op) t := by
    cases op <;> rfl
  rw [hcall]
  exact h.ends_promptly (.member k op) hs

/-- A whole set is collected as its members are. -/
theorem ends_collectWhole_promptly (value : Whole) (lent : List (Lent ι))
    (hs : s.LooksLike i p s') :
    ((value.set (fun _ => Backend.setMap i) lent).collect t).ends faults.regime (fun xs s'' =>
      Std.ExtTreeSet.ofList xs = value.promptly p lent ∧ s.LooksLike i p s'') s' := by
  have hown : ∀ members : MemberSet,
      ((SetStore.ofMembers members).collect t).ends faults.regime (fun xs s'' =>
        Std.ExtTreeSet.ofList xs = members ∧ s.LooksLike i p s'') s' := fun members =>
    Action.ends_bind (Action.ends_pure (Action.ends_pure
      ⟨SetMapPair.ofList_eq fun _ => Std.ExtTreeSet.mem_toList, hs⟩))
  cases value with
  | own members => exact hown members
  | lent place =>
    cases hl : lent[place]? with
    | none =>
      simp only [Whole.set, Whole.promptly, hl]
      exact hown ∅
    | some l =>
      simp only [Whole.set, Whole.promptly, hl]
      refine Action.ends_bind (Action.ends_mono (h.ends_promptly_of_same (.member l.key .members)
        hs (p.hold_same l.key)) ?_)
      rintro _ s'' ⟨rfl, hs'⟩
      refine Action.ends_pure ⟨SetMapPair.ofList_eq fun x => ?_, hs'⟩
      exact (s.order.members_perm _).mem_iff.trans Std.ExtTreeSet.mem_toList

end Faults.Spares

/-! ## Uses of a map of sets -/

/-- Carry out a use of a map of sets that forgets at once, given what it has handed out. -/
def SetUse.promptly (order : Arrangement) (now date : Nat) (lent : List (Lent ι)) :
    (use : SetUse ι) → PromptSets → use.Answer × PromptSets
  | .add _ k value overwrite, p =>
    if overwrite || !p.has k then (true, p.hold k { value := value.promptly p lent })
    else (false, p)
  | .remove _ k, p => SetMapOp.promptly order now date (.remove k) p
  | .contains _ k, p => (p.has k, p)
  | .keys _, p => (.full (order.keys p.keys), p)
  | .find _ k, p => (if p.has k then some .direct else none, p)
  | .reach _ _, p => (.direct, p)
  | .expire _ k ttl, p => SetMapOp.promptly order now date (.expire k ttl) p
  | .expireAt _ k instant, p => SetMapOp.promptly order now date (.expireAt k instant) p
  | .member place op, p =>
    match lent[place]? with
    | some l => let (a, p) := p.applyUnder order l.key op; (some a, p)
    | none => (none, p)

/-- A use answers what is answered promptly, and what it leaves looks the same. -/
theorem Faults.Spares.ends_use_promptly {faults : Faults V} {s : Stand V} {i : Nat} {t : Token}
    {p : PromptSets} (h : faults.Spares (.setMap i)) (use : SetUse ι) (lent : List (Lent ι))
    (hs : s.LooksLike i p s) :
    (use.on (fun _ => Backend.setMap i) lent t).ends faults.regime (fun a s' =>
      a = (use.promptly s.order s.now s.date lent p).1 ∧
        s.LooksLike i ((use.promptly s.order s.now s.date lent p).2.drop s.now) s') s := by
  cases use with
  | add j k value overwrite =>
    change (Backend.addSet i k _ overwrite t).ends _ _ _
    unfold Backend.addSet
    refine Action.ends_bind
      (Action.ends_mono (h.ends_promptly_of_same (.add k overwrite) hs rfl) ?_)
    rintro accepted s' ⟨hanswer, hs'⟩
    have haccepted : (overwrite || !p.has k) = accepted := hanswer.symm
    simp only [SetUse.promptly, haccepted]
    cases accepted with
    | false => exact Action.ends_pure ⟨rfl, hs'.dropped⟩
    | true =>
      refine Action.ends_bind (Action.ends_mono (h.ends_collectWhole_promptly value lent hs') ?_)
      rintro xs s'' ⟨hxs, hs''⟩
      refine Action.ends_bind (Action.ends_storeSet (Action.ends_pure ⟨rfl, hs''.moment_eq, ?_⟩))
      rw [Stand.setMaps_putSets_self, hxs]
      exact hs''.sets.store k _
  | find j k =>
    refine Action.ends_bind (Action.ends_mono (h.ends_promptly_of_same (.get k) hs rfl) ?_)
    rintro found s' ⟨hanswer, hs'⟩
    have hfound : p.has k = found := hanswer.symm
    simp only [SetUse.promptly, hfound]
    cases found <;> exact Action.ends_pure ⟨rfl, hs'.dropped⟩
  | reach j k =>
    refine Action.ends_bind (Action.ends_mono (h.ends_promptly_of_same (.reach k) hs rfl) ?_)
    rintro _ s' ⟨-, hs'⟩
    exact Action.ends_pure ⟨rfl, hs'.dropped⟩
  | member place op =>
    cases hl : lent[place]? with
    | none =>
      rw [SetUse.on_member_of_none hl]
      simp only [SetUse.promptly, hl]
      exact Action.ends_pure ⟨rfl, hs.dropped⟩
    | some l =>
      rw [SetUse.on_member_of_some hl]
      simp only [SetUse.promptly, hl]
      refine Action.ends_bind (Action.ends_mono (h.ends_under_promptly l.key op hs) ?_)
      rintro _ s' ⟨rfl, hs'⟩
      exact Action.ends_pure ⟨rfl, hs'⟩
  | remove j k => exact h.ends_promptly (.remove k) hs
  | contains j k => exact h.ends_promptly (.contains k) hs
  | keys j => exact h.ends_promptly .keys hs
  | expire j k ttl => exact h.ends_promptly (.expire k ttl) hs
  | expireAt j k instant => exact h.ends_promptly (.expireAt k instant) hs

/-! ## Turns -/

/-- What may be asked of a base map of sets, and of the sets that it has handed out. -/
inductive SetMapUse where
  | ask (use : SetUse Unit)
  /-- The number of keys. -/
  | size

/-- A map of sets that forgets at once, and what it has handed out. -/
structure PromptCustody where
  sets : PromptSets
  lent : List (Lent Unit) := []

namespace SetMapUse

/-- What a use answers. -/
@[reducible] def Answer : SetMapUse → Type
  | .ask use => use.Answer
  | .size => Nat

/-- What an answer hands out. -/
def handed : (use : SetMapUse) → use.Answer → List (Lent Unit)
  | .ask use, a => use.handed a
  | .size, _ => []

section Serving

variable (g : Regime V) (i : Nat)

/-- Serve a caller of base map of sets `i`. -/
def on (w : World V) (lent : List (Lent Unit)) (t : Token) :
    (use : SetMapUse) → Except Halt use.Answer × World V
  | .ask use => g.act w (use.on (fun _ => Backend.setMap i) lent t)
  | .size => (.ok ((w.setMaps.nth i).content.size w.clock), w)

/-- What a caller's turn ends with. -/
def turn (h : Custody V Unit) (turn : Turn SetMapUse) : Except Halt turn.op.Answer × World V :=
  turn.op.on g i (h.world.atTime turn.time) h.lent turn.token

/-- A caller is served. -/
def serve (h : Custody V Unit) (turn : Turn SetMapUse) : Custody V Unit where
  world := (SetMapUse.turn g i h turn).2
  lent := h.lent ++ ((SetMapUse.turn g i h turn).1.toOption.map turn.op.handed).getD []

/-- Callers are served in turn. -/
def serveAll (h : Custody V Unit) (turns : List (Turn SetMapUse)) : Custody V Unit :=
  turns.foldl (serve g i) h

end Serving

section Promptly

variable (order : Arrangement) (epoch : Nat)

/-- Carry out a use on a map of sets that forgets at once. -/
def promptly (now date : Nat) (lent : List (Lent Unit)) :
    (use : SetMapUse) → PromptSets → use.Answer × PromptSets
  | .ask use, p => use.promptly order now date lent p
  | .size, p => (p.size, p)

/-- The turn of a caller of a map of sets that forgets at once. -/
def promptTurn (q : PromptCustody) (turn : Turn SetMapUse) : turn.op.Answer × PromptSets :=
  let (a, p) := turn.op.promptly order turn.time (epoch + turn.time) q.lent
    (q.sets.drop turn.time)
  (a, p.drop turn.time)

/-- A caller of a map of sets that forgets at once is served. -/
def promptServe (q : PromptCustody) (turn : Turn SetMapUse) : PromptCustody where
  sets := (promptTurn order epoch q turn).2
  lent := q.lent ++ turn.op.handed (promptTurn order epoch q turn).1

/-- Callers of a map of sets that forgets at once are served in turn. -/
def promptAll (q : PromptCustody) (turns : List (Turn SetMapUse)) : PromptCustody :=
  turns.foldl (promptServe order epoch) q

end Promptly

/-- A base map of sets looks like one that forgets at once, and has handed out the same sets. -/
structure Related (order : Arrangement) (epoch i : Nat) (h : Custody V Unit)
    (q : PromptCustody) : Prop where
  order_eq : h.world.arrangement = order
  epoch_eq : h.world.epoch = epoch
  lent_eq : h.lent = q.lent
  looksLike : (h.world.setMaps.nth i).content.LooksLike h.world.clock q.sets

section Related

variable {faults : Faults V} {i : Nat} {order : Arrangement} {epoch : Nat}

/-- A use answers what is answered promptly, and what it leaves looks the same. -/
theorem on_related (h : faults.Spares (.setMap i)) {w : World V} {p : PromptSets}
    (use : SetMapUse) (lent : List (Lent Unit)) (t : Token)
    (hw : (w.setMaps.nth i).content.LooksLike w.clock p) :
    let out := use.on faults.regime i w lent t
    let prompt := use.promptly w.arrangement w.clock w.date lent p
    out.1 = .ok prompt.1 ∧ out.2.stand.moment = w.stand.moment ∧
      (out.2.setMaps.nth i).content.LooksLike w.clock (prompt.2.drop w.clock) := by
  cases use with
  | ask use =>
    have hends := h.ends_use_promptly (s := w.stand) (t := t) use lent ⟨rfl, hw⟩
    obtain ⟨a, ha, rfl, hmoment, hleft⟩ := Action.ends_act hends
    exact ⟨ha, hmoment, hleft⟩
  | size =>
    refine ⟨?_, rfl, hw.refl⟩
    change Except.ok ((w.setMaps.nth i).content.size w.clock) = .ok p.size
    rw [← hw.prompt_eq, EntryMap.size_prompt]

/-- A turn at a later time answers what is answered promptly. What it hands out is the same, and
what it leaves looks the same. -/
theorem turn_related (hspares : faults.Spares (.setMap i)) {h : Custody V Unit}
    {q : PromptCustody} (turn : Turn SetMapUse) (hle : h.world.clock ≤ turn.time)
    (hh : Related order epoch i h q) :
    (SetMapUse.turn faults.regime i h turn).1 = .ok (promptTurn order epoch q turn).1 ∧
      (serve faults.regime i h turn).world.clock = turn.time ∧
      Related order epoch i (serve faults.regime i h turn) (promptServe order epoch q turn) := by
  obtain ⟨rfl, rfl, hlent, hlooks⟩ := hh
  obtain ⟨hanswer, hmoment, hleft⟩ := on_related (w := h.world.atTime turn.time) hspares turn.op
    q.lent turn.token (hlooks.drop hle)
  rw [← hlent] at hanswer hmoment hleft
  have hsame : (SetMapUse.turn faults.regime i h turn).1 =
      .ok (promptTurn h.world.arrangement h.world.epoch q turn).1 := by
    unfold promptTurn
    rw [← hlent]
    exact hanswer
  have hclock : (serve faults.regime i h turn).world.clock = turn.time := congrArg (·.1) hmoment
  have hepoch := World.epoch_eq_of_moment (w := h.world.atTime turn.time) hmoment
  refine ⟨hsame, hclock, congrArg (·.2.2) hmoment, hepoch, ?_, ?_⟩
  · unfold serve promptServe
    rw [hsame, hlent]
    rfl
  · rw [hclock]
    unfold promptServe promptTurn
    rw [← hlent]
    exact hleft

/-- After turns at times that do not go back the map of sets still looks the same. -/
theorem all_related (hspares : faults.Spares (.setMap i)) {h : Custody V Unit}
    {q : PromptCustody} {turns : List (Turn SetMapUse)} {last : Turn SetMapUse}
    (htimes : (h.world.clock :: (turns ++ [last]).map Turn.time).Pairwise (· ≤ ·))
    (hh : Related order epoch i h q) :
    Related order epoch i (serveAll faults.regime i h turns) (promptAll order epoch q turns) ∧
      (serveAll faults.regime i h turns).world.clock ≤ last.time := by
  refine foldl_related (fun h : Custody V Unit => h.world.clock) (fun h q turn hle hh => ?_) hh
    htimes
  obtain ⟨-, hclock, hleft⟩ := turn_related hspares turn hle hh
  exact ⟨hleft, hclock⟩

end Related

end SetMapUse

/-- **Lazy eviction cannot be observed.** Callers are served one after the other, at times that do
not go back; none of their calls fails. Every answer of a base map, but the number of entries that a
purge drops, is the answer of a map that drops each entry at the instant its deadline comes. Every
answer of a base map of sets, and of the sets it has handed out, is that of a map which does so and
in which a key exists exactly while its set has a member: no use ever leaves a key with no members.
-/
theorem answers_promptly (faults : Faults V) (w : World V) (i : Nat) :
    (faults.Spares (.map i) →
      ∀ (turns : List (Turn (MapUse V))) (last : Turn (MapUse V)),
        (w.clock :: (turns ++ [last]).map Turn.time).Pairwise (· ≤ ·) →
        (MapUse.turn faults.regime i (MapUse.serveAll faults.regime i w turns) last).1 =
          .ok (MapUse.promptTurn w.arrangement w.epoch (MapUse.promptAll w.arrangement w.epoch
            ((w.maps.nth i).content.prompt w.clock) turns) last).1) ∧
    (faults.Spares (.setMap i) → ∀ hw : (w.setMaps.nth i).content.Populated,
      ∀ (turns : List (Turn SetMapUse)) (last : Turn SetMapUse),
        (w.clock :: (turns ++ [last]).map Turn.time).Pairwise (· ≤ ·) →
        let h := SetMapUse.serveAll faults.regime i ⟨w, []⟩ turns
        let q := SetMapUse.promptAll w.arrangement w.epoch
          ⟨(w.setMaps.nth i).content.promptSets w.clock hw, []⟩ turns
        (SetMapUse.turn faults.regime i h last).1 =
            .ok (SetMapUse.promptTurn w.arrangement w.epoch q last).1 ∧
          ∀ now k members, ((SetMapUse.serve faults.regime i h last).world.setMaps.nth
            i).content.live? now k = some members → members.isEmpty = false) := by
  refine ⟨fun hspares turns last htimes => ?_, fun hspares hw turns last htimes => ?_⟩
  · obtain ⟨hrelated, hle⟩ := MapUse.all_related hspares htimes ⟨rfl, rfl, rfl⟩
    exact (MapUse.turn_related hspares last hle hrelated).1
  · have hstart := MemberMap.looksLike_promptSets hw w.clock
    obtain ⟨hrelated, hle⟩ := SetMapUse.all_related (h := ⟨w, []⟩) (q := ⟨_, []⟩) hspares htimes
      ⟨rfl, rfl, rfl, hstart⟩
    obtain ⟨hanswer, -, hleft⟩ := SetMapUse.turn_related hspares last hle hrelated
    refine ⟨hanswer, fun now k members hlive => ?_⟩
    obtain ⟨slot, hs, -, rfl⟩ := (EntryMap.live?_eq_some_iff _ now).1 hlive
    exact (hleft.looksLike.populated k slot hs).2

/-- An expired entry is not overwritten by an addition that may not overwrite, but replaced. A set
that was handed out before its key expired has, when it is used again, only the member that was
added since, and no deadline. -/
theorem answers_promptly_after_deadline :
    let k : Key := .text "k"
    let w : World Nat :=
      { maps := (∅ : Shelf (Base (EntryMap Nat))).put 0 { content := .ofList [(k, 7)] }
        setMaps := (∅ : Shelf (Base MemberMap)).put 0 { content := .ofList [(k, ["a", "b"])] } }
    let regime : Regime Nat := (Faults.hitting []).regime
    let turns : List (Turn (MapUse Nat)) :=
      [{ op := .call (.expire k 5) }, { op := .size, time := 4 }]
    let last : Turn (MapUse Nat) := { op := .call (.add k 8 false), time := 5 }
    let setTurns : List (Turn SetMapUse) :=
      [{ op := .ask (.reach () k) }, { op := .ask (.expire () k 5) },
        { op := .ask (.member 0 (.add "c")), time := 7 }]
    let setLast : Turn SetMapUse := { op := .ask (.member 0 .count), time := 20 }
    (MapUse.turn regime 0 (MapUse.serveAll regime 0 w turns) last).1 = .ok true ∧
      (SetMapUse.turn regime 0 (SetMapUse.serveAll regime 0 ⟨w, []⟩ setTurns) setLast).1 =
        .ok (some 1) := by
  intro k w regime turns last setTurns setLast
  obtain ⟨hmap, hsets⟩ := answers_promptly (Faults.hitting []) w 0
  have hanswer := hmap (Faults.spares_hitting_nil _) turns last (by decide)
  obtain ⟨hcount, -⟩ := hsets (Faults.spares_hitting_nil _)
    (MemberMap.Furnished.ofList trivial _) setTurns setLast (by decide)
  exact ⟨hanswer.trans (congrArg Except.ok (by decide +kernel)),
    hcount.trans (congrArg Except.ok (by decide +kernel))⟩

end TwinStore
