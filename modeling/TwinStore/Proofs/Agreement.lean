import TwinStore.Proofs.Turns

/-!
# When the stores of a pair agree

While a pair is down its stores drift apart. They have come together again whenever it is up, over
any run of turns and under any faults (`Scene.Agrees`): those of maps and of sets that are backed
up, unless a repair of the secondary failed, and those of replicated maps whose secondary never
fails. There the secondary always holds what a single map would hold, and a success of the primary
ends the outage.
-/

namespace TwinStore

variable {V σ α Op : Type}

/-- An operation that is rejected changes nothing. -/
def Effect.Refuses [WriteOutcome α] (e : Effect σ α) : Prop :=
  ∀ c a, e.answers c a → WriteOutcome.isAccepted a = false → e.after c = c

/-- If the run is a repair of the secondary, no call failed within it. -/
def Span.UnfailingIfRepair (span : Span (Scene σ)) : Prop :=
  span.kind = .repair → ∀ side, span.finish.failures side = span.start.failures side

instance (P : Side → Prop) [DecidablePred P] : Decidable (∀ side, P side) :=
  decidable_of_iff (P .primary ∧ P .secondary)
    ⟨fun h side => match side with
      | .primary => h.1
      | .secondary => h.2, fun h => ⟨h .primary, h .secondary⟩⟩

instance : DecidablePred (Span.UnfailingIfRepair (σ := σ)) := fun span =>
  inferInstanceAs (Decidable (span.kind = .repair →
    ∀ side, span.finish.failures side = span.start.failures side))

namespace Scene

/-! ## Agreement while up -/

/-- While the pair is up, both stores hold the same. -/
def Agrees (s : Scene σ) : Prop :=
  s.health = .up → s.contents .primary = s.contents .secondary

variable {z : Hazard σ} {e : Effect σ α} {s s' : Scene σ}

theorem Recovered.agrees {r : Except Halt Unit} {js : List (Span (Scene σ))}
    (h : Recovered z s r js s') (hs : s.Agrees) : s'.Agrees := by
  cases h with
  | idle _ => exact hs
  | done report s' _ run =>
    intro _
    cases run with
    | done _ c hc eq =>
      subst hc
      rw [contents_turn, eq, contents_put_self, secondary_put_primary]
  | failed cause s' down run =>
    intro hup
    rw [run.health, down] at hup
    cases hup

/-- An operation that changes nothing leaves an agreeing pair in agreement, whatever fails. -/
theorem Fallback.agrees {r : Except Halt α} {js : List (Span (Scene σ))}
    (h : Fallback z e s r js s') (hread : e.after = id) (hs : s.Agrees) : s'.Agrees := by
  cases h with
  | kept a s₁ r js s₂ first recovered =>
    refine recovered.agrees ?_
    cases first with
    | done _ _ eq =>
      rw [eq, hread, id, put_contents]
      exact hs
  | diverted cause s₁ r s₂ first second =>
    intro hup
    rw [second.health] at hup
    cases hup

/-- A write that is backed up leaves an agreeing pair in agreement unless a repair fails. -/
theorem Backup.agrees [WriteOutcome α] {r : Except Halt α} {js : List (Span (Scene σ))}
    (h : Backup z e s r js s')
    (hrefuses : e.Refuses) (hclean : ∀ span ∈ js, span.UnfailingIfRepair) (hs : s.Agrees) :
    s'.Agrees := by
  cases h with
  | diverted cause s₁ r s₂ first second =>
    intro hup
    rw [second.health] at hup
    cases hup
  | rejected a s₁ first rejected =>
    cases first with
    | done _ answers eq =>
      rw [eq, hrefuses _ a answers rejected, put_contents]
      exact hs
  | passedOn a s₁ b s₂ r js s₃ first second recovered =>
    refine recovered.agrees ?_
    cases first with
    | done _ _ eq₁ =>
      cases second with
      | done _ _ eq₂ =>
        intro hup
        rw [eq₂, eq₁] at hup ⊢
        rw [primary_put_secondary, contents_put_self, contents_put_self, secondary_put_primary,
          hs hup]
  | unrecovered a s₁ cause s₂ halt js s₃ first second recovered =>
    intro hup
    rw [recovered.down] at hup
    cases hup
  | repaired a s₁ cause s₂ js s₃ report s₄ first second recovered repair =>
    intro _
    cases repair with
    | done _ c hc eq =>
      subst hc
      rw [eq, contents_put_self, primary_put_secondary]
    | failed cause' side c _ _ worse =>
      -- The repair met a failure.
      have hsame : s'.failures side = s₃.failures side :=
        hclean ⟨.repair, s₃, _, s'⟩ (List.mem_append_right _ List.mem_cons_self) rfl side
      have hmore := worse.failed
      rw [failures_put, hsame] at hmore
      exact absurd hmore (Nat.lt_irrefl _)

end Scene

/-! ## Backed up maps and sets -/

theorem Entries.refuses_adding (k : Key) (v : V) (overwrite : Bool) :
    (adding k v overwrite).Refuses := by
  intro c a h ha
  cases (ha : a = false)
  simp only [adding, Bool.false_eq, Bool.not_eq_false'] at h ⊢
  rw [if_pos h]

theorem Entries.refuses_removing (k : Key) : (removing (V := V) k).Refuses := by
  intro c a h ha
  cases (ha : a = false)
  have hk : c k = none := by simpa [removing] using h.symm
  funext k'
  change c.set k none k' = c k'
  by_cases he : k = k'
  · subst he
    rw [set_self, hk]
  · rw [set_of_ne _ _ he]

theorem Members.refuses_adding (x : String) : (adding x).Refuses := by
  intro c a _ ha
  cases ha

theorem Members.refuses_removing (x : String) : (removing x).Refuses := by
  intro c a h ha
  cases (ha : a = false)
  refine Std.ExtTreeSet.ext_mem fun y => ?_
  change y ∈ c.erase x ↔ y ∈ c
  rw [mem_erase_iff]
  refine ⟨And.right, fun hy => ⟨?_, hy⟩⟩
  rintro rfl
  rw [Std.ExtTreeSet.mem_iff_contains] at hy
  exact absurd (h.trans hy) (by decide)

/-- No operation of a pair of maps that is backed up takes an agreeing pair apart. -/
theorem Doubling.agrees_of_backup_step {z : Hazard (Entries V)} {op : PlainOp V}
    {s s' : Scene (Entries V)} {r : Except Halt op.Answer} {js : List (Span (Scene (Entries V)))}
    (h : Doubling.backup.Step z op s r js s') (hclean : ∀ span ∈ js, span.UnfailingIfRepair)
    (hs : s.Agrees) : s'.Agrees := by
  cases op with
  | add k v overwrite =>
    exact Scene.Backup.agrees h (Entries.refuses_adding k v overwrite) hclean hs
  | get k => exact Scene.Fallback.agrees h rfl hs
  | remove k => exact Scene.Backup.agrees h (Entries.refuses_removing k) hclean hs
  | contains k => exact Scene.Fallback.agrees h rfl hs
  | keys =>
    obtain ⟨ks, _, h⟩ := h
    exact h.agrees rfl hs

/-- No operation of a pair of sets takes an agreeing pair apart. -/
theorem SetPair.agrees_of_step {z : Hazard MemberSet} {op : SetOp} {s s' : Scene MemberSet}
    {js : List (Span (Scene MemberSet))} (h : Step z op s js s')
    (hclean : ∀ span ∈ js, span.UnfailingIfRepair) (hs : s.Agrees) : s'.Agrees := by
  cases op with
  | add x =>
    obtain ⟨r, h⟩ := h
    exact h.agrees (Members.refuses_adding x) hclean hs
  | remove x =>
    obtain ⟨r, h⟩ := h
    exact h.agrees (Members.refuses_removing x) hclean hs
  | members =>
    obtain ⟨r, h⟩ := h
    exact h.agrees rfl hs
  | contains x =>
    obtain ⟨r, h⟩ := h
    exact h.agrees rfl hs
  | count =>
    obtain ⟨r, h⟩ := h
    exact h.agrees rfl hs

namespace View

/-- The pair is as it should be, up, and both its stores hold the same. -/
structure InStep (v : View V σ) (w : World V) : Prop where
  fit : v.Fit w
  up : (v.scene w).health = .up
  same : (v.scene w).contents .primary = (v.scene w).contents .secondary

/-- No call failed within a repair of the secondary. -/
def RepairsUnfailing (v : View V σ) (js : List (Span (World V))) : Prop :=
  ∀ span ∈ js, (span.map v.scene).UnfailingIfRepair

instance (v : View V σ) : DecidablePred v.RepairsUnfailing := fun js =>
  inferInstanceAs (Decidable (∀ span ∈ js, (span.map v.scene).UnfailingIfRepair))

end View

/-- **The stores of a pair that is backed up agree whenever it is up**: over any run of turns and
under any faults, as long as no call fails within a repair of the secondary. -/
theorem backup_agrees_when_up (faults : Faults V) (name : String) (limit : Nat) (w : World V) :
    (∀ (p : MapPair) (turns : List (Turn (PlainOp V))), (p.view V).InStep w →
      (∀ turn ∈ turns, turn.time ≤ p.horizon) →
      (p.view V).RepairsUnfailing
        (Doubling.backup.journal faults (p.engine V name limit) w turns) →
      ((p.view V).scene (Doubling.backup.serve faults (p.engine V name limit) w turns)).Agrees) ∧
    (∀ (p : SetPair) (turns : List (Turn SetOp)), (p.view V).InStep w →
      (p.view V).RepairsUnfailing ((p.engine V name limit).setJournal faults w turns) →
      ((p.view V).scene ((p.engine V name limit).serveSet faults w turns)).Agrees) := by
  refine ⟨fun p turns hstart htimes hclean => ?_, fun p turns hstart hclean => ?_⟩
  · obtain ⟨-, hrun⟩ := MapPair.run_turns .backup faults name limit hstart.fit turns htimes
    refine hrun.preserves ?_ (List.forall_mem_map.2 hclean) fun _ => hstart.same
    rintro op s js s' ⟨r, hstep⟩ hjs hs
    exact Doubling.agrees_of_backup_step hstep hjs hs
  · obtain ⟨-, hrun⟩ := SetPair.run_turns faults name limit hstart.fit turns
    refine hrun.preserves ?_ (List.forall_mem_map.2 hclean) fun _ => hstart.same
    intro op s js s' hstep hjs hs
    exact SetPair.agrees_of_step hstep hjs hs

/-! ### A new pair -/

/-- Two maps with the same entries and a new health record. -/
def World.twinMaps (entries : List (Key × V)) : World V :=
  let base : Base (EntryMap V) := { content := .ofList entries }
  (World.newEngine { maps := ((∅ : Shelf (Base (EntryMap V))).put 0 base).put 1 base } "pair" 16).2

/-- Two sets with the same members and a new health record. -/
def World.twinSets (V : Type) (members : List String) : World V :=
  let base : Base MemberSet := { content := Std.ExtTreeSet.ofList members }
  (World.newEngine { sets := ((∅ : Shelf (Base MemberSet)).put 0 base).put 1 base } "pair" 16).2

/-- The maps of `World.twinMaps`. -/
def MapPair.twins (horizon : Nat) : MapPair :=
  { core := 0, primary := 0, secondary := 1, ne := Nat.zero_ne_one, horizon }

/-- The sets of `World.twinSets`. -/
def SetPair.twins : SetPair :=
  { core := 0, primary := 0, secondary := 1, ne := Nat.zero_ne_one }

theorem MapPair.inStep_twins (entries : List (Key × V)) (horizon : Nat) :
    ((twins horizon).view V).InStep (World.twinMaps entries) where
  fit := by
    refine ⟨Nat.zero_le _, fun side => ?_⟩
    cases side <;> exact ⟨EntryMap.outlasts_ofList entries horizon, rfl⟩
  up := rfl
  same := rfl

theorem SetPair.inStep_twins (members : List String) :
    (twins.view V).InStep (World.twinSets V members) where
  fit := trivial
  up := rfl
  same := rfl

/-- The secondary misses a write, the primary fails, a recovery fails half-way, another ends. -/
theorem backup_agrees_after_failed_recovery :
    (let after := Doubling.backup.serve (Faults.hitting [1, 8, 14])
        ((MapPair.twins 100).engine Nat "pair" 1000) (World.twinMaps [(.number 1, 10)])
        [{ op := .add (.number 2) 7 true }, { op := .add (.number 3) 9 true },
          { op := .get (.number 1) }, { op := .remove (.number 1) }]
      let s := ((MapPair.twins 100).view Nat).scene after
      s.health = .up ∧ s.contents .primary = s.contents .secondary) ∧
    (let after := (SetPair.twins.engine Nat "pair" 1000).serveSet (Faults.hitting [1, 6, 12])
        (World.twinSets Nat ["a"])
        [{ op := .add "b" }, { op := .add "c" }, { op := .contains "a" }, { op := .remove "a" }]
      let s := (SetPair.twins.view Nat).scene after
      s.health = .up ∧ s.contents .primary = s.contents .secondary) := by
  refine ⟨⟨rfl, ?_⟩, ⟨rfl, ?_⟩⟩
  · exact (backup_agrees_when_up (Faults.hitting [1, 8, 14]) "pair" 1000 _).1 (MapPair.twins 100) _
      (MapPair.inStep_twins _ _) (by decide) (by decide +kernel) rfl
  · exact (backup_agrees_when_up (Faults.hitting [1, 6, 12]) "pair" 1000 _).2 SetPair.twins _
      (SetPair.inStep_twins _) (by decide +kernel) rfl

/-! ## Replicated maps whose secondary never fails -/

namespace Scene

variable {z : Hazard σ} {e : Effect σ α} {s s' : Scene σ}

section Fallback

variable {r : Except Halt α} {js : List (Span (Scene σ))} (h : Fallback z e s r js s')
include h

theorem Fallback.secondary_of_read (hread : e.after = id) :
    s'.contents .secondary = s.contents .secondary := by
  have hsame : ∀ {side s₁ s₂ r}, Tried z e side s₁ s₂ r → s₂.contents = s₁.contents := by
    rintro side s₁ s₂ r (⟨_, _, eq⟩ | ⟨_, _, eq⟩)
    · rw [eq, hread, id, put_contents]
    · rw [eq, contents_blame]
  cases h with
  | kept a s₁ r js s₂ first recovered => rw [recovered.secondary, hsame first]
  | diverted cause s₁ r s₂ first second => rw [hsame second, contents_turn, hsame first]

theorem Fallback.up_of_unfailing (hfrail : ¬ z.frail .secondary)
    (hf : s'.failures .primary = s.failures .primary) : s'.health = .up := by
  cases h with
  | kept a s₁ r js s₂ first recovered =>
    have h₁ := first.failures_le .primary
    have h₂ := recovered.failures_le .primary
    exact recovered.up_of_unfailing hfrail (by omega)
  | diverted cause s₁ r s₂ first second =>
    have h₁ := first.lt_of_failed
    have h₂ := second.failures_le .primary
    rw [failures_turn] at h₂
    omega

end Fallback

section Replicate

variable {r : Except Halt α} {js : List (Span (Scene σ))} (h : Replicate z e s r js s')
include h

/-- Every write reaches a secondary that cannot fail. -/
theorem Replicate.secondary (hfrail : ¬ z.frail .secondary) :
    s'.contents .secondary = e.after (s.contents .secondary) := by
  have hfirst : ∀ {s₁ r}, Tried z e .primary s s₁ r →
      s₁.contents .secondary = s.contents .secondary := by
    rintro s₁ r (⟨_, _, eq⟩ | ⟨_, _, eq⟩)
    · rw [eq, secondary_put_primary]
    · rw [eq, contents_blame]
  cases h with
  | kept a s₁ r₂ s₂ r js s₃ first second recovered =>
    obtain ⟨-, eq⟩ := second.done_of_not_frail hfrail
    rw [recovered.secondary, eq, contents_put_self, hfirst first]
  | diverted cause s₁ r s₂ first second =>
    obtain ⟨-, eq⟩ := second.done_of_not_frail hfrail
    rw [contents_turn, eq, contents_put_self, hfirst first]

/-- Both stores have done the same, or the pair is down. -/
theorem Replicate.agrees (hfrail : ¬ z.frail .secondary) (hs : s.Agrees) : s'.Agrees := by
  cases h with
  | kept a s₁ r₂ s₂ r js s₃ first second recovered =>
    refine recovered.agrees fun hup => ?_
    obtain ⟨-, eq₂⟩ := second.done_of_not_frail hfrail
    cases first with
    | done _ _ eq₁ =>
      rw [eq₂, eq₁] at hup ⊢
      rw [primary_put_secondary, contents_put_self, contents_put_self, secondary_put_primary,
        hs hup]
  | diverted cause s₁ r s₂ first second =>
    intro hup
    cases hup

theorem Replicate.up_of_unfailing (hfrail : ¬ z.frail .secondary)
    (hf : s'.failures .primary = s.failures .primary) : s'.health = .up := by
  cases h with
  | kept a s₁ r₂ s₂ r js s₃ first second recovered =>
    have h₁ := first.failures_le .primary
    have h₂ := second.failures_le .primary
    have h₃ := recovered.failures_le .primary
    exact recovered.up_of_unfailing hfrail (by omega)
  | diverted cause s₁ r s₂ first second =>
    have h₁ := first.lt_of_failed
    have h₂ := second.failures_le .primary
    rw [failures_turn] at hf
    omega

end Replicate

end Scene

/-- What an operation of a replicated map does if the secondary cannot fail: the secondary follows,
agreement stays, and without a failure of the primary the pair is up. -/
theorem Doubling.replicated_step {z : Hazard (Entries V)} (hfrail : ¬ z.frail .secondary)
    {op : PlainOp V} {s s' : Scene (Entries V)} {r : Except Halt op.Answer}
    {js : List (Span (Scene (Entries V)))} (h : Doubling.replicated.Step z op s r js s') :
    s'.contents .secondary = op.after (s.contents .secondary) ∧ (s.Agrees → s'.Agrees) ∧
      (s'.failures .primary = s.failures .primary → s'.health = .up) := by
  have hread : ∀ {α : Type} {e : Effect (Entries V) α} {r : Except Halt α},
      e.after = id → Scene.Fallback z e s r js s' →
      s'.contents .secondary = s.contents .secondary ∧ (s.Agrees → s'.Agrees) ∧
        (s'.failures .primary = s.failures .primary → s'.health = .up) := fun hid h =>
    ⟨h.secondary_of_read hid, h.agrees hid, h.up_of_unfailing hfrail⟩
  have hwrite : ∀ {e : Effect (Entries V) Bool} {r : Except Halt Bool},
      Scene.Replicate z e s r js s' →
      s'.contents .secondary = e.after (s.contents .secondary) ∧ (s.Agrees → s'.Agrees) ∧
        (s'.failures .primary = s.failures .primary → s'.health = .up) := fun h =>
    ⟨h.secondary hfrail, h.agrees hfrail, h.up_of_unfailing hfrail⟩
  cases op with
  | add k v overwrite => exact hwrite h
  | get k => exact hread rfl h
  | remove k => exact hwrite h
  | contains k => exact hread rfl h
  | keys =>
    obtain ⟨ks, -, h⟩ := h
    exact hread rfl h

/-- **A replicated map whose secondary never fails**, over any run of turns: the secondary holds
what a single map would hold after the same writes, both maps hold the same whenever the pair is up,
and a turn in which no call of the primary fails leaves the pair up. -/
theorem replicated_secondary_tracks_writes (p : MapPair) (faults : Faults V) (name : String)
    (limit : Nat) (w : World V) (turns : List (Turn (PlainOp V)))
    (hspared : faults.Spares (.map p.secondary)) (hstart : (p.view V).InStep w)
    (htimes : ∀ turn ∈ turns, turn.time ≤ p.horizon) :
    let serve := Doubling.replicated.serve faults (p.engine V name limit)
    let after := (p.view V).scene (serve w turns)
    after.contents .secondary = (turns.map Turn.op).foldl (fun c op => op.after c)
      (((p.view V).scene w).contents .secondary) ∧
    after.Agrees ∧
    ∀ turn, turn.time ≤ p.horizon →
      let last := (p.view V).scene (serve (serve w turns) [turn])
      last.failures .primary = after.failures .primary →
      last.health = .up ∧ last.contents .primary = last.contents .secondary := by
  intro serve after
  have hfrail : ¬ (p.hazard faults).frail .secondary := fun h => h hspared
  obtain ⟨hfit, hrun⟩ := MapPair.run_turns .replicated faults name limit hstart.fit turns htimes
  have hagrees : after.Agrees := by
    refine hrun.preserves (Q := fun _ => True) ?_ (fun _ _ => trivial) fun _ => hstart.same
    rintro op s js s' ⟨r, hstep⟩ - hs
    exact (Doubling.replicated_step hfrail hstep).2.1 hs
  refine ⟨?_, hagrees, ?_⟩
  · refine hrun.fold PlainOp.after (fun s => s.contents .secondary) ?_
    rintro op s js s' ⟨r, hstep⟩
    exact (Doubling.replicated_step hfrail hstep).1
  · intro turn htime last hf
    obtain ⟨-, hlast⟩ := MapPair.run_turns .replicated faults name limit hfit [turn]
      (List.forall_mem_singleton.2 htime)
    obtain ⟨r, hstep⟩ := hlast.single
    obtain ⟨-, hkeep, hup⟩ := Doubling.replicated_step hfrail hstep
    exact ⟨hup hf, hkeep hagrees (hup hf)⟩

/-- The primary misses a write and fails again within the recovery; the next turn ends the outage.
-/
theorem replicated_tracks_through_outage :
    let faults := (Faults.hitting [0, 6]).within (.map 0)
    let serve := Doubling.replicated.serve faults ((MapPair.twins 100).engine Nat "pair" 1000)
    let w := World.twinMaps [(.number 1, 10)]
    let turns : List (Turn (PlainOp Nat)) :=
      [{ op := .add (.number 2) 7 true }, { op := .get (.number 2) }]
    let after := ((MapPair.twins 100).view Nat).scene (serve w turns)
    let last := ((MapPair.twins 100).view Nat).scene
      (serve (serve w turns) [{ op := .remove (.number 1) }])
    after.health = .down ∧
    after.contents .secondary = (turns.map Turn.op).foldl (fun c op => op.after c)
      ((((MapPair.twins 100).view Nat).scene w).contents .secondary) ∧
    last.health = .up ∧ last.contents .primary = last.contents .secondary := by
  have h := replicated_secondary_tracks_writes (MapPair.twins 100)
    ((Faults.hitting [0, 6]).within (.map 0)) "pair" 1000 (World.twinMaps [(.number 1, 10)])
    [{ op := .add (.number 2) 7 true }, { op := .get (.number 2) }]
    (Faults.spares_within _ (by decide)) (MapPair.inStep_twins _ _) (by decide)
  refine ⟨by decide +kernel, h.1, h.2.2 { op := .remove (.number 1) } (by decide) ?_⟩
  decide +kernel

end TwinStore
