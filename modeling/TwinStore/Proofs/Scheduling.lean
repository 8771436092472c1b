import TwinStore.Proofs.Following

/-!
# Schedules are interleavings

The schedule of a `Machine` is one of the orders in which the callers of a pool may take their
turns, and what it answers is among what they may be answered: a machine that is followed by a pool
is still followed after any of its turns (`Machine.Followed.turns`). So what holds of every pool
that may come about holds of every world to which a machine comes, `Machine.orderly_turns`.
-/

namespace TwinStore

variable {S V R H α : Type}

namespace Machine

variable {m m' : Machine S V R} {b b' : Nat} {w : Wait S V R}
  {conclude : R → S → World V → S × World V} {root : Engine V H} {p p' : Pool V}

/-! ## Running branches -/

/-- The branch has its turn, and has this program left. -/
structure Running (root : Engine V H) (m : Machine S V R) (b : Nat) (q : Prog V R) : Prop where
  there : ∃ w conclude, m.face b = some (w, conclude)
  followed : (m.setWait b (.turn q)).Followed root

/-- What an operation of a branch may come to: an answer, with which the branch goes on, or a
wait. -/
def Goes (root : Engine V H) (b : Nat) (next : α → Prog V R) : Option α × Machine S V R → Prop
  | (some a, m) => m.Running root b (next a)
  | (none, m) => m.Followed root

variable {q : Prog V R}

theorem Running.face (h : m.Running root b q) :
    ∃ conclude, (m.setWait b (.turn q)).face b = some (.turn q, conclude) := by
  obtain ⟨w, conclude, hb⟩ := h.there
  exact ⟨conclude, face_setWait_self hb _⟩

theorem Running.free (h : m.Running root b q) : (m.setWait b (.turn q)).Free b := by
  obtain ⟨conclude, hb⟩ := h.face
  obtain ⟨p, -, hf⟩ := h.followed
  exact hf.free hb nofun

theorem Running.alike (h : m.Running root b q) (ha : Alike root.core m m') :
    m'.Running root b q where
  there := by
    rw [ha.face b]
    exact h.there
  followed := h.followed.alike (ha.setWait b _)

/-- A branch is answered, and goes on. -/
theorem Running.of_told (hm : m.Followed root) (hb : m.face b = some (w, conclude))
    {r : Request V} {rest : r.Answer → Prog V Unit} (hleft : w.left = .ask r rest)
    (hfree : m.Free b) {a : r.Answer}
    (hans : ∀ p, m.Follows root p → Pool.Answers root.core b p r a p)
    (hq : rest a = q.forget) : m.Running root b q where
  there := ⟨w, conclude, hb⟩
  followed := hm.told hb hleft hfree hans hq

/-- Whatever the branch has been made to wait for, it goes on with its program. -/
theorem Running.of_setWait (h : (m.setWait b w).Running root b q) : m.Running root b q where
  there := by
    obtain ⟨w', conclude', hb⟩ := h.there
    rw [face_setWait, if_pos rfl] at hb
    obtain ⟨wc, hface, -⟩ := Option.map_eq_some_iff.mp hb
    exact ⟨wc.1, wc.2, hface⟩
  followed := h.followed.alike (alike_setWait_setWait m b w _)

theorem Running.told {r : Request V} {next : r.Answer → Prog V R}
    (h : m.Running root b (.ask r next)) {a : r.Answer}
    (hans : ∀ p, p.world = m.world → Pool.Answers root.core b p r a p) :
    m.Running root b (next a) := by
  obtain ⟨conclude, hb⟩ := h.face
  exact .of_setWait (.of_told h.followed hb rfl h.free (fun p hf => hans p hf.world) rfl)

theorem Follows.changed (hf : m.Follows root p) {w' : World V}
    (hw' : m.world.engineCount ≤ w'.engineCount) (log : List (Mark V)) :
    Follows root { m with world := w' } { p with world := w', log } where
  waits := hf.waits
  distinct := hf.distinct
  nodup := hf.nodup
  count := Nat.lt_of_lt_of_le hf.count hw'
  serves := hf.serves
  world := rfl
  left := hf.left
  holder := hf.holder

/-- The record is changed as the pool changes it. -/
theorem Running.marked {r : Request V} {next : r.Answer → Prog V R}
    (h : m.Running root b (.ask r next)) {a : r.Answer} {w' : World V}
    (hw' : m.world.engineCount ≤ w'.engineCount)
    (hans : ∀ p, p.world = m.world → ∃ log,
      Pool.Answers root.core b p r a { p with world := w', log }) :
    Running root { m with world := w' } b (next a) where
  there := h.there
  followed := by
    obtain ⟨conclude, hb⟩ := h.face
    -- The branch's wait is as it was.
    have hb' : Machine.face { m.setWait b (.turn (.ask r next)) with world := w' } b =
        some (.turn (.ask r next), conclude) := hb
    have hfree' : Machine.Free { m.setWait b (.turn (.ask r next)) with world := w' } b := h.free
    have hex := h.followed.exchange (a := a) hb rfl (fun p hf => ?_) hb' hfree' rfl
    · exact hex.alike (alike_setWait_setWait { m with world := w' } b _ _)
    · obtain ⟨log, hans⟩ := hans p hf.world
      exact ⟨_, hans, hf.changed hw' log⟩

/-- What the world itself answers. -/
theorem Running.served {r : Request V} {next : r.Answer → Prog V R}
    (h : m.Running root b (.ask r next)) (ha : ∀ l, r ≠ .acquire l) (hr : ∀ l, r ≠ .release l) :
    Running root { m with world := (m.world.answer r).2 } b (next (m.world.answer r).1) := by
  have hcount : root.core < m.world.engineCount := by
    obtain ⟨p, -, hf⟩ := h.followed
    exact hf.count
  by_cases hc : r.Concerns root.core
  · cases r with
    | health c =>
      cases hc
      refine h.told fun p hw => ?_
      change Pool.Answers _ b p (.health root.core) (m.world.engines.nth root.core).health p
      rw [← hw]
      exact .looked
    | markDown c cause =>
      cases hc
      refine h.marked (Nat.le_refl _) fun p hw => ⟨p.log ++ [.wentDown cause], ?_⟩
      simp only [World.answer, ← hw]
      exact .wentDown
    | markUp c =>
      cases hc
      refine h.marked (Nat.le_refl _) fun p hw => ⟨p.log ++ [.wentUp], ?_⟩
      simp only [World.answer, ← hw]
      exact .wentUp
    | acquire l => exact absurd rfl (ha l)
    | release l => exact absurd rfl (hr l)
    | _ => exact absurd hc id
  · exact (h.told fun p _ => .apart hc).alike
      ⟨World.keeps_answer hc hcount, rfl, fun _ => rfl⟩

/-! ### Waits that are cut short -/

theorem alike_halt? {core : Nat} (m : Machine S V R) (b : Nat) : Alike core m (m.halt? b).2 := by
  unfold halt?
  split
  · exact alike_refl m
  · split
    · exact alike_refl m
    · split
      · refine ⟨.of_eq rfl rfl, rfl, fun b' => ?_⟩
        exact face_modifyBranch _ b b' _ fun _ => ⟨rfl, rfl⟩
      · exact alike_refl m

theorem free_withdraw (m : Machine S V R) (b : Nat) : (m.withdraw b).Free b := by
  intro l bs hmem hin
  obtain ⟨⟨l', bs'⟩, -, he⟩ := List.mem_map.mp hmem
  cases he
  exact absurd rfl (of_decide_eq_true (List.mem_filter.mp hin).2)

theorem Followed.withdraw (hm : m.Followed root) (b : Nat) : (m.withdraw b).Followed root := by
  obtain ⟨p, hp, hf⟩ := hm
  have hq := hf.toQueues.map (fun _ bs => bs.filter (· ≠ b)) fun _ _ _ => List.filter_sublist
  have hfit : (m.withdraw b).Fit root :=
    { toQueues := ⟨hq.waits, hq.distinct, hq.nodup⟩, count := hf.count, serves := hf.serves }
  have hholder : p.holder = none ∨ ∃ bs, (.engine root.core, bs) ∈ (m.withdraw b).locks := by
    refine hf.holder.imp_right ?_
    rintro ⟨bs, hmem⟩
    exact ⟨_, List.mem_map.mpr ⟨_, hmem, rfl⟩⟩
  exact ⟨p, hp, { toFit := hfit, world := hf.world, left := hf.left, holder := hholder }⟩

/-- A wait lasts, or it is cut short and the branch goes on with that. -/
theorem Followed.await (hm : (m.setWait b w).Followed root)
    (hb : (m.setWait b w).face b = some (w, conclude)) {r : Request V}
    {rest : r.Answer → Prog V Unit} (hleft : w.left = .ask r rest)
    {next : Except Halt α → Prog V R}
    (hhalt : ∀ halt, ∃ a, rest a = (next (.error halt)).forget ∧
      ∀ p, Pool.Answers root.core b p r a p) :
    Goes root b next (m.await b w) := by
  have halike : Alike root.core _ _ := alike_halt? m b
  unfold Machine.await
  generalize m.halt? b = out at halike
  obtain ⟨_ | halt, m₁⟩ := out
  · exact hm.alike (halike.setWait b w)
  · obtain ⟨a, hrest, hans⟩ := hhalt halt
    have hw := (hm.alike (halike.setWait b w)).withdraw b
    have hb₁ : (m₁.setWait b w).face b = some (w, conclude) :=
      ((halike.setWait b w).face b).trans hb
    have hrun : ((m₁.withdraw b).setWait b w).Running root b (next (.error halt)) :=
      .of_told hw hb₁ hleft (free_withdraw _ b) (fun p _ => hans p) hrest
    exact hrun.of_setWait

/-- A call may be cut short whenever it waits. -/
theorem call_halts {c : Call V} {t : Token} {next : Except Halt c.Answer → Prog V R} (halt : Halt) :
    ∃ a : (Request.call c t).Answer, (next a).forget = (next (.error halt)).forget ∧
      ∀ p, Pool.Answers root.core b p (.call c t) a p :=
  ⟨.error halt, rfl, fun _ => .apart nofun⟩

/-! ### Calls -/

theorem alike_makeReady {core : Nat} (m : Machine S V R) (b : Nat) :
    Alike core m (m.makeReady b) := by
  unfold makeReady
  split <;> exact ⟨.refl m.world, rfl, fun _ => rfl⟩

theorem alike_wakeTaker {core : Nat} (m : Machine S V R) (queue : Nat) :
    Alike core m (m.wakeTaker queue) := by
  unfold wakeTaker
  split
  · refine Alike.trans ?_ (alike_makeReady _ _)
    exact ⟨.refl m.world, rfl, fun _ => rfl⟩
  · exact alike_refl m

theorem alike_passOn {core : Nat} (m : Machine S V R) (queue : Nat) (taken : Option V) :
    Alike core m (m.passOn queue taken) := by
  unfold passOn
  split
  · exact alike_refl m
  · exact alike_wakeTaker m queue

theorem alike_announce {core : Nat} (m : Machine S V R) (c : Call V) (a : c.Answer) :
    Alike core m (m.announce c a) := by
  unfold announce
  split
  · exact alike_wakeTaker m _
  · exact alike_passOn m _ _
  · exact alike_passOn m _ _
  · exact alike_refl m

theorem alike_settle {core : Nat} (m : Machine S V R) (c : Call V) (fate : Option Strike) :
    Alike core m (m.settle c fate).2 := by
  have hworld : Alike core m { m with world := (m.world.settle c fate).2 } :=
    ⟨World.keeps_settle c fate, rfl, fun _ => rfl⟩
  unfold settle
  generalize m.world.settle c fate = out at hworld
  obtain ⟨_ | a, w'⟩ := out
  · exact hworld
  · exact hworld.trans (alike_announce _ c a)

/-- The branch waits for what its program asks for. -/
theorem Running.waits (h : m.Running root b q) (hw : ∀ make due, w ≠ .start make due)
    (hleft : w.left = q.forget) : ∃ conclude,
      (m.setWait b w).Followed root ∧ (m.setWait b w).face b = some (w, conclude) := by
  obtain ⟨conclude, hb⟩ := h.face
  have halike : Alike root.core _ _ := alike_setWait_setWait m b (.turn q) w
  refine ⟨conclude, (h.followed.rewait hb h.free hw hleft.symm).alike halike, ?_⟩
  rw [halike.face b]
  exact face_setWait_self hb w

theorem await_eq_none {m₁ : Machine S V R} (h : m.await (α := α) b w = (none, m₁)) :
    m₁ = (m.halt? b).2.setWait b w := by
  unfold Machine.await at h
  generalize m.halt? b = out at h ⊢
  obtain ⟨_ | halt, m₂⟩ := out <;> cases h
  rfl

theorem Running.awaitItem {queue : Nat} {t : Token} {next : Except Halt (Option V) → Prog V R}
    (h : m.Running root b (.ask (.call (.queue queue .take) t) next)) :
    Goes root b next (m.awaitItem b queue t next) := by
  obtain ⟨conclude, hm, hb⟩ := h.waits (w := .item queue t next) nofun rfl
  have hgoes : Goes root b next (m.await b (.item queue t next)) :=
    hm.await hb rfl fun halt => call_halts halt
  unfold Machine.awaitItem
  split
  next m₁ he =>
    rw [he] at hgoes
    split
    · -- Nobody will put an item there for it any more.
      have hb₁ : m₁.face b = some (.item queue t next, conclude) := by
        have halike : Alike root.core _ _ := alike_halt? m b
        rw [await_eq_none he, (halike.setWait b _).face b, hb]
      have hw : (m₁.withdraw b).Followed root := hgoes.withdraw b
      exact .of_told hw hb₁ rfl (free_withdraw _ b) (fun p _ => .apart nofun) rfl
    · exact hgoes
  next => exact hgoes

theorem Running.take {queue : Nat} {t : Token} {fate : Option Strike}
    {next : Except Halt (Option V) → Prog V R}
    (h : m.Running root b (.ask (.call (.queue queue .take) t) next)) :
    Goes root b next (m.take b queue t fate next) := by
  have halike : Alike root.core _ _ := alike_settle m (.queue queue .take) fate
  unfold Machine.take
  split
  next m₁ he =>
    rw [he] at halike
    have hlast : Alike root.core m { m₁ with takers := m₁.takers ++ [(queue, b)] } :=
      halike.trans ⟨.refl _, rfl, fun _ => rfl⟩
    exact (h.alike hlast).awaitItem
  next a m₁ _ he =>
    rw [he] at halike
    exact (h.told fun p _ => .apart nofun).alike halike

theorem Running.carryOut {c : Call V} {t : Token} {fate : Option Strike}
    {next : Except Halt c.Answer → Prog V R} (h : m.Running root b (.ask (.call c t) next)) :
    Goes root b next (m.carryOut b c t fate next) := by
  unfold Machine.carryOut
  split
  · exact h.take
  · exact (h.told fun p _ => .apart nofun).alike (alike_settle m _ fate)

/-! ### Locks -/

/-- A wait for a lock may be cut short. -/
theorem lock_halts {l : Lock} {next : Except Halt Unit → Prog V R} (halt : Halt) :
    ∃ a : (Request.acquire l : Request V).Answer, (next a).forget = (next (.error halt)).forget ∧
      ∀ p, Pool.Answers root.core b p (.acquire l) a p := by
  refine ⟨.error halt, rfl, fun p => ?_⟩
  by_cases hl : l = .engine root.core
  · subst hl
    exact .halted
  · exact .apart hl

/-- A pool goes on following a machine when the queues for locks change, and with them who holds the
lock of the record, as long as that has a queue while it is held. -/
theorem Follows.relocked (hf : m.Follows root p) {locks : List (Lock × List Nat)}
    (hlocks : Queues { m with locks }) {holder : Option Nat}
    (hholder : holder = none ∨ ∃ bs, (.engine root.core, bs) ∈ locks) :
    Follows root { m with locks } { p with holder } where
  toQueues := hlocks
  count := hf.count
  serves := hf.serves
  world := hf.world
  left := hf.left
  holder := hholder

/-- A lock that nobody has is taken. -/
theorem Followed.lock (hm : m.Followed root) (hb : m.face b = some (w, conclude)) {l : Lock}
    {rest : Except Halt Unit → Prog V Unit} (hleft : w.left = .ask (.acquire l) rest)
    (hl : ∀ bs, (l, bs) ∉ m.locks) {locks : List (Lock × List Nat)}
    (hlocks : Queues { m with locks }) (hfree : Free { m with locks } b)
    (hkeep : ∀ l' bs, (l', bs) ∈ m.locks → ∃ bs', (l', bs') ∈ locks) {bs : List Nat}
    (hmem : (l, bs) ∈ locks) {q : Prog V R} (hq : rest (.ok ()) = q.forget) :
    (Machine.setWait { m with locks } b (.turn q)).Followed root := by
  have hb' : Machine.face { m with locks } b = some (w, conclude) := hb
  refine hm.exchange hb hleft (fun p hf => ?_) hb' hfree hq
  by_cases hcore : l = .engine root.core
  · subst hcore
    have hnone : p.holder = none := hf.holder.resolve_right fun ⟨bs, h⟩ => hl bs h
    exact ⟨_, .locked hnone, hf.relocked hlocks (.inr ⟨bs, hmem⟩)⟩
  · have hholder := hf.holder.imp_right fun ⟨bs, h⟩ => hkeep _ bs h
    exact ⟨p, .apart hcore, hf.relocked hlocks hholder⟩

/-- A lock is given back; nobody has it then. -/
theorem Followed.unlock (hm : m.Followed root) (hb : m.face b = some (w, conclude)) {l : Lock}
    {rest : Unit → Prog V Unit} (hleft : w.left = .ask (.release l) rest) (hfree : m.Free b)
    {q : Prog V R} (hq : rest () = q.forget) :
    (Machine.setWait { m with locks := m.locks.filter (·.1 ≠ l) } b (.turn q)).Followed root := by
  have hb' : Machine.face { m with locks := m.locks.filter (·.1 ≠ l) } b = some (w, conclude) := hb
  have hfree' : Free { m with locks := m.locks.filter (·.1 ≠ l) } b := fun l' bs hmem =>
    hfree l' bs (List.mem_filter.mp hmem).1
  refine hm.exchange hb hleft (fun p hf => ?_) hb' hfree' hq
  have hlocks := hf.toQueues.filter (fun entry => entry.1 ≠ l)
  by_cases hcore : l = .engine root.core
  · subst hcore
    exact ⟨_, .unlocked, hf.relocked hlocks (.inl rfl)⟩
  · refine ⟨p, .apart hcore, hf.relocked hlocks (hf.holder.imp_right ?_)⟩
    rintro ⟨bs, hmem⟩
    exact ⟨bs, List.mem_filter.mpr ⟨hmem, decide_eq_true (Ne.symm hcore)⟩⟩

/-- A branch waits for a lock as the last of those that do. -/
theorem Followed.join {l : Lock} {next : Except Halt Unit → Prog V R}
    (hm : (m.setWait b (.lock l next)).Followed root) (hfree : m.Free b)
    (hb : (m.setWait b (.lock l next)).face b = some (.lock l next, conclude)) :
    Followed root (Machine.setWait { m with
      locks := m.locks.map fun (l', bs) => if l' = l then (l', bs ++ [b]) else (l', bs) } b
      (.lock l next)) := by
  obtain ⟨p, hp, hf⟩ := hm
  refine ⟨p, hp, hf.relocked (hf.toQueues.join hfree hb) (hf.holder.imp_right ?_)⟩
  rintro ⟨bs, hmem⟩
  have hin := List.mem_map_of_mem
    (f := fun entry : Lock × List Nat => if entry.1 = l then (entry.1, entry.2 ++ [b]) else entry)
    hmem
  dsimp only at hin
  split at hin <;> exact ⟨_, hin⟩

theorem Running.acquire {l : Lock} {next : Except Halt Unit → Prog V R}
    (h : m.Running root b (.ask (.acquire l) next)) : Goes root b next (m.acquire b l next) := by
  obtain ⟨conclude, hb⟩ := h.face
  unfold Machine.acquire
  split
  next hopen =>
    -- The lock of the record is never one that nobody needs to hold.
    have hne : l ≠ .engine root.core := by
      rintro rfl
      cases hopen
    exact h.told fun p _ => .apart hne
  next =>
    split
    next =>
      obtain ⟨conclude', hm, hb'⟩ := h.waits (w := .lock l next) nofun rfl
      exact (hm.join h.free hb').await hb' rfl lock_halts
    next hany =>
      have hl : ∀ bs, (l, bs) ∉ m.locks := fun bs hmem =>
        hany (List.any_eq_true.mpr ⟨(l, bs), hmem, decide_eq_true rfl⟩)
      obtain ⟨p, -, hf⟩ := h.followed
      have hlocks := hf.toQueues.concat hl
      have hfree : Free { m.setWait b (.turn (.ask (.acquire l) next)) with
          locks := m.locks ++ [(l, [])] } b := by
        intro l' bs hmem hin
        obtain ⟨next', conclude', hface⟩ := hlocks.waits l' bs hmem b hin
        cases hb.symm.trans hface
      have hlock := h.followed.lock hb rfl hl hlocks hfree
        (fun l' bs hmem => ⟨bs, List.mem_append_left _ hmem⟩)
        (List.mem_append_right _ (List.mem_singleton_self _)) (q := next (.ok ())) rfl
      have halike : Alike root.core _ _ := alike_setWait_setWait
        { m with locks := m.locks ++ [(l, [])] } b (.turn (.ask (.acquire l) next))
        (.turn (next (.ok ())))
      exact { there := h.there, followed := hlock.alike halike }

theorem alike_setWait_comm {core : Nat} (m : Machine S V R) (h : b' ≠ b) (w w' : Wait S V R) :
    Alike core ((m.setWait b w).setWait b' w') ((m.setWait b' w').setWait b w) := by
  refine ⟨.refl m.world, rfl, fun c => ?_⟩
  simp only [face_setWait]
  by_cases hc : c = b
  · have hc' : c ≠ b' := fun e => h (e.symm.trans hc)
    simp only [if_pos hc, if_neg hc']
  · simp only [if_neg hc]

theorem grant_cases (m : Machine S V R) (b : Nat) :
    (∃ l next conclude, m.face b = some (.lock l next, conclude) ∧
      m.grant b = m.resume b (next (.ok ()))) ∨ m.grant b = m := by
  unfold grant
  rw [wait?_eq]
  split
  next l next hwait =>
    obtain ⟨⟨_, conclude⟩, hb, rfl⟩ := Option.map_eq_some_iff.mp hwait
    exact .inl ⟨l, next, conclude, hb, rfl⟩
  next => exact .inr rfl

theorem grant_eq {l : Lock} {next : Except Halt Unit → Prog V R}
    (hb : m.face b = some (.lock l next, conclude)) : m.grant b = m.resume b (next (.ok ())) := by
  unfold grant
  rw [wait?_eq, hb]
  rfl

/-- A branch runs on when another is made to go on at its next turn. -/
theorem Running.of_resume (hne : b' ≠ b) (hb : m.face b = some (w, conclude)) {q' : Prog V R}
    (hm : ((m.setWait b (.turn q)).setWait b' (.turn q')).Followed root) :
    (m.resume b' q').Running root b q := by
  have halike : Alike root.core _ _ := alike_makeReady (m.setWait b' (.turn q')) b'
  refine ⟨⟨w, conclude, ?_⟩, hm.alike ((alike_setWait_comm m hne _ _).trans (halike.setWait b _))⟩
  exact (halike.face b).trans ((face_setWait_of_ne m hne.symm _).trans hb)

theorem Running.unlock {l : Lock} {next : Unit → Prog V R}
    (h : m.Running root b (.ask (.release l) next)) :
    Running root { m with locks := m.locks.filter (·.1 ≠ l) } b (next ()) := by
  obtain ⟨conclude, hb⟩ := h.face
  have halike : Alike root.core _ _ := alike_setWait_setWait
    { m with locks := m.locks.filter (·.1 ≠ l) } b (.turn (.ask (.release l) next))
    (.turn (next ()))
  exact ⟨h.there, (h.followed.unlock hb rfl h.free rfl).alike halike⟩

/-- A lock that nobody has goes to the first of those that wait for it. -/
theorem Running.handOver {l : Lock} (hq : (m.setWait b (.turn q)).Queues)
    (hfree : (m.setWait b (.turn q)).Free b)
    (h : Running root { m with locks := m.locks.filter (·.1 ≠ l) } b q) {rest : List Nat}
    (hmem : (l, b' :: rest) ∈ m.locks) :
    Running root (Machine.grant { m with
      locks := m.locks.map fun (l', bs) => if l' = l then (l', rest) else (l', bs) } b') b q := by
  obtain ⟨w, conclude, hb⟩ := h.there
  have hne : b' ≠ b := fun e => hfree _ _ hmem (e ▸ List.mem_cons_self ..)
  obtain ⟨next, conclude', hb'⟩ := hq.waits _ _ hmem b' (List.mem_cons_self ..)
  have hnone : ∀ bs, (l, bs) ∉ m.locks.filter (·.1 ≠ l) := fun bs hin =>
    of_decide_eq_true (List.mem_filter.mp hin).2 rfl
  have hkeep : ∀ l' bs, (l', bs) ∈ m.locks.filter (·.1 ≠ l) →
      ∃ bs', (l', bs') ∈ m.locks.map fun (l', bs) => if l' = l then (l', rest) else (l', bs) := by
    intro l' bs hin
    obtain ⟨hin, hl⟩ := List.mem_filter.mp hin
    exact ⟨bs, List.mem_map.mpr ⟨_, hin, if_neg (of_decide_eq_true hl)⟩⟩
  have hrest : (l, rest) ∈ m.locks.map fun (l', bs) => if l' = l then (l', rest) else (l', bs) :=
    List.mem_map.mpr ⟨_, hmem, if_pos rfl⟩
  have hlock := h.followed.lock hb' rfl hnone (hq.pop hmem) (hq.free_pop hmem) hkeep hrest rfl
  rw [face_setWait_of_ne m hne] at hb'
  rw [grant_eq (by exact hb')]
  exact .of_resume hne (by exact hb) hlock

theorem Running.release {l : Lock} {next : Unit → Prog V R}
    (h : m.Running root b (.ask (.release l) next)) : (m.release l).Running root b (next ()) := by
  unfold Machine.release
  split
  next hfind =>
    refine h.unlock.alike ⟨.refl _, ?_, fun _ => rfl⟩
    refine (List.filter_eq_self.mpr fun entry hmem => ?_).symm
    exact decide_eq_true fun hl => List.find?_eq_none.mp hfind entry hmem (decide_eq_true hl)
  next => exact h.unlock
  next l' b₁ rest hfind =>
    obtain rfl : l' = l := by simpa using List.find?_some hfind
    obtain ⟨p, -, hf⟩ := h.followed
    have halike : Alike root.core _ (m.setWait b (.turn (next ()))) :=
      alike_setWait_setWait m b (.turn (.ask (.release l') next)) _
    have hq : (m.setWait b (.turn (next ()))).Queues :=
      (hf.toQueues.setWait h.free _).alike halike
    exact h.unlock.handOver hq h.free (List.mem_of_find?_eq_some hfind)

/-- A branch that is not in a queue, and that waits for no lock but that of a cell. -/
structure Passes (root : Engine V H) (m : Machine S V R) (b : Nat) : Prop where
  free : m.Free b
  lock : ∀ l next conclude, m.face b = some (.lock l next, conclude) → l ≠ .engine root.core

theorem Running.pass (h : m.Running root b q) (hne : b' ≠ b) (hb' : Passes root m b') :
    (m.grant b').Running root b q := by
  rcases grant_cases m b' with ⟨l, next, conclude', hface, he⟩ | he <;> rw [he]
  · obtain ⟨w, conclude, hb⟩ := h.there
    have hface' : (m.setWait b (.turn q)).face b' = some (.lock l next, conclude') :=
      (face_setWait_of_ne m hne _).trans hface
    have htold := h.followed.told (a := .ok ()) hface' rfl hb'.free
      (fun p _ => .apart (hb'.lock l next conclude' hface)) rfl
    exact .of_resume hne hb htold
  · exact h

theorem Passes.grant (hb' : Passes root m b') (b : Nat) : Passes root (m.grant b) b' := by
  rcases grant_cases m b with ⟨l, next, conclude, hb, he⟩ | he <;> rw [he]
  · have halike : Alike root.core _ _ := alike_makeReady (m.setWait b (.turn (next (.ok ())))) b
    refine ⟨fun l bs hmem => hb'.free l bs (halike.locks ▸ hmem), ?_⟩
    intro l' next' conclude' hface
    rw [resume, halike.face b', face_setWait] at hface
    by_cases hbb : b' = b
    · subst hbb
      rw [if_pos rfl, hb] at hface
      cases hface
    · rw [if_neg hbb] at hface
      exact hb'.lock l' next' conclude' hface
  · exact hb'

theorem Running.pass_all {bs : List Nat} (h : m.Running root b q) (hne : ∀ b' ∈ bs, b' ≠ b)
    (hbs : ∀ b' ∈ bs, Passes root m b') : (bs.foldl Machine.grant m).Running root b q := by
  induction bs generalizing m with
  | nil => exact h
  | cons b' rest ih =>
    have hgrant := h.pass (hne b' (List.mem_cons_self ..)) (hbs b' (List.mem_cons_self ..))
    refine ih hgrant (fun b'' hin => hne b'' (List.mem_cons_of_mem _ hin)) fun b'' hin => ?_
    exact (hbs b'' (List.mem_cons_of_mem _ hin)).grant b'

theorem Running.openUp {cell : Nat} (h : m.Running root b q) :
    (m.openUp (.cell cell)).Running root b q := by
  obtain ⟨p, hp, hf⟩ := h.followed
  have hlocks := hf.toQueues.filter (fun entry => entry.1 ≠ .cell cell)
  have hclosed : Running root { m with locks := m.locks.filter (·.1 ≠ .cell cell) } b q := by
    refine ⟨h.there, p, hp, hf.relocked hlocks (hf.holder.imp_right ?_)⟩
    rintro ⟨bs, hmem⟩
    exact ⟨bs, List.mem_filter.mpr ⟨hmem, decide_eq_true nofun⟩⟩
  have hwaiting : ∀ b', b' ∈ (m.locks.filter (·.1 = .cell cell)).flatMap (·.2) →
      ∃ bs, (.cell cell, bs) ∈ m.locks ∧ b' ∈ bs := by
    intro b' hin
    obtain ⟨⟨l, bs⟩, hmem, hin⟩ := List.mem_flatMap.mp hin
    obtain ⟨hmem, hl⟩ := List.mem_filter.mp hmem
    cases of_decide_eq_true hl
    exact ⟨bs, hmem, hin⟩
  refine hclosed.pass_all (fun b' hin => ?_) fun b' hin => ?_
  all_goals obtain ⟨bs, hmem, hin⟩ := hwaiting b' hin
  · rintro rfl
    exact h.free _ bs hmem hin
  · -- Who waits for the lock of the cell waits for no other.
    obtain ⟨next, conclude, hb'⟩ := hf.waits _ bs hmem b' hin
    have hne : b' ≠ b := fun e => h.free _ bs hmem (e ▸ hin)
    rw [face_setWait_of_ne m hne] at hb'
    refine ⟨fun l bs' hmem' hin' => ?_, fun l next' conclude' hface => ?_⟩
    · obtain ⟨hmem', hl⟩ := List.mem_filter.mp hmem'
      obtain ⟨next', conclude', hface⟩ := hf.waits l bs' hmem' b' hin'
      rw [face_setWait_of_ne m hne, hb'] at hface
      cases hface
      exact of_decide_eq_true hl rfl
    · rw [show m.face b' = _ from hface] at hb'
      cases hb'
      nofun

/-! ### Requests -/

theorem Running.call {c : Call V} {t : Token} {next : Except Halt c.Answer → Prog V R}
    (h : m.Running root b (.ask (.call c t) next)) :
    Goes root b next (m.request b (.call c t) next) := by
  have hconsult : Alike root.core m { m with world := (m.world.consult c t).2 } :=
    ⟨World.keeps_consult c t, rfl, fun _ => rfl⟩
  replace h := h.alike hconsult
  unfold Machine.request
  dsimp only
  split
  · exact h.carryOut
  · obtain ⟨conclude, hm, hb⟩ := h.waits (w := .delay c t _ next _) nofun rfl
    exact hm.await hb rfl call_halts

theorem Running.request {r : Request V} {next : r.Answer → Prog V R}
    (h : m.Running root b (.ask r next)) : Goes root b next (m.request b r next) := by
  cases r with
  | call c t => exact h.call
  | acquire l => exact h.acquire
  | release l => exact h.release
  | enter limit t =>
    refine (h.told fun p _ => .apart nofun).alike ⟨.refl _, rfl, fun b' => ?_⟩
    exact face_modifyBranch m b b' _ fun _ => ⟨rfl, rfl⟩
  | leave =>
    refine (h.told fun p _ => .apart nofun).alike ⟨.refl _, rfl, fun b' => ?_⟩
    exact face_modifyBranch m b b' _ fun _ => ⟨rfl, rfl⟩
  | fillCell cell route => exact (h.served nofun nofun).openUp
  | _ => exact h.served nofun nofun

/-! ### Turns -/

theorem Running.finish {result : R} (h : m.Running root b (.ret result)) :
    (m.finish b result).Followed root := by
  obtain ⟨conclude, hm, hb⟩ := h.waits (w := .done result) nofun rfl
  unfold Machine.finish
  split
  next branch hbranch =>
    -- What the end of the branch changes is not the record.
    obtain ⟨p, -, hf⟩ := id hm
    have hface : (m.setWait b (.done result)).face b = some (.done result, branch.conclude) :=
      face_setWait_self (by unfold Machine.face; rw [hbranch]; rfl) _
    have hserves := hf.serves b _ _ hface
    exact hm.alike ⟨hserves.concludes result m.state m.world, rfl, fun _ => rfl⟩
  next hnone =>
    obtain ⟨w, conclude', hface⟩ := h.there
    rw [Machine.face, hnone] at hface
    cases hface

theorem Running.advance (h : m.Running root b q) : (advance b q m).Followed root := by
  induction q generalizing m with
  | ret result => exact h.finish
  | ask r next ih =>
    have hgoes := h.request
    unfold Machine.advance
    generalize m.request b r next = out at hgoes
    obtain ⟨_ | a, m₁⟩ := out
    · exact hgoes
    · exact ih a hgoes

theorem Goes.proceed {next : α → Prog V R} {out : Option α × Machine S V R}
    (h : Goes root b next out) : (proceed b next out).Followed root := by
  obtain ⟨_ | a, m₁⟩ := out
  · exact h
  · exact h.advance

/-- A branch that waits goes on. -/
theorem Followed.running (hm : m.Followed root) (hb : m.face b = some (w, conclude))
    (hfree : m.Free b) (hleft : w.left = q.forget) : m.Running root b q where
  there := ⟨w, conclude, hb⟩
  followed := hm.rewait hb hfree nofun hleft

theorem alike_setWait_self {core : Nat} (hb : m.face b = some (w, conclude)) :
    Alike core m (m.setWait b w) := by
  refine ⟨.refl m.world, rfl, fun b' => ?_⟩
  rw [face_setWait]
  split
  next h => rw [h, hb]; rfl
  next => rfl

theorem Followed.start (hm : m.Followed root) {make : S → World V → Prog V R × S × World V}
    {due : Nat} (hb : m.face b = some (.start make due, conclude)) (limit : Nat) (t : Token) :
    Running root (enter { m with
      state := (make m.state m.world).2.1, world := (make m.state m.world).2.2 } b limit t) b
      (make m.state m.world).1 := by
  obtain ⟨p, hp, hf⟩ := id hm
  obtain ⟨hkeeps, α, a, hclient, hmakes⟩ := (hf.serves b _ _ hb).makes make due rfl m.state m.world
  obtain ⟨p₁, hp₁, hready⟩ := hp.ready b
  have hf₁ := hf.ready hready
  have hidle : p₁.callers b = .idle :=
    Caller.idle_of_erase hready.ready (hf₁.left b _ _ hb)
  have hput : (m.setWait b (.turn (make m.state m.world).1)).Follows root
      (p₁.put b (.outside a.forget)) :=
    hf₁.put (hf.free hb nofun) hb (by nofun) hmakes.symm
  have hrun : m.Running root b (make m.state m.world).1 :=
    ⟨⟨_, _, hb⟩, _, hp₁.step (.came hidle hclient), hput⟩
  refine hrun.alike ⟨hkeeps, rfl, fun b' => ?_⟩
  exact face_modifyBranch _ b b' _ fun _ => ⟨rfl, rfl⟩

theorem Followed.run (hm : m.Followed root) (b : Nat) : (m.run b).Followed root := by
  unfold Machine.run
  rw [wait?_eq]
  obtain ⟨p, -, hf⟩ := id hm
  cases hb : m.face b with
  | none => exact hm
  | some wc =>
    obtain ⟨w, conclude⟩ := wc
    have hwait : (m.setWait b w).Followed root := hm.alike (alike_setWait_self hb)
    have hb' : (m.setWait b w).face b = some (w, conclude) := face_setWait_self hb w
    cases w with
    | turn next => exact (hm.running hb (hf.free hb nofun) rfl).advance
    | start make due =>
      change Followed root (if due ≤ m.now then _ else m)
      split
      · exact (hm.start hb _ _).advance
      · exact hm
    | delay c t fate next due =>
      change Followed root (if due ≤ m.now then _ else _)
      split
      · exact (hm.running hb (hf.free hb nofun) rfl).carryOut.proceed
      · exact (hwait.await hb' rfl call_halts).proceed
    | lock l next => exact (hwait.await hb' rfl lock_halts).proceed
    | item queue t next =>
      have hrun : m.Running root b (.ask (.call (.queue queue .take) t) next) :=
        hm.running hb (hf.free hb nofun) rfl
      change Followed root (if m.takers.contains (queue, b) then _ else _)
      split
      · exact hrun.awaitItem.proceed
      · exact hrun.take.proceed
    | done r => exact hm

theorem alike_jump {core : Nat} (m : Machine S V R) (date : Nat) : Alike core m (m.jump date) := by
  have hfold : ∀ (woken : List (Branch S V R × Nat)) (m : Machine S V R),
      Alike core m (woken.foldl (fun m entry => m.makeReady entry.2) m) := by
    intro woken
    induction woken with
    | nil => exact alike_refl
    | cons entry rest ih => exact fun m => (alike_makeReady m entry.2).trans (ih _)
  have hnow : Alike core m { m with now := date, latest := none } := ⟨.refl _, rfl, fun _ => rfl⟩
  exact hnow.trans (hfold _ _)

theorem Followed.turn (hm : m.Followed root) (ht : m.turn? = some m') : m'.Followed root := by
  unfold turn? at ht
  split at ht
  next b _ =>
    cases ht
    have halike : Alike root.core m { m with ready := m.ready.erase b, latest := some b } :=
      ⟨.refl _, rfl, fun _ => rfl⟩
    exact (hm.alike halike).run b
  next =>
    obtain ⟨date, -, rfl⟩ := Option.map_eq_some_iff.mp ht
    exact hm.alike (alike_jump m date)

theorem Followed.turns (hm : m.Followed root) (n : Nat) : (m.turns n).Followed root := by
  induction n generalizing m with
  | zero => exact hm
  | succ n ih =>
    unfold Machine.turns
    cases ht : m.turn? with
    | none => exact hm
    | some m₁ => exact ih (hm.turn ht)

/-! ## Jobs -/

/-- A job may run whatever a client does. -/
theorem makes_client {a : MarkedAction V α} (ha : root.Client a) :
    Makes root fun (s : S) w => (Marked.erase (ExceptT.run a), s, w) := fun _ w =>
  ⟨.refl w, α, a, ha, (Marked.erase_bind (ExceptT.run a) fun _ => pure ()).symm⟩

variable {world : World V} {s : S} {jobs : List (Job S V R)} {name : String} {capacity : Nat}

theorem face_ofJobs (hb : (ofJobs world s jobs).face b = some (w, conclude)) :
    ∃ job ∈ jobs, w = job.branch.wait ∧ conclude = job.branch.conclude := by
  unfold Machine.face ofJobs at hb
  rw [List.getElem?_map, Option.map_map] at hb
  obtain ⟨job, hjob, he⟩ := Option.map_eq_some_iff.mp hb
  cases he
  exact ⟨job, List.mem_of_getElem? hjob, rfl, rfl⟩

/-- Jobs that are clients' are followed, from a pair that is new. -/
theorem followed_ofJobs (hw : world.engines.nth root.core = .make name capacity)
    (hcount : root.core < world.engineCount)
    (hjobs : ∀ job ∈ jobs, Serves root job.branch.wait job.branch.conclude) :
    (ofJobs world s jobs).Followed root := by
  refine ⟨_, .new (w := (ofJobs world s jobs).world) hw, ?_⟩
  refine { waits := nofun, distinct := List.nodup_nil, nodup := nofun, count := hcount,
           serves := fun b w conclude hb => ?_, world := rfl,
           left := fun b w conclude hb => ?_, holder := .inl rfl }
  all_goals obtain ⟨job, hjob, rfl, rfl⟩ := face_ofJobs hb
  · exact hjobs job hjob
  · rfl

/-- However the jobs of a pair's clients take their turns, outages of the pair come one after the
other. -/
theorem orderly_turns (hroot : root.IsRoot)
    (hw : world.engines.nth root.core = .make name capacity)
    (hcount : root.core < world.engineCount)
    (hjobs : ∀ job ∈ jobs, Serves root job.branch.wait job.branch.conclude) (n : Nat) :
    ∃ p, Pool.Reachable root p ∧ ((ofJobs world s jobs).turns n).Follows root p ∧
      p.Orderly root := by
  obtain ⟨p, hp, hf⟩ := (followed_ofJobs (s := s) hw hcount hjobs).turns n
  exact ⟨p, hp, hf, (hp.sound hroot).orderly hroot⟩

end Machine

end TwinStore
