import Mathlib.Data.List.Nodup
import TwinStore.Proofs.Interleaving
import TwinStore.World.Schedule

/-!
# Machines that are followed by pools

A machine is `Machine.Followed` by a pool if its branches have left to do what the callers of a
reachable pool have left, marks aside, in the same world. A branch that asks for something can then
be answered what its caller may be answered (`Machine.Followed.exchange`).

A pool says who holds the lock of the record, and a machine who waits for it: in a machine a lock
goes from one branch to the next, in a pool it is free in between. So the invariant of the machine,
`Machine.Queues`, is about those that wait.
-/

namespace TwinStore

variable {S V R H α : Type}

/-! ## Worlds -/

namespace World

/-- A health record is as it was, and no other takes its number. -/
structure Keeps (core : Nat) (w w' : World V) : Prop where
  record : w'.engines.nth core = w.engines.nth core
  count : w.engineCount ≤ w'.engineCount

variable {core : Nat} {w w' w'' : World V}

namespace Keeps

theorem refl (w : World V) : w.Keeps core w := ⟨rfl, Nat.le_refl _⟩

theorem trans (h : w.Keeps core w') (h' : w'.Keeps core w'') : w.Keeps core w'' :=
  ⟨h'.record.trans h.record, Nat.le_trans h.count h'.count⟩

theorem of_eq (he : w'.engines = w.engines) (hc : w'.engineCount = w.engineCount) :
    w.Keeps core w' :=
  ⟨by rw [he], Nat.le_of_eq hc.symm⟩

end Keeps

theorem keeps_perform (c : Call V) : w.Keeps core (w.perform c).2 := by
  cases c <;> exact .of_eq rfl rfl

theorem keeps_setPlan (site : Site) (plan : Option FaultPlan) :
    w.Keeps core (w.setPlan site plan) := by
  cases site <;> exact .of_eq rfl rfl

theorem keeps_consult (c : Call V) (t : Token) : w.Keeps core (w.consult c t).2 := by
  unfold consult
  cases w.plan c.site with
  | none => exact .of_eq rfl rfl
  | some plan => exact (keeps_setPlan c.site _).trans (.of_eq rfl rfl)

theorem keeps_settle (c : Call V) (fate : Option Strike) : w.Keeps core (w.settle c fate).2 := by
  unfold settle
  split
  · exact keeps_perform c
  · split
    · exact .refl w
    · exact keeps_perform c
  · exact .refl w
  · dsimp only
    split
    · exact keeps_perform c
    · exact .refl w

/-- Whatever does not concern the record leaves it as it was. -/
theorem keeps_answer {r : Request V} (hr : ¬ r.Concerns core) (hcore : core < w.engineCount) :
    w.Keeps core (w.answer r).2 := by
  cases r with
  | call c t => exact (keeps_consult c t).trans (keeps_settle c _)
  | newEngine name capacity =>
    refine ⟨?_, Nat.le_succ _⟩
    exact Shelf.nth_put_of_ne _ _ (Nat.ne_of_gt hcore)
  | markDown c cause =>
    exact ⟨Shelf.nth_put_of_ne _ _ hr, Nat.le_refl _⟩
  | markUp c =>
    exact ⟨Shelf.nth_put_of_ne _ _ hr, Nat.le_refl _⟩
  | _ => exact .of_eq rfl rfl

end World

/-! ## Callers without their marks -/

/-- A program whose result nobody reads. -/
def Prog.forget (p : Prog V R) : Prog V Unit :=
  p >>= fun _ => .ret ()

namespace Caller

/-- What a caller has left to do, its marks forgotten. -/
def erase : Caller V → Prog V Unit
  | outside rest => rest.erase
  | inside _ rest next => rest >>= fun r => (next r).erase

theorem Asks.erase_eq {c : Caller V} {r : Request V} {next : r.Answer → Caller V}
    (h : c.Asks r next) : c.erase = .ask r fun a => (next a).erase := by
  cases h <;> rfl

/-- A caller that is about to ask for something asks for what its program asks for. -/
theorem Asks.of_erase {c : Caller V} (h : c = idle ∨ ∃ r next, c.Asks r next) {r : Request V}
    {rest : r.Answer → Prog V Unit} (he : c.erase = .ask r rest) :
    ∃ next, c.Asks r next ∧ ∀ a, (next a).erase = rest a := by
  rcases h with rfl | ⟨r', next, hask⟩
  · cases he
  · rw [hask.erase_eq] at he
    cases he
    exact ⟨next, hask, fun _ => rfl⟩

theorem idle_of_erase {c : Caller V} (h : c = idle ∨ ∃ r next, c.Asks r next)
    (he : c.erase = .ret ()) : c = idle := by
  rcases h with rfl | ⟨r, next, hask⟩
  · rfl
  · rw [hask.erase_eq] at he
    cases he

end Caller

namespace Pool

variable {root : Engine V H} {p : Pool V} {b : Nat}

theorem callers_put_self (c : Caller V) : (p.put b c).callers b = c := by
  simp [put]

theorem callers_put_of_ne {b' : Nat} (c : Caller V) (h : b' ≠ b) :
    (p.put b c).callers b' = p.callers b' := by
  simp [put, h]

theorem erase_put {c : Caller V} (h : c.erase = (p.callers b).erase) (b' : Nat) :
    ((p.put b c).callers b').erase = (p.callers b').erase := by
  by_cases hb : b' = b
  · rw [hb, callers_put_self, h]
  · rw [callers_put_of_ne c hb]

/-- A caller is about to ask for something or has nothing left to do. But for the log and the marks,
all is as in `p`. -/
structure Ready (p : Pool V) (b : Nat) (p' : Pool V) : Prop where
  world : p'.world = p.world
  holder : p'.holder = p.holder
  erase : ∀ b', (p'.callers b').erase = (p.callers b').erase
  ready : p'.callers b = .idle ∨ ∃ r next, (p'.callers b).Asks r next

theorem Ready.of_put {p' : Pool V} {c : Caller V} {log : List (Mark V)}
    (h : Ready { p.put b c with log } b p') (hc : c.erase = (p.callers b).erase) :
    Ready p b p' where
  world := h.world
  holder := h.holder
  erase b' := (h.erase b').trans (erase_put hc b')
  ready := h.ready

/-- Beginning and ending runs, a caller comes to that point. -/
theorem Reachable.ready_outside {rest : Marked V Unit} (hp : Reachable root p)
    (hb : p.callers b = .outside rest) : ∃ p', Reachable root p' ∧ Ready p b p' := by
  induction rest generalizing p with
  | ret a => exact ⟨p, hp, rfl, rfl, fun _ => rfl, .inl hb⟩
  | ask r next ih =>
    refine ⟨p, hp, rfl, rfl, fun _ => rfl, .inr ⟨r, fun a => .outside (next a), ?_⟩⟩
    rw [hb]
    exact .outside
  | run kind body next ih =>
    have hbegan := hp.step (.began hb)
    have herase : (Caller.inside kind body.run next).erase = (p.callers b).erase := by
      rw [hb]
      rfl
    cases hbody : body.run with
    | ask r rest =>
      refine ⟨_, hbegan, rfl, rfl, erase_put herase, .inr ?_⟩
      refine ⟨r, fun a => .inside kind (rest a) next, ?_⟩
      change ((p.put b _).callers b).Asks _ _
      rw [callers_put_self, hbody]
      exact .inside
    | ret r =>
      rw [hbody] at hbegan herase
      have hinside := callers_put_self (p := p) (b := b) (.inside kind (.ret r) next)
      obtain ⟨p', hp', hready⟩ := ih r (hbegan.step (.ended hinside)) (callers_put_self _)
      exact ⟨p', hp', (hready.of_put (congrArg Caller.erase hinside).symm).of_put herase⟩

theorem Reachable.ready (hp : Reachable root p) (b : Nat) :
    ∃ p', Reachable root p' ∧ Ready p b p' := by
  cases hb : p.callers b with
  | outside rest => exact hp.ready_outside hb
  | inside kind rest next =>
    cases rest with
    | ask r rest =>
      refine ⟨p, hp, rfl, rfl, fun _ => rfl, .inr ⟨r, fun a => .inside kind (rest a) next, ?_⟩⟩
      rw [hb]
      exact .inside
    | ret r =>
      obtain ⟨p', hp', hready⟩ := (hp.step (.ended hb)).ready_outside (callers_put_self _)
      exact ⟨p', hp', hready.of_put (by rw [hb]; rfl)⟩

end Pool

/-! ## Machines -/

/-- What a branch has left to do. -/
def Wait.left : Wait S V R → Prog V Unit
  | turn next => next.forget
  | start _ _ => .ret ()
  | delay c t _ next _ => .ask (.call c t) fun a => (next a).forget
  | lock l next => .ask (.acquire l) fun a => (next a).forget
  | item queue t next => .ask (.call (.queue queue .take) t) fun a => (next a).forget
  | done _ => .ret ()

/-- What a branch starts with is a client's program, its marks forgotten. -/
def Makes (root : Engine V H) (make : S → World V → Prog V R × S × World V) : Prop :=
  ∀ s w, w.Keeps root.core (make s w).2.2 ∧
    ∃ (α : Type) (a : MarkedAction V α), root.Client a ∧ (make s w).1.forget = a.forget.erase

/-- A branch is a client's, and what its end changes is not the record. -/
structure Serves (root : Engine V H) (wait : Wait S V R)
    (conclude : R → S → World V → S × World V) : Prop where
  makes : ∀ make due, wait = .start make due → Makes root make
  concludes : ∀ r s (w : World V), w.Keeps root.core (conclude r s w).2

namespace Machine

/-- What matters of a branch: what it waits for, and what its end changes. -/
def face (m : Machine S V R) (b : Nat) :
    Option (Wait S V R × (R → S → World V → S × World V)) :=
  m.branches[b]?.map fun branch => (branch.wait, branch.conclude)

variable {m m' : Machine S V R} {b b' : Nat} {w : Wait S V R}
  {conclude : R → S → World V → S × World V}

theorem wait?_eq (m : Machine S V R) (b : Nat) : m.wait? b = (m.face b).map Prod.fst := by
  unfold wait? face
  cases m.branches[b]? <;> rfl

theorem face_modifyBranch (m : Machine S V R) (b b' : Nat) (change : Branch S V R → Branch S V R)
    (h : ∀ branch, (change branch).wait = branch.wait ∧
      (change branch).conclude = branch.conclude) :
    (m.modifyBranch b change).face b' = m.face b' := by
  unfold modifyBranch face
  rw [List.getElem?_modify]
  cases m.branches[b']? with
  | none => rfl
  | some branch =>
    by_cases hb : b = b'
    · simp [hb, h]
    · simp [hb]

theorem face_setWait (m : Machine S V R) (b b' : Nat) (w : Wait S V R) :
    (m.setWait b w).face b' =
      if b' = b then (m.face b').map fun wc => (w, wc.2) else m.face b' := by
  unfold setWait modifyBranch face
  rw [List.getElem?_modify]
  by_cases hb : b' = b
  · subst hb
    cases m.branches[b']? <;> simp
  · simp [hb, Ne.symm hb]

theorem face_setWait_self (h : m.face b = some (w, conclude)) (w' : Wait S V R) :
    (m.setWait b w').face b = some (w', conclude) := by
  rw [face_setWait, if_pos rfl, h]
  rfl

theorem face_setWait_of_ne (m : Machine S V R) (h : b' ≠ b) (w' : Wait S V R) :
    (m.setWait b w').face b' = m.face b' := by
  rw [face_setWait, if_neg h]

/-! ### Those that wait for locks -/

/-- A branch waits for no lock. -/
def Free (m : Machine S V R) (b : Nat) : Prop :=
  ∀ l bs, (l, bs) ∈ m.locks → b ∉ bs

/-- Who waits for a lock, waits for that lock and once. -/
structure Queues (m : Machine S V R) : Prop where
  waits : ∀ l bs, (l, bs) ∈ m.locks → ∀ b ∈ bs, ∃ next conclude,
    m.face b = some (.lock l next, conclude)
  distinct : (m.locks.map Prod.fst).Nodup
  nodup : ∀ l bs, (l, bs) ∈ m.locks → bs.Nodup

namespace Queues

theorem free (hq : m.Queues) (hb : m.face b = some (w, conclude))
    (hw : ∀ l next, w ≠ .lock l next) : m.Free b := by
  intro l bs hmem hin
  obtain ⟨next, conclude', hface⟩ := hq.waits l bs hmem b hin
  rw [hb] at hface
  cases hface
  exact hw l next rfl

/-- There is one queue for a lock. -/
theorem eq_of_mem (hq : m.Queues) {l : Lock} {bs bs' : List Nat} (h : (l, bs) ∈ m.locks)
    (h' : (l, bs') ∈ m.locks) : bs = bs' := by
  have hinj := List.inj_on_of_nodup_map hq.distinct h h' rfl
  exact congrArg Prod.snd hinj

theorem setWait (hq : m.Queues) (hfree : m.Free b) (w' : Wait S V R) :
    (m.setWait b w').Queues where
  distinct := hq.distinct
  nodup := hq.nodup
  waits l bs hmem b' hin := by
    have hne : b' ≠ b := fun h => hfree l bs hmem (h ▸ hin)
    rw [face_setWait_of_ne m hne]
    exact hq.waits l bs hmem b' hin

/-- Queues remain queues where some of those that wait have gone. -/
theorem of_sublist (hq : m.Queues) {locks : List (Lock × List Nat)}
    (hdistinct : (locks.map Prod.fst).Nodup)
    (hsub : ∀ l bs, (l, bs) ∈ locks → ∃ bs', (l, bs') ∈ m.locks ∧ bs.Sublist bs') :
    Queues { m with locks } where
  distinct := hdistinct
  nodup l bs hmem := by
    obtain ⟨bs', hmem', hs⟩ := hsub l bs hmem
    exact hs.nodup (hq.nodup l bs' hmem')
  waits l bs hmem b hin := by
    obtain ⟨bs', hmem', hs⟩ := hsub l bs hmem
    exact hq.waits l bs' hmem' b (hs.subset hin)

theorem filter (hq : m.Queues) (keep : Lock × List Nat → Bool) :
    Queues { m with locks := m.locks.filter keep } := by
  refine hq.of_sublist (hq.distinct.sublist (List.filter_sublist.map _)) fun l bs hmem => ?_
  exact ⟨bs, (List.mem_filter.mp hmem).1, List.Sublist.refl bs⟩

/-- Queues remain queues under a change that makes none of them longer. -/
theorem map (hq : m.Queues) (change : Lock → List Nat → List Nat)
    (hsub : ∀ l bs, (l, bs) ∈ m.locks → (change l bs).Sublist bs) :
    Queues { m with locks := m.locks.map fun (l, bs) => (l, change l bs) } := by
  refine hq.of_sublist ?_ fun l bs hmem => ?_
  · rw [List.map_map]
    exact hq.distinct
  · obtain ⟨⟨l', bs'⟩, hmem', he⟩ := List.mem_map.mp hmem
    cases he
    exact ⟨bs', hmem', hsub l bs' hmem'⟩

/-- Queues remain queues with one more lock, if nobody waits for it. -/
theorem concat (hq : m.Queues) {l : Lock} (hl : ∀ bs, (l, bs) ∉ m.locks) :
    Queues { m with locks := m.locks ++ [(l, [])] } where
  distinct := by
    rw [List.map_append, List.map_singleton, List.nodup_append]
    refine ⟨hq.distinct, List.nodup_singleton l, fun l' hmem l'' hin he => ?_⟩
    obtain ⟨⟨l₀, bs⟩, hmem', rfl⟩ := List.mem_map.mp hmem
    rw [List.mem_singleton] at hin
    subst hin
    subst he
    exact hl bs hmem'
  nodup l' bs hmem := by
    rcases List.mem_append.mp hmem with hmem | hmem
    · exact hq.nodup l' bs hmem
    · cases List.mem_singleton.mp hmem
      exact List.nodup_nil
  waits l' bs hmem b hin := by
    rcases List.mem_append.mp hmem with hmem | hmem
    · exact hq.waits l' bs hmem b hin
    · cases List.mem_singleton.mp hmem
      cases hin

/-- Queues remain queues where a branch that waited nowhere waits for a lock, as the last. -/
theorem join (hq : m.Queues) (hfree : m.Free b) {l : Lock} {next : Except Halt Unit → Prog V R}
    (hb : m.face b = some (.lock l next, conclude)) :
    Queues { m with
      locks := m.locks.map fun (l', bs) => if l' = l then (l', bs ++ [b]) else (l', bs) } where
  distinct := by
    rw [List.map_map]
    refine (congrArg List.Nodup (List.map_congr_left fun entry _ => ?_)).mpr hq.distinct
    simp only [Function.comp_apply]
    split <;> rfl
  nodup l' bs hmem := by
    obtain ⟨⟨l₀, bs₀⟩, hmem', he⟩ := List.mem_map.mp hmem
    dsimp only at he
    split at he <;> cases he
    · refine List.nodup_append.mpr ⟨hq.nodup _ _ hmem', List.nodup_singleton b, ?_⟩
      rintro b' hin _ hin' rfl
      cases List.mem_singleton.mp hin'
      exact hfree _ _ hmem' hin
    · exact hq.nodup _ _ hmem'
  waits l' bs hmem b' hin := by
    obtain ⟨⟨l₀, bs₀⟩, hmem', he⟩ := List.mem_map.mp hmem
    dsimp only at he
    by_cases hl : l₀ = l
    · subst hl
      rw [if_pos rfl] at he
      cases he
      rcases List.mem_append.mp hin with hin | hin
      · exact hq.waits _ _ hmem' b' hin
      · cases List.mem_singleton.mp hin
        exact ⟨next, conclude, hb⟩
    · rw [if_neg hl] at he
      cases he
      exact hq.waits _ _ hmem' b' hin

/-- Queues remain queues where the first of those that wait for a lock no longer does. -/
theorem pop (hq : m.Queues) {l : Lock} {rest : List Nat} (hl : (l, b :: rest) ∈ m.locks) :
    Queues { m with
      locks := m.locks.map fun (l', bs) => if l' = l then (l', rest) else (l', bs) } := by
  have hpop : (fun entry : Lock × List Nat => if entry.1 = l then (entry.1, rest) else entry) =
      fun entry => (entry.1, if entry.1 = l then rest else entry.2) := by
    funext entry
    split <;> rfl
  have hmap := hq.map (fun l' bs => if l' = l then rest else bs) fun l' bs hmem => ?_
  · exact ⟨hpop ▸ hmap.waits, hpop ▸ hmap.distinct, hpop ▸ hmap.nodup⟩
  · split
    next h =>
      subst h
      rw [hq.eq_of_mem hmem hl]
      exact List.sublist_cons_self b rest
    next => exact List.Sublist.refl bs

theorem free_pop (hq : m.Queues) {l : Lock} {rest : List Nat} (hl : (l, b :: rest) ∈ m.locks) :
    Free { m with
      locks := m.locks.map fun (l', bs) => if l' = l then (l', rest) else (l', bs) } b := by
  obtain ⟨next, conclude, hb⟩ := hq.waits l _ hl b (List.mem_cons_self ..)
  intro l' bs hmem hin
  obtain ⟨⟨l₀, bs₀⟩, hmem', he⟩ := List.mem_map.mp hmem
  dsimp only at he
  split at he <;> cases he
  · exact (List.nodup_cons.mp (hq.nodup l _ hl)).1 hin
  next hne =>
    obtain ⟨next', conclude', hb'⟩ := hq.waits _ _ hmem' b hin
    rw [hb] at hb'
    cases hb'
    exact hne rfl

end Queues

/-! ### Machines that are followed by pools -/

/-- The branches are clients', and wait for locks in queues. -/
structure Fit (root : Engine V H) (m : Machine S V R) : Prop extends m.Queues where
  count : root.core < m.world.engineCount
  serves : ∀ b w conclude, m.face b = some (w, conclude) → Serves root w conclude

/-- The callers of the pool have left to do what the branches have, in the same world; the lock of
the record is held in the pool only if it is in the machine. -/
structure Follows (root : Engine V H) (m : Machine S V R) (p : Pool V) : Prop
    extends m.Fit root where
  world : p.world = m.world
  left : ∀ b w conclude, m.face b = some (w, conclude) → (p.callers b).erase = w.left
  holder : p.holder = none ∨ ∃ bs, (.engine root.core, bs) ∈ m.locks

/-- Some reachable pool follows the machine. -/
def Followed (root : Engine V H) (m : Machine S V R) : Prop :=
  ∃ p, Pool.Reachable root p ∧ m.Follows root p

/-- Machines that differ in nothing that matters. -/
structure Alike (core : Nat) (m m' : Machine S V R) : Prop where
  world : m.world.Keeps core m'.world
  locks : m'.locks = m.locks
  face : ∀ b, m'.face b = m.face b

variable {root : Engine V H} {p p' : Pool V}

theorem Alike.trans {core : Nat} {m'' : Machine S V R} (h : Alike core m m')
    (h' : Alike core m' m'') : Alike core m m'' :=
  ⟨h.world.trans h'.world, h'.locks.trans h.locks, fun b => (h'.face b).trans (h.face b)⟩

theorem Alike.setWait {core : Nat} (h : Alike core m m') (b : Nat) (w : Wait S V R) :
    Alike core (m.setWait b w) (m'.setWait b w) := by
  refine ⟨h.world, h.locks, fun b' => ?_⟩
  rw [face_setWait, face_setWait, h.face b']

theorem Queues.alike {core : Nat} (hq : m.Queues) (h : Alike core m m') : m'.Queues where
  distinct := h.locks ▸ hq.distinct
  nodup l bs hmem := hq.nodup l bs (h.locks ▸ hmem)
  waits l bs hmem b hin := by
    rw [h.face b]
    exact hq.waits l bs (h.locks ▸ hmem) b hin

theorem Fit.alike (hm : m.Fit root) (h : Alike root.core m m') : m'.Fit root where
  toQueues := hm.toQueues.alike h
  count := Nat.lt_of_lt_of_le hm.count h.world.count
  serves b w conclude hb := hm.serves b w conclude ((h.face b).symm.trans hb)

theorem Followed.alike (hm : m.Followed root) (h : Alike root.core m m') : m'.Followed root := by
  obtain ⟨p, hp, hf⟩ := hm
  refine ⟨_, hp.step (.elsewhere (w := m'.world) ?_), { hf.toFit.alike h with
    world := rfl, left := fun b w conclude hb => ?_, holder := ?_ }⟩
  · rw [h.world.record, ← hf.world]
    rfl
  · exact hf.left b w conclude ((h.face b).symm.trans hb)
  · rw [h.locks]
    exact hf.holder

theorem Follows.ready (hf : m.Follows root p) (h : p.Ready b p') : m.Follows root p' where
  toFit := hf.toFit
  world := h.world.trans hf.world
  left b' w conclude hb := (h.erase b').trans (hf.left b' w conclude hb)
  holder := h.holder ▸ hf.holder

theorem Fit.setWait (hm : m.Fit root) (hfree : m.Free b) (hb : m.face b = some (w, conclude))
    {w' : Wait S V R} (hw' : ∀ make due, w' ≠ .start make due) : (m.setWait b w').Fit root where
  toQueues := hm.toQueues.setWait hfree w'
  count := hm.count
  serves b' v conclude' hb' := by
    by_cases hbb : b' = b
    · subst hbb
      rw [face_setWait_self hb] at hb'
      cases hb'
      exact ⟨fun make due h => absurd h (hw' make due), (hm.serves b' w conclude hb).concludes⟩
    · rw [face_setWait_of_ne m hbb] at hb'
      exact hm.serves b' v conclude' hb'

/-- A branch goes on, and its caller with it. -/
theorem Follows.put (hf : m.Follows root p) (hfree : m.Free b)
    (hb : m.face b = some (w, conclude)) {w' : Wait S V R} (hw' : ∀ make due, w' ≠ .start make due)
    {c : Caller V} (hc : c.erase = w'.left) : (m.setWait b w').Follows root (p.put b c) where
  toFit := hf.toFit.setWait hfree hb hw'
  world := hf.world
  holder := hf.holder
  left b' v conclude' hb' := by
    by_cases hbb : b' = b
    · subst hbb
      rw [face_setWait_self hb] at hb'
      cases hb'
      rw [Pool.callers_put_self, hc]
    · rw [face_setWait_of_ne m hbb] at hb'
      rw [Pool.callers_put_of_ne c hbb]
      exact hf.left b' v conclude' hb'

/-- A branch that asks for something is answered, and the machine has changed as the pool does. -/
theorem Followed.exchange (hm : m.Followed root) (hb : m.face b = some (w, conclude))
    {r : Request V} {rest : r.Answer → Prog V Unit} (hleft : w.left = .ask r rest) {a : r.Answer}
    (hans : ∀ p, m.Follows root p →
      ∃ p', Pool.Answers root.core b p r a p' ∧ m'.Follows root p')
    (hb' : m'.face b = some (w, conclude)) (hfree : m'.Free b) {q : Prog V R}
    (hq : rest a = q.forget) : (m'.setWait b (.turn q)).Followed root := by
  obtain ⟨p, hp, hf⟩ := hm
  obtain ⟨p₁, hp₁, hready⟩ := hp.ready b
  have hf₁ := hf.ready hready
  obtain ⟨next, hask, hnext⟩ := Caller.Asks.of_erase hready.ready
    ((hf₁.left b w conclude hb).trans hleft)
  obtain ⟨p₂, hans, hf₂⟩ := hans p₁ hf₁
  refine ⟨_, hp₁.step (.answered rfl hask hans), ?_⟩
  exact hf₂.put hfree hb' (by nofun) ((hnext a).trans hq)

/-- A branch is answered, and nothing else changes. -/
theorem Followed.told (hm : m.Followed root) (hb : m.face b = some (w, conclude))
    {r : Request V} {rest : r.Answer → Prog V Unit} (hleft : w.left = .ask r rest)
    (hfree : m.Free b) {a : r.Answer}
    (hans : ∀ p, m.Follows root p → Pool.Answers root.core b p r a p)
    {q : Prog V R} (hq : rest a = q.forget) : (m.setWait b (.turn q)).Followed root :=
  hm.exchange hb hleft (fun p hf => ⟨p, hans p hf, hf⟩) hb hfree hq

/-- A branch waits for the same in another way. -/
theorem Followed.rewait (hm : m.Followed root) (hb : m.face b = some (w, conclude))
    (hfree : m.Free b) {w' : Wait S V R} (hw' : ∀ make due, w' ≠ .start make due)
    (hleft : w.left = w'.left) : (m.setWait b w').Followed root := by
  obtain ⟨p, hp, hf⟩ := hm
  have hput := hf.put hfree hb hw' ((hf.left b w conclude hb).trans hleft)
  have hsame : p.put b (p.callers b) = p := by simp [Pool.put]
  exact ⟨p, hp, hsame ▸ hput⟩

theorem alike_refl {core : Nat} (m : Machine S V R) : Alike core m m :=
  ⟨.refl m.world, rfl, fun _ => rfl⟩

theorem alike_setWait_setWait {core : Nat} (m : Machine S V R) (b : Nat) (w w' : Wait S V R) :
    Alike core ((m.setWait b w).setWait b w') (m.setWait b w') := by
  refine ⟨.refl m.world, rfl, fun b' => ?_⟩
  rw [face_setWait, face_setWait, face_setWait]
  by_cases hb : b' = b
  · rw [if_pos hb, if_pos hb, if_pos hb]
    cases m.face b' <;> rfl
  · rw [if_neg hb, if_neg hb, if_neg hb]

end Machine

end TwinStore
