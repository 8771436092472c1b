import TwinStore.Converge.Entries
import TwinStore.Program.Backend
import TwinStore.Proofs.Responses

/-!
# Walks over keyed stores count what they do

The three walks that bring a map to a map are honest wherever the two stores say of their answers
what these come to (`Accounts.honest_walk`). Base maps and base maps of sets do, however calls stop
the run: an addition that may overwrite is never refused, so that it is counted without looking at
its answer.
-/

namespace TwinStore

open Converge

variable {V α : Type}

/-- Two keyed stores whose answers say what was put into the target and what was taken out. What the
source hands out is `Known` to the target. -/
structure Accounts (g : Regime V) (run : Nat) (site : Site) (source target : KeyedStore V α)
    (Known : α → Prop) : Prop where
  get : ∀ k t, (source.get k t).Reads g run site fun b => ∀ x ∈ b, Known x
  sourceKeys : ∀ role t, (source.listAs role t).Reads g run site fun _ => True
  targetKeys : ∀ role t, (target.listAs role t).Reads g run site fun _ => True
  add : ∀ k x overwrite t, Known x → (target.add k x overwrite t).Weighs g run site
    fun accepted m => m = { written := accepted.toNat } ∧ (overwrite = true → accepted = true)
  remove : ∀ k t, (target.remove k t).Weighs g run site
    fun found m => m = { removed := found.toNat }

namespace Accounts

variable {g : Regime V} {run : Nat} {site : Site} {source target : KeyedStore V α}
  {Known : α → Prop} (h : Accounts g run site source target Known) {t : Token}
include h

theorem reads_collectKeys (role : String) :
    (target.collectKeys role t).Reads g run site fun _ => True :=
  (h.targetKeys role t).bind fun l _ => Action.reads_collect l

/-- Writing an entry over whatever is there weighs one write. -/
theorem weighs_overwrite (k : Key) {x : α} (hx : Known x) :
    (target.add k x true t).Weighs g run site fun _ m => m = { written := 1 } := by
  refine (h.add k x true t hx).mono fun accepted m hm => ?_
  obtain ⟨rfl, haccepted⟩ := hm
  rw [haccepted rfl]
  rfl

theorem honest_copyKeys (ks stale : List Key) :
    (copyKeys source target t ks stale).Honest g run site := by
  induction ks generalizing stale with
  | nil => exact Walk.honest_pure stale
  | cons k ks ih =>
    refine Walk.honest_then (h.get k t) fun b m hb => ?_
    obtain ⟨rfl, hknown⟩ := hb
    cases b with
    | none => exact ih stale
    | some x =>
      refine Walk.honest_then (h.weighs_overwrite k (hknown x rfl)) fun _ m hm => ?_
      subst hm
      exact Walk.honest_wrote.bind fun _ => ih _

theorem honest_addMissing (k : Key) : (addMissing source target t k).Honest g run site := by
  refine Walk.honest_then (h.get k t) fun b m hb => ?_
  obtain ⟨rfl, hknown⟩ := hb
  cases b with
  | none => exact Walk.honest_pure ()
  | some x =>
    refine Walk.honest_then (h.add k x false t (hknown x rfl)) fun accepted m hm => ?_
    obtain ⟨rfl, -⟩ := hm
    cases accepted with
    | true => exact Walk.honest_wrote
    | false => exact Walk.honest_pure ()

theorem honest_refreshKey (k : Key) : (refreshKey source target t k).Honest g run site := by
  refine Walk.honest_then (h.get k t) fun b m hb => ?_
  obtain ⟨rfl, hknown⟩ := hb
  cases b with
  | none => exact Walk.honest_removing (h.remove k t)
  | some x =>
    refine Walk.honest_then (h.weighs_overwrite k (hknown x rfl)) fun _ m hm => ?_
    subst hm
    exact Walk.honest_wrote

/-- All three walks count what they do. -/
theorem honest_walk (s : Strategy) : (s.walk source target t).Honest g run site := by
  cases s with
  | copy =>
    refine Walk.honest_then (h.reads_collectKeys "target") fun stale m hm => ?_
    rw [hm.1]
    refine Walk.honest_then (h.sourceKeys "source" t) fun l m hm => ?_
    rw [hm.1]
    refine (h.honest_copyKeys l.items stale).bind fun stale => ?_
    refine (Walk.honest_close l).bind fun _ => ?_
    exact Walk.honest_each fun k => Walk.honest_removing (h.remove k t)
  | differential =>
    refine Walk.honest_then (h.sourceKeys "source" t) fun l m hm => ?_
    rw [hm.1]
    exact (Walk.honest_each h.honest_addMissing).bind fun _ => Walk.honest_close l
  | intersection =>
    refine Walk.honest_then (h.reads_collectKeys "target") fun ks m hm => ?_
    rw [hm.1]
    exact Walk.honest_each h.honest_refreshKey

end Accounts

/-! ## Base stores -/

section Base

variable {stops : Stops V} {run i j : Nat}

/-- A base store says what it grants, and nothing else happens. -/
theorem reads_requireKeys {g : Regime V} {site site' : Site} {m : KeyedStore V α}
    (hm : m.canList = Grants.keys <$> Backend.grants site') (role : String) :
    (m.requireKeys role).Reads g run site fun _ => True := by
  have hgrants : Action.Reads g run site (ExceptT.lift (Grants.keys <$> Backend.grants site'))
      fun _ => True := fun w =>
    { ok := fun _ _ => ⟨rfl, trivial⟩
      error := nofun
      cut := by constructor <;> nofun }
  unfold KeyedStore.requireKeys
  rw [hm]
  refine hgrants.bind fun b _ => ?_
  cases b with
  | true => exact Action.weighs_pure ⟨rfl, trivial⟩
  | false => exact Action.weighs_fail _

/-- What two base maps answer says what is put into the target and what is taken out. -/
theorem accounts_map :
    Accounts stops.regime run (.map j) (Backend.map i) (Backend.map j) fun _ => True where
  get k t := Action.weighs_call fun _ _ _ => ⟨rfl, fun _ _ => trivial⟩
  sourceKeys role t :=
    (reads_requireKeys (m := Backend.map i) rfl role).bind fun _ _ =>
      Action.weighs_call fun _ _ _ => ⟨rfl, trivial⟩
  targetKeys role t :=
    (reads_requireKeys (m := Backend.map j) rfl role).bind fun _ _ =>
      Action.weighs_call fun _ _ _ => ⟨rfl, trivial⟩
  add k x overwrite t _ := by
    refine Action.weighs_call fun w accepted haccepted => ⟨?_, ?_⟩
    · cases accepted <;> simp [Response.tally, Response.writes, Response.removes]
    · rintro rfl
      obtain ⟨w', rfl⟩ := Stops.answer_of_whole (fun _ _ _ => rfl) haccepted
      rfl
  remove k t := by
    refine Action.weighs_call fun w found _ => ?_
    cases found <;> simp [Response.tally, Response.writes, Response.removes]

theorem reads_collectUnder {site : Site} (k : Key) (t : Token) :
    ((Backend.setUnder i k).collect t).Reads stops.regime run site fun _ => True := by
  have hmembers : ((Backend.setUnder i k).members t).Reads stops.regime run site
      fun _ => True :=
    Action.weighs_call fun _ _ _ => ⟨rfl, trivial⟩
  exact hmembers.bind fun l _ => Action.reads_collect l

/-- What two base maps of sets answer says what is put into the target and what is taken out. -/
theorem accounts_setMap :
    Accounts stops.regime run (.setMap j) (Backend.setMap i).toKeyedStore
      (Backend.setMap j).toKeyedStore fun value => ∃ k, value = Backend.setUnder i k where
  get k t := by
    have hseek : (Backend.onSetMap i (.get k) t).Reads stops.regime run (.setMap j)
        fun _ => True :=
      Action.weighs_call fun _ _ _ => ⟨rfl, trivial⟩
    have hfind : ((Backend.setMap i).find k t).Reads stops.regime run (.setMap j)
        fun _ => True := by
      refine hseek.bind fun found _ => ?_
      cases found <;> exact Action.weighs_pure ⟨rfl, trivial⟩
    refine hfind.bind fun route _ => Action.weighs_pure ⟨rfl, fun value hvalue => ?_⟩
    obtain ⟨_, -, rfl⟩ := Option.map_eq_some_iff.1 hvalue
    exact ⟨k, rfl⟩
  sourceKeys role t :=
    (reads_requireKeys (m := (Backend.setMap i).toKeyedStore) rfl role).bind fun _ _ =>
      Action.weighs_call fun _ _ _ => ⟨rfl, trivial⟩
  targetKeys role t :=
    (reads_requireKeys (m := (Backend.setMap j).toKeyedStore) rfl role).bind fun _ _ =>
      Action.weighs_call fun _ _ _ => ⟨rfl, trivial⟩
  add k value overwrite t hvalue := by
    obtain ⟨k', rfl⟩ := hvalue
    have hvet : (Backend.onSetMap j (.add k overwrite) t).Reads stops.regime run (.setMap j)
        fun accepted => overwrite = true → accepted = true := by
      refine Action.weighs_call fun w accepted haccepted => ⟨rfl, ?_⟩
      rintro rfl
      obtain ⟨w', rfl⟩ := Stops.answer_of_whole (fun _ _ _ => rfl) haccepted
      rfl
    refine hvet.bind fun accepted haccepted => ?_
    cases accepted with
    | false => exact Action.weighs_pure ⟨rfl, haccepted⟩
    | true =>
      refine (reads_collectUnder k' t).bind fun members _ => ?_
      refine Action.weighs_ask (fun _ => rfl) fun _ => ⟨?_, fun _ => rfl⟩
      simp [Response.tally, Response.writes, Response.removes]
  remove k t := by
    refine Action.weighs_call fun w found _ => ?_
    cases found <;> simp [Response.tally, Response.writes, Response.removes]

end Base

end TwinStore
