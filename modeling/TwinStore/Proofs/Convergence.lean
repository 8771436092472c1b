import TwinStore.Proofs.BaseCrossings
import TwinStore.Proofs.Counting

/-!
# Bringing a base map to another

What a run of each strategy does to two base maps, and to two base maps of sets, be they distinct or
one. One that nothing stops leaves in the target exactly what its strategy is for, and reports
exactly how much it wrote and removed (`converges_exactly`). One that a call stops, wherever that
is, has left the source alone and done the target no harm; if it was cut short, it reports what it
did (`stops_harmlessly`).
-/

namespace TwinStore

open Converge

variable {V ν α : Type}

namespace Converge.Strategy

/-- A run between two base maps. -/
def onMaps (s : Strategy) (limit i j : Nat) (t : Token) : Action V Report :=
  (s.synchronizer limit).run (Backend.map i) (Backend.map j) t

/-- A run between two base maps of sets. -/
def onSetMaps (s : Strategy) (limit i j : Nat) (t : Token) : Action V Report :=
  ((s.synchronizer limit).contramap SetMapStore.toKeyedStore).run (Backend.setMap i)
    (Backend.setMap j) t

/-- A run that nothing has stopped has done no harm. -/
theorem Finished.harmless {S T c : Entries ν} {n : Tally} {s : Strategy}
    (h : s.Finished S T n c) : s.Harmless S T c := by
  cases s with
  | copy =>
    obtain ⟨rfl, -, -⟩ := h
    exact Entries.harmless_of_subset (fun _ _ hk => hk) fun _ hk => .inr hk
  | differential =>
    intro k
    rw [h.1 k]
    cases hT : T k with
    | none => exact .inr ⟨rfl, rfl⟩
    | some y => exact .inl rfl
  | intersection =>
    intro k
    rw [h.1 k]
    cases hT : T k with
    | none => exact .inl rfl
    | some y => exact .inr ⟨rfl, rfl⟩

/-! ## Validation -/

section Validation

variable {g : Regime V} {s : Strategy} {source target : KeyedStore V α} {site site' : Site}
  {w : World V}

/-- Stores are asked for nothing but what they grant. -/
theorem wp_validate (hsource : source.canList = Grants.keys <$> Backend.grants site)
    (htarget : target.canList = Grants.keys <$> Backend.grants site')
    {post : Except Halt Unit → World V → Prop}
    (allowed : s.allows (w.grants site) (w.grants site') = true → post (.ok ()) w)
    (missing : s.allows (w.grants site) (w.grants site') = false →
      ∀ e, post (.error (.failed e)) w) : (s.validate source target).wp g post w := by
  cases s with
  | copy =>
    unfold validate
    rw [Action.wp_bind, wp_requireKeys hsource]
    unfold allows at allowed missing
    split
    · rw [Action.andThen_ok, wp_requireKeys htarget]
      split
      · exact allowed (by simp [*])
      · exact missing (by simp [*]) _
    · exact missing (by simp [*]) _
  | differential =>
    unfold validate
    rw [wp_requireKeys hsource]
    split
    · exact allowed ‹_›
    · exact missing (eq_false_of_ne_true ‹_›) _
  | intersection =>
    unfold validate
    rw [wp_requireKeys htarget]
    split
    · exact allowed ‹_›
    · exact missing (eq_false_of_ne_true ‹_›) _

theorem reads_validate {run : Nat} {site'' : Site}
    (hsource : source.canList = Grants.keys <$> Backend.grants site)
    (htarget : target.canList = Grants.keys <$> Backend.grants site') :
    (s.validate source target).Reads g run site'' fun _ => True := by
  cases s with
  | copy => exact (reads_requireKeys hsource "source").bind fun _ _ => reads_requireKeys htarget _
  | differential => exact reads_requireKeys hsource _
  | intersection => exact reads_requireKeys htarget _

end Validation

end Converge.Strategy

/-! ## Runs -/

section Runs

variable {S : Entries ν} {c : Crossing V ν α S} {s : Strategy} {site site' : Site} {w : World V}
  {T : Entries ν} {limit : Nat} {t : Token}

/-- A run over a crossing concludes as its walk does, unless it is refused what it asks for. -/
theorem Crossing.wp_run (hsource : c.source.canList = Grants.keys <$> Backend.grants site)
    (htarget : c.target.canList = Grants.keys <$> Backend.grants site')
    (hready : s.allows (w.grants site) (w.grants site') = true → c.Ready s) (hw : c.At T w)
    {post : Except Halt Report → World V → Prop}
    (allowed : s.allows (w.grants site) (w.grants site') = true → ∀ r w',
      c.Concluded (s.Finished S T) (s.Harmless S T) (w.isCancelled t) r w' → post r w')
    (missing : s.allows (w.grants site) (w.grants site') = false →
      ∀ e, post (.error (.failed e)) w) :
    ((s.synchronizer limit).run c.source c.target t).wp c.regime post w := by
  unfold Synchronizer.run
  rw [Action.wp_bind]
  refine s.wp_validate hsource htarget (fun h => ?_) missing
  have hwalk := c.takes_walk (t := t) (hready h) T
  exact Action.wp_mono (hwalk.wp_drive (Entries.harmless_self s S T) s.word limit t hw)
    (allowed h)

/-- A run over stores that say what they answer reports truthfully. -/
theorem Accounts.truthful {g : Regime V} {site'' : Site} {source target : KeyedStore V α}
    {Known : α → Prop} (h : Accounts g w.runs site'' source target Known)
    (hsource : source.canList = Grants.keys <$> Backend.grants site)
    (htarget : target.canList = Grants.keys <$> Backend.grants site')
    (hallows : s.allows (w.grants site) (w.grants site') = true) :
    Report.Truthful w.runs site'' (w.isCancelled t)
      (g.act w ((s.synchronizer limit).run source target t)).1
      (g.responses ((s.synchronizer limit).run source target t).run w) := by
  have hvalid : (s.validate source target).wp g (fun r w' => (r, w') = (.ok (), w)) w :=
    s.wp_validate hsource htarget (fun _ => rfl) fun hnot =>
      absurd hallows (ne_true_of_eq_false hnot)
  exact ((h.honest_walk s).truthful s.word limit t).after (s.reads_validate hsource htarget) hvalid

end Runs

/-! ## What runs come to -/

/-- A run that nothing stopped: `S` and `T` are what source and target held, `S'` and `T'` what they
hold. -/
structure Converge.Strategy.Converges (s : Strategy) (S T S' T' : Entries ν)
    (r : Except Halt Report) : Prop where
  source : S' = S
  target : ∃ report, r = .ok report ∧ report.timedOut = false ∧ s.Finished S T report.toTally T'

/-- What source and target hold after a run that may have stopped anywhere. -/
structure Converge.Strategy.Contained (s : Strategy) (S T S' T' : Entries ν) : Prop where
  source : S' = S
  target : s.Harmless S T T'

namespace Ground

variable {G : Ground V (Entries ν)} {s : Strategy} {S T : Entries ν} {cancelled : Bool}
  {r : Except Halt Report} {w : World V} {source target : World V → Entries ν}

theorem Concluded.converges
    (h : G.Concluded (s.Finished S T) (s.Harmless S T) false r w) (hG : ∀ h, ¬ G.Halts h)
    (hat : ∀ {T w}, G.At T w → source w = S ∧ target w = T) :
    s.Converges S T (source w) (target w) r := by
  obtain ⟨n, T', rfl, hfinished, here⟩ := h.of_unstopped hG
  obtain ⟨hsource, rfl⟩ := hat here
  exact ⟨hsource, _, rfl, rfl, hfinished⟩

theorem Concluded.contained
    (h : G.Concluded (s.Finished S T) (s.Harmless S T) cancelled r w)
    (hat : ∀ {T w}, G.At T w → source w = S ∧ target w = T) :
    s.Contained S T (source w) (target w) := by
  obtain ⟨T', hharmless, here⟩ := h.leaves fun _ _ hfinished => hfinished.harmless
  obtain ⟨hsource, rfl⟩ := hat here
  exact ⟨hsource, hharmless⟩

end Ground

theorem Converge.Strategy.contained_self (s : Strategy) (S T : Entries ν) :
    s.Contained S T S T :=
  ⟨rfl, Entries.harmless_self s S T⟩

/-! ## Base stores -/

/-- The world shows two base maps. -/
def World.facingMaps (w : World V) (i j : Nat) : Facing V where
  i := i
  j := j
  holds := w.entries i
  sourceGrants := w.grants (.map i)
  targetGrants := w.grants (.map j)

/-- The world shows two base maps of sets. -/
def World.facingSetMaps (w : World V) (i j : Nat) : Facing MemberSet where
  i := i
  j := j
  holds := w.memberSets i
  sourceGrants := w.grants (.setMap i)
  targetGrants := w.grants (.setMap j)

/-- No base map of sets holds an empty set. -/
theorem MemberMap.Populated.occupied {m : MemberMap} (h : m.Populated) {now : Nat} {k : Key}
    {members : MemberSet} (hk : m.live? now k = some members) : members.isEmpty = false := by
  obtain ⟨slot, hs, -, rfl⟩ := (m.live?_eq_some_iff now).1 hk
  exact (h k slot hs).2

section Theorems

variable (s : Strategy) (limit : Nat) {w : World V} {i j : Nat} (t : Token)

theorem wp_onMaps (stops : Stops V) {post : Except Halt Report → World V → Prop}
    (allowed : s.allows (w.grants (.map i)) (w.grants (.map j)) = true → ∀ r w',
      ((w.facingMaps i j).mapGround stops).Concluded
        (s.Finished (w.entries i) (w.entries j)) (s.Harmless (w.entries i) (w.entries j))
        (w.isCancelled t) r w' → post r w')
    (missing : s.allows (w.grants (.map i)) (w.grants (.map j)) = false →
      ∀ e, post (.error (.failed e)) w) :
    (s.onMaps limit i j t).wp stops.regime post w :=
  Crossing.wp_run (c := (w.facingMaps i j).mapCrossing stops) rfl rfl
    (fun h => Facing.ready_mapCrossing h) ⟨rfl, rfl, rfl, rfl⟩ allowed missing

theorem wp_onSetMaps (stops : Stops V) (hpopulated : (w.setMaps.nth i).content.Populated)
    {post : Except Halt Report → World V → Prop}
    (allowed : s.allows (w.grants (.setMap i)) (w.grants (.setMap j)) = true → ∀ r w',
      ((w.facingSetMaps i j).setMapGround stops).Concluded
        (s.Finished (w.memberSets i) (w.memberSets j))
        (s.Harmless (w.memberSets i) (w.memberSets j)) (w.isCancelled t) r w' → post r w')
    (missing : s.allows (w.grants (.setMap i)) (w.grants (.setMap j)) = false →
      ∀ e, post (.error (.failed e)) w) :
    (s.onSetMaps limit i j t).wp stops.regime post w :=
  Crossing.wp_run
    (c := (w.facingSetMaps i j).setMapCrossing stops fun _ _ => hpopulated.occupied) rfl rfl
    (fun h => Facing.ready_setMapCrossing h) ⟨rfl, rfl, rfl, rfl⟩ allowed missing

/-- A run that nothing stops, between two base maps or two base maps of sets, leaves in the target
what its strategy is for and the source as it was, and reports how much it wrote and removed. -/
theorem converges_exactly (i j : Nat) (hw : w.Unplanned) (ht : w.isCancelled t = false) :
    (s.allows (w.grants (.map i)) (w.grants (.map j)) = true →
      let out := w.run (s.onMaps limit i j t).run
      s.Converges (w.entries i) (w.entries j) (out.2.entries i) (out.2.entries j) out.1) ∧
    (s.allows (w.grants (.setMap i)) (w.grants (.setMap j)) = true →
      (w.setMaps.nth i).content.Populated →
      let out := w.run (s.onSetMaps limit i j t).run
      s.Converges (w.memberSets i) (w.memberSets j) (out.2.memberSets i) (out.2.memberSets j)
        out.1) := by
  simp only [w.run_of_unplanned hw]
  refine ⟨fun hallows => ?_, fun hallows hpopulated => ?_⟩
  · change (s.onMaps limit i j t).wp Stops.never.regime
      (fun r w' => s.Converges _ _ (w'.entries i) (w'.entries j) r) w
    refine wp_onMaps s limit t .never (fun _ r w' h => ?_)
      fun hnot => absurd hallows (ne_true_of_eq_false hnot)
    rw [ht] at h
    exact h.converges Stops.not_halts_never fun hat => ⟨hat.source, hat.target⟩
  · change (s.onSetMaps limit i j t).wp Stops.never.regime
      (fun r w' => s.Converges _ _ (w'.memberSets i) (w'.memberSets j) r) w
    refine wp_onSetMaps s limit t .never hpopulated (fun _ r w' h => ?_)
      fun hnot => absurd hallows (ne_true_of_eq_false hnot)
    rw [ht] at h
    exact h.converges Stops.not_halts_never fun hat => ⟨hat.source, hat.target⟩

/-- Two base maps that share a key, and two base maps of sets that do. -/
def overlapping : World Nat where
  maps := ((∅ : Shelf (Base (EntryMap Nat))).put 0
    { content := .ofList [(.number 1, 10), (.number 2, 20)] }).put 1
    { content := .ofList [(.number 2, 21), (.number 3, 30)] }
  setMaps := ((∅ : Shelf (Base MemberMap)).put 0
    { content := .ofList [(.number 1, ["a"]), (.number 2, ["b", "c"])] }).put 1
    { content := .ofList [(.number 2, ["b"]), (.number 3, ["d"])] }

theorem unplanned_overlapping : overlapping.Unplanned := by
  intro site
  cases site with
  | map n | setMap n =>
    simp only [World.plan, World.around, overlapping, Shelf.nth, Shelf.put,
      Std.ExtTreeMap.getD_insert]
    split
    · rfl
    · split
      · rfl
      · rw [Std.ExtTreeMap.getD_empty]
        rfl
  | set n | queue n =>
    simp only [World.plan, World.around, overlapping, Shelf.nth]
    rw [Std.ExtTreeMap.getD_empty]
    rfl

theorem populated_overlapping : (overlapping.setMaps.nth 0).content.Populated := by
  have hcontent : (overlapping.setMaps.nth 0).content =
      .ofList [(.number 1, ["a"]), (.number 2, ["b", "c"])] := by
    simp [overlapping, Shelf.nth, Shelf.put, Std.ExtTreeMap.getD_insert]
  rw [hcontent]
  exact MemberMap.Furnished.ofList trivial _

/-- A copy writes two entries and removes one, of maps and of maps of sets. -/
theorem converges_exactly_overlapping :
    let out := overlapping.run (Strategy.copy.onMaps 1000 0 1 none).run
    let sets := overlapping.run (Strategy.copy.onSetMaps 1000 0 1 none).run
    overlapping.Unplanned ∧ overlapping.isCancelled none = false ∧
      out.1.toOption.map (fun r => (r.written, r.removed)) = some (2, 1) ∧
      Strategy.copy.Converges (overlapping.entries 0) (overlapping.entries 1) (out.2.entries 0)
        (out.2.entries 1) out.1 ∧
      sets.1.toOption.map (fun r => (r.written, r.removed)) = some (2, 1) ∧
      Strategy.copy.Converges (overlapping.memberSets 0) (overlapping.memberSets 1)
        (sets.2.memberSets 0) (sets.2.memberSets 1) sets.1 := by
  intro out sets
  obtain ⟨hmaps, hsetMaps⟩ := converges_exactly .copy 1000 none 0 1 unplanned_overlapping rfl
  exact ⟨unplanned_overlapping, rfl, by decide +kernel, hmaps (by decide +kernel),
    by decide +kernel, hsetMaps (by decide +kernel) populated_overlapping⟩

/-- A run that calls may stop anywhere, between two base maps or two base maps of sets, leaves the
source as it was and does the target no harm. If it was cut short it reports that, and whenever it
reports it reports how much it put into the target and took out. -/
theorem stops_harmlessly (i j : Nat) (stops : Stops V) (w : World V) :
    (let run := s.onMaps limit i j t
      let out := stops.regime.act w run
      s.Contained (w.entries i) (w.entries j) (out.2.entries i) (out.2.entries j) ∧
        (s.allows (w.grants (.map i)) (w.grants (.map j)) = true →
          Report.Truthful w.runs (.map j) (w.isCancelled t) out.1
            (stops.regime.responses run.run w))) ∧
    ((w.setMaps.nth i).content.Populated →
      let run := s.onSetMaps limit i j t
      let out := stops.regime.act w run
      s.Contained (w.memberSets i) (w.memberSets j) (out.2.memberSets i) (out.2.memberSets j) ∧
        (s.allows (w.grants (.setMap i)) (w.grants (.setMap j)) = true →
          Report.Truthful w.runs (.setMap j) (w.isCancelled t) out.1
            (stops.regime.responses run.run w))) := by
  refine ⟨⟨?_, fun hallows => accounts_map.truthful rfl rfl hallows⟩,
    fun hpopulated => ⟨?_, fun hallows => accounts_setMap.truthful rfl rfl hallows⟩⟩
  · exact wp_onMaps s limit t stops
      (fun _ _ _ h => h.contained fun hat => ⟨hat.source, hat.target⟩)
      fun _ _ => s.contained_self _ _
  · exact wp_onSetMaps s limit t stops hpopulated
      (fun _ _ _ h => h.contained fun hat => ⟨hat.source, hat.target⟩)
      fun _ _ => s.contained_self _ _

/-- A copy between maps that is cut short while its second write is pending, and one between maps of
sets whose removal fails. -/
theorem stops_harmlessly_midway :
    let cut : Stops Nat := .hitting [(5, .cut 0)]
    let failing : Stops Nat := .hitting [(8, .failure { cause := .backend "offline" })]
    let run := Strategy.copy.onMaps 1000 0 1 none
    let out := cut.regime.act overlapping run
    let sets := failing.regime.act overlapping (Strategy.copy.onSetMaps 1000 0 1 none)
    (out.1.toOption.map fun r => (r.written, r.removed, r.timedOut)) = some (1, 0, true) ∧
      Strategy.copy.Contained (overlapping.entries 0) (overlapping.entries 1) (out.2.entries 0)
        (out.2.entries 1) ∧
      Report.Truthful overlapping.runs (.map 1) false out.1
        (cut.regime.responses run.run overlapping) ∧
      sets.1.toOption.isNone = true ∧
      Strategy.copy.Contained (overlapping.memberSets 0) (overlapping.memberSets 1)
        (sets.2.memberSets 0) (sets.2.memberSets 1) := by
  intro cut failing run out sets
  obtain ⟨⟨hmaps, htruthful⟩, -⟩ := stops_harmlessly .copy 1000 none 0 1 cut overlapping
  obtain ⟨-, hsetMaps⟩ := stops_harmlessly .copy 1000 none 0 1 failing overlapping
  exact ⟨by decide +kernel, hmaps, htruthful (by decide +kernel), by decide +kernel,
    (hsetMaps populated_overlapping).1⟩

end Theorems

end TwinStore
