import TwinStore.Proofs.Convergence
import TwinStore.Proofs.PairedSets

/-!
# Overwriting a set with a set

A base set stands alone or under a key of a base map of sets; a `Nook` says where, and what it holds
at the moment is `World.membersAt`. Overwriting the set in one nook with the set in another removes
the members that only the target has, and then adds those of the source. `overwrites_safely` says
what the target holds at the end of a run and wherever a call may stop it.

Whether a listing is complete decides what may be removed, so that both sets are listed to the end
before anything changes. Source and target may be in one nook: then nothing is to be removed, and
what is added is there already.
-/

namespace TwinStore

open Converge

variable {V : Type}

/-! ## Where sets are -/

/-- Where a base set is: alone, or under a key of a base map of sets. -/
inductive Nook where
  | alone (i : Nat)
  | under (i : Nat) (k : Key)
  deriving DecidableEq

/-- The set in a nook. -/
def Nook.store (V : Type) : Nook → SetStore V
  | alone i => Backend.set i
  | under i k => Backend.setUnder i k

/-- A call to the set in a nook. -/
def Nook.on (a : Nook) (op : SetOp) (t : Token) : Action V op.Answer :=
  match a with
  | alone i => Backend.onSet i op t
  | under i k => Backend.onSetMap i (.member k op) t

namespace Nook

variable (a : Nook) (x : String) (t : Token)

theorem store_add : (a.store V).add x t = a.on (.add x) t := by
  cases a <;> rfl

theorem store_remove : (a.store V).remove x t = a.on (.remove x) t := by
  cases a <;> rfl

theorem store_members : (a.store V).members t = a.on .members t := by
  cases a <;> rfl

end Nook

/-- What the set in a nook holds at the moment. -/
def World.membersAt (w : World V) : Nook → MemberSet
  | .alone i => (w.sets.nth i).content
  | .under i k => (w.setMaps.nth i).content.liveMembers w.clock k

namespace World

variable {w w' : World V}

theorem membersAt_congr (h : w'.stores = w.stores) : w'.membersAt = w.membersAt := by
  simp only [stores, Prod.mk.injEq] at h
  funext a
  cases a <;> simp only [membersAt, h]

theorem membersAt_perform_alone (i : Nat) (op : SetOp) (b : Nook) :
    (w.perform (.set i op)).2.membersAt b =
      if .alone i = b then (op.apply w.arrangement (w.membersAt (.alone i))).2
      else w.membersAt b := by
  cases b with
  | under j k => rfl
  | alone j =>
    by_cases hij : i = j
    · subst hij
      simp [membersAt, perform]
    · simp [membersAt, perform, hij, Shelf.nth_put_of_ne _ _ hij]

theorem membersAt_perform_under (i : Nat) (k : Key) (op : SetOp) (b : Nook) :
    (w.perform (.setMap i (.member k op))).2.membersAt b =
      if .under i k = b then (op.apply w.arrangement (w.membersAt (.under i k))).2
      else w.membersAt b := by
  cases b with
  | alone j => rfl
  | under j k' =>
    by_cases hij : i = j
    · subst hij
      simp [membersAt, perform, SetMapOp.apply, MemberMap.liveMembers_applyUnder]
    · simp [membersAt, perform, hij, Shelf.nth_put_of_ne _ _ hij]

end World

/-! ## How overwriting ends, and what stops leave -/

/-- What the target holds after overwriting that nothing stopped, and what was counted: `S` is what
the source holds, and `T` what the target held. -/
structure Overwritten (S T : MemberSet) (n : Tally) (c : MemberSet) : Prop where
  equal : c = S
  written : n.written = S.size
  removed : n.removed = {x | x ∈ T ∧ x ∉ S}.encard

/-- What the target may hold wherever overwriting stops: nothing is added before all that is to go
has gone. -/
structure PartlyOverwritten (S T c : MemberSet) : Prop where
  kept : ∀ x ∈ S, x ∈ T → x ∈ c
  bounded : ∀ x ∈ c, x ∈ S ∨ x ∈ T
  ordered : (∃ x ∈ S, x ∉ T ∧ x ∈ c) → ∀ x ∈ T, x ∉ S → x ∉ c

namespace PartlyOverwritten

variable {S T c : MemberSet}

/-- Some of the members that only the target has are gone. -/
theorem of_removing (hin : ∀ x ∈ c, x ∈ T) (hout : ∀ x ∈ T, x ∈ S → x ∈ c) :
    PartlyOverwritten S T c where
  kept x hS hT := hout x hT hS
  bounded x hx := .inr (hin x hx)
  ordered := fun ⟨x, _, hT, hx⟩ => absurd (hin x hx) hT

/-- All members that only the target has are gone, and some members of the source have come. -/
theorem of_adding (hin : ∀ x ∈ c, x ∈ S) (hout : ∀ x ∈ T, x ∈ S → x ∈ c) :
    PartlyOverwritten S T c where
  kept x hS hT := hout x hT hS
  bounded x hx := .inl (hin x hx)
  ordered _ x _ hS hx := hS (hin x hx)

theorem refl (S T : MemberSet) : PartlyOverwritten S T T :=
  of_removing (fun _ hx => hx) fun _ hx _ => hx

end PartlyOverwritten

theorem Overwritten.partly {S T c : MemberSet} {n : Tally} (h : Overwritten S T n c) :
    PartlyOverwritten S T c := by
  obtain ⟨rfl, -, -⟩ := h
  exact .of_adding (fun _ hx => hx) fun _ _ hS => hS

/-! ## Two nooks -/

/-- A set to be overwritten and the one that it is to equal: where they are, and what the latter
holds. -/
structure Overwriting where
  source : Nook
  target : Nook
  holds : MemberSet

namespace Overwriting

variable {p : Overwriting} {stops : Stops V} {S T : MemberSet} {n : Tally} {w w' : World V}
  {t : Token}

/-- The target holds `T`, and the source what it held. -/
structure At (p : Overwriting) (T : MemberSet) (w : World V) : Prop where
  source : w.membersAt p.source = p.holds
  target : w.membersAt p.target = T

theorem At.congr (hw : p.At T w) (h : w'.stores = w.stores) : p.At T w' :=
  have hsame := congrFun (World.membersAt_congr h)
  ⟨(hsame _).trans hw.source, (hsame _).trans hw.target⟩

/-- The ground of two nooks. -/
def ground (p : Overwriting) (stops : Stops V) : Ground V MemberSet where
  stops := stops
  At := p.At
  at_visit _ hw := by exact hw.congr rfl
  at_congr h _ hw := hw.congr h

/-! ### Calls -/

/-- A call to the set in a nook that does not stop the run does to what the nook holds what the
operation does to a set, and to other nooks nothing. An enumeration may break off. -/
theorem does_on (a : Nook) {op : SetOp} (t : Token) {good : op.Answer → MemberSet → Prop}
    (hperform : ∀ w : World V, p.At T w →
      ∃ T', good (op.apply w.arrangement (w.membersAt a)).1 T' ∧
        ∀ w' : World V, (∀ b, w'.membersAt b =
          if a = b then (op.apply w.arrangement (w.membersAt a)).2 else w.membersAt b) →
          p.At T' w')
    (hbroken : ∀ i n cause x y T', stops.Halts (.failed cause) → good x T' →
      (Call.set (V := V) i op).failAfter n cause x = some y → good y T') :
    (p.ground stops).Does (a.on op t) T good (· = T) := by
  cases a with
  | alone i =>
    refine Ground.does_call t (fun w hw => ?_) (hbroken i)
    obtain ⟨T', hgood, hat⟩ := hperform w hw
    exact ⟨T', hgood, hat _ (World.membersAt_perform_alone i op)⟩
  | under i k =>
    refine Ground.does_call t (fun w hw => ?_) fun n cause x y T' hhalt hgood hy => ?_
    · obtain ⟨T', hgood, hat⟩ := hperform w hw
      refine ⟨T', ?_, hat _ (World.membersAt_perform_under i k op)⟩
      change good (op.applyUnder _ _ _ _).1 T'
      rw [MemberMap.applyUnder_fst]
      exact hgood
    · refine hbroken i n cause x y T' hhalt hgood ?_
      cases op <;> exact hy

/-- All the members of a set, each of them once, in any order. -/
theorem does_collect {a : Nook} {c : MemberSet} (hc : ∀ w : World V, p.At T w → w.membersAt a = c)
    (t : Token) : (p.ground stops).Does ((a.store V).collect t) T
      (fun xs T' => xs.Perm c.toList ∧ T' = T) (· = T) := by
  have hlisted : (p.ground stops).Does ((a.store V).members t) T
      (fun l T' => ((l.failure = none → l.items.Perm c.toList) ∧
        ∀ e, l.failure = some e → (p.ground stops).Halts (.failed e)) ∧ T' = T) (· = T) := by
    rw [a.store_members]
    refine does_on a t (fun w hw => ?_) ?_
    · refine ⟨T, ⟨⟨fun _ => ?_, nofun⟩, rfl⟩, fun w' hw' => ?_⟩
      · rw [hc w hw]
        exact w.arrangement.members_perm c.toList
      · -- Listing leaves every set as it was.
        have hsame : ∀ b, w'.membersAt b = w.membersAt b := by
          intro b
          rw [hw' b]
          split
          · exact congrArg w.membersAt ‹a = b›
          · rfl
        exact ⟨(hsame _).trans hw.source, (hsame _).trans hw.target⟩
    · rintro i n cause l _ T' hcause ⟨-, rfl⟩ ⟨⟩
      refine ⟨⟨nofun, ?_⟩, rfl⟩
      rintro _ ⟨⟩
      exact hcause
  refine hlisted.bind fun l T' h => ?_
  obtain ⟨⟨hwhole, hbroken⟩, rfl⟩ := h
  exact Ground.does_collect (fun e he => ⟨hbroken e he, rfl⟩) fun hl => ⟨hwhole hl, rfl⟩

/-- An operation on the target, which is to show no effect if that is the source as well. -/
theorem does_onTarget {op : SetOp} {good : op.Answer → Prop} {T' : MemberSet} (t : Token)
    (happly : ∀ arrangement, good (op.apply arrangement T).1 ∧ (op.apply arrangement T).2 = T')
    (hself : T = p.holds → T' = T)
    (hwhole : ∀ i n cause x, (Call.set (V := V) i op).failAfter n cause x = none) :
    (p.ground stops).Does (p.target.on op t) T (fun x c => good x ∧ c = T') (· = T) := by
  refine does_on p.target t (fun w hw => ?_) fun i n cause x y s' _ _ hy => ?_
  · obtain ⟨hgood, hafter⟩ := happly w.arrangement
    rw [hw.target]
    refine ⟨T', ⟨hgood, rfl⟩, fun w' hw' => ⟨?_, ?_⟩⟩
    · rw [hw' p.source, hafter]
      split
      · have hone : T = p.holds := by rw [← hw.target, ‹p.target = p.source›, hw.source]
        rw [hself hone, hone]
      · exact hw.source
    · rw [hw' p.target, if_pos rfl, hafter]
  · rw [hwhole] at hy
    cases hy

/-- Adding a member of the source inserts it into the target, or leaves the target as it is. -/
theorem does_add {x : String} (hx : x ∈ p.holds) (t : Token) :
    (p.ground stops).Does ((p.target.store V).add x t) T (fun _ c => c = T.insert x) (· = T) := by
  have hself : T = p.holds → T.insert x = T := by
    rintro rfl
    exact Members.insert_of_mem hx
  have hchange : (p.ground stops).Does (p.target.on (.add x) t) T
      (fun _ c => True ∧ c = T.insert x) (· = T) :=
    does_onTarget t (fun _ => ⟨trivial, rfl⟩) hself fun _ _ _ _ => rfl
  rw [p.target.store_add]
  exact hchange.mono (fun _ _ h => h.2) fun _ h => h

/-- Removing a member from the target that the source does not have. -/
theorem does_remove {x : String} (hx : x ∉ p.holds) (t : Token) :
    (p.ground stops).Does ((p.target.store V).remove x t) T
      (fun found c => found = T.contains x ∧ c = T.erase x) (· = T) := by
  rw [p.target.store_remove]
  refine does_onTarget t (fun _ => ⟨rfl, rfl⟩) ?_ fun _ _ _ _ => rfl
  rintro rfl
  exact Members.erase_of_not_mem hx

/-! ### Loops -/

/-- Of a list without repetitions nothing is dropped. -/
theorem eraseDups_of_nodup {xs : List String} (h : xs.Nodup) : xs.eraseDups = xs := by
  induction xs with
  | nil => rfl
  | cons x xs ih =>
    obtain ⟨hx, hxs⟩ := List.nodup_cons.1 h
    have hrest : (xs.filter fun y => !y == x) = xs := by
      refine List.filter_eq_self.2 fun y hy => ?_
      rw [Bool.not_eq_true', beq_eq_false_iff_ne]
      exact fun hyx => hx (hyx ▸ hy)
    rw [List.eraseDups_cons, hrest, ih hxs]

/-- Members that the source does not have are removed one after the other. -/
theorem takes_removals {xs : List String} (hxs : xs.Nodup) (hS : ∀ x ∈ xs, x ∉ p.holds)
    (hT : ∀ x ∈ xs, x ∈ T) (n : Tally) (t : Token) :
    (p.ground stops).Takes
      (Walk.each xs fun x => Walk.removing ((p.target.store V).remove x t)) T n
      (fun _ n' c => n' = n + { removed := xs.length } ∧ ∀ x, x ∈ c ↔ x ∈ T ∧ x ∉ xs)
      (fun c => ∀ x, (x ∈ c → x ∈ T) ∧ (x ∈ T → x ∉ xs → x ∈ c)) := by
  induction xs generalizing n T with
  | nil => exact Ground.takes_pure ⟨n.add_empty.symm, by simp⟩
  | cons x xs ih =>
    obtain ⟨hx, hxs⟩ := List.nodup_cons.1 hxs
    obtain ⟨hxS, hS⟩ := List.forall_mem_cons.1 hS
    obtain ⟨hxT, hT⟩ := List.forall_mem_cons.1 hT
    have hfirst : (p.ground stops).Takes (Walk.removing ((p.target.store V).remove x t)) T n
        (fun _ n' c => n' = n + { removed := 1 } ∧ c = T.erase x) (· = T) := by
      refine (does_remove hxS t).removing fun found c h => ?_
      obtain ⟨rfl, rfl⟩ := h
      rw [Std.ExtTreeSet.contains_iff_mem.2 hxT]
      exact ⟨rfl, rfl⟩
    have hstays : ∀ c, c = T → ∀ y, (y ∈ c → y ∈ T) ∧ (y ∈ T → y ∉ x :: xs → y ∈ c) := by
      rintro _ rfl y
      exact ⟨id, fun h _ => h⟩
    refine (hfirst.leaving hstays).bind fun _ n' c h => ?_
    obtain ⟨rfl, rfl⟩ := h
    have hrest : ∀ y ∈ xs, y ∈ T.erase x := fun y hy =>
      Members.mem_erase_iff.2 ⟨fun h => hx (h ▸ hy), hT y hy⟩
    refine (ih hxs hS hrest _).mono (fun _ n' c h => ?_) fun c h y => ?_
    · obtain ⟨rfl, hc⟩ := h
      refine ⟨?_, fun y => ?_⟩
      · rw [Tally.add_assoc]
        ext <;> simp [Nat.add_comm]
      · rw [hc y, Members.mem_erase_iff, List.mem_cons]
        grind
    · obtain ⟨hin, hout⟩ := h y
      rw [Members.mem_erase_iff] at hin hout
      refine ⟨fun hy => (hin hy).2, fun hy hxs => ?_⟩
      rw [List.mem_cons, not_or] at hxs
      exact hout ⟨fun h => hxs.1 h.symm, hy⟩ hxs.2

/-- Members of the source are added one after the other. -/
theorem takes_additions {xs : List String} (hS : ∀ x ∈ xs, x ∈ p.holds) (n : Tally) (t : Token) :
    (p.ground stops).Takes
      (Walk.each xs fun x => (do
        (p.target.store V).add x t
        Walk.wrote : Walk V Unit)) T n
      (fun _ n' c => n' = n + { written := xs.length } ∧ ∀ x, x ∈ c ↔ x ∈ T ∨ x ∈ xs)
      (fun c => ∀ x, (x ∈ T → x ∈ c) ∧ (x ∈ c → x ∈ T ∨ x ∈ xs)) := by
  induction xs generalizing n T with
  | nil => exact Ground.takes_pure ⟨n.add_empty.symm, by simp⟩
  | cons x xs ih =>
    obtain ⟨hx, hS⟩ := List.forall_mem_cons.1 hS
    have hfirst : (p.ground stops).Takes (do
        (p.target.store V).add x t
        Walk.wrote : Walk V Unit) T n
        (fun _ n' c => n' = n + { written := 1 } ∧ c = T.insert x) (· = T) :=
      (does_add hx t).then fun _ c h => Ground.takes_wrote ⟨rfl, h⟩
    have hstays : ∀ c, c = T → ∀ y, (y ∈ T → y ∈ c) ∧ (y ∈ c → y ∈ T ∨ y ∈ x :: xs) := by
      rintro _ rfl y
      exact ⟨id, .inl⟩
    refine (hfirst.leaving hstays).bind fun _ n' c h => ?_
    obtain ⟨rfl, rfl⟩ := h
    refine (ih hS _).mono (fun _ n' c h => ?_) fun c h y => ?_
    · obtain ⟨rfl, hc⟩ := h
      refine ⟨?_, fun y => ?_⟩
      · rw [Tally.add_assoc]
        ext <;> simp [Nat.add_comm]
      · rw [hc y, Members.mem_insert_iff, List.mem_cons]
        grind
    · obtain ⟨hin, hout⟩ := h y
      rw [Members.mem_insert_iff] at hin hout
      rw [List.mem_cons]
      exact ⟨fun hy => hin (.inr hy), fun hy => by grind⟩

/-! ### The walk -/

/-- Overwriting ends with the target equal to the source, or stops with the one overwritten in
part. -/
theorem takes_overwriteWalk (T : MemberSet) (t : Token) :
    (p.ground stops).Takes (overwriteWalk (p.source.store V) (p.target.store V) t) T {}
      (fun _ => Overwritten p.holds T) (PartlyOverwritten p.holds T) := by
  have hstays : ∀ c, c = T → PartlyOverwritten p.holds T c := by
    rintro _ rfl
    exact .refl _ _
  refine ((does_collect (fun _ hw => hw.source) t).leaving hstays).then fun wanted c h => ?_
  obtain ⟨hwanted, rfl⟩ := h
  refine ((does_collect (fun _ hw => hw.target) t).leaving hstays).then fun present T h => ?_
  obtain ⟨hpresent, rfl⟩ := h
  have hS : ∀ x, x ∈ wanted ↔ x ∈ p.holds := fun x =>
    hwanted.mem_iff.trans Std.ExtTreeSet.mem_toList
  have hT : ∀ x, x ∈ present ↔ x ∈ T := fun x =>
    hpresent.mem_iff.trans Std.ExtTreeSet.mem_toList
  have hstale : ∀ x, x ∈ present.filter (fun x => !wanted.contains x) ↔ x ∈ T ∧ x ∉ p.holds := by
    intro x
    simp [hS, hT]
  have hnodup : (present.filter fun x => !wanted.contains x).Nodup :=
    (hpresent.nodup_iff.2 (Members.nodup_toList T)).filter _
  refine ((takes_removals hnodup (fun x hx => ((hstale x).1 hx).2)
    (fun x hx => ((hstale x).1 hx).1) {} t).leaving fun c h => ?_).bind fun _ n' c h => ?_
  · exact .of_removing (fun x => (h x).1) fun x hxT hxS =>
      (h x).2 hxT fun hx => ((hstale x).1 hx).2 hxS
  obtain ⟨rfl, hc⟩ := h
  -- What is left is in both sets.
  have hboth : ∀ x, x ∈ c ↔ x ∈ T ∧ x ∈ p.holds := by
    intro x
    rw [hc x, hstale x]
    tauto
  rw [eraseDups_of_nodup (hwanted.nodup_iff.2 (Members.nodup_toList p.holds))]
  refine (takes_additions (fun x hx => (hS x).1 hx) _ t).mono (fun _ n' c' h => ?_) fun c' h => ?_
  · obtain ⟨rfl, hc'⟩ := h
    refine ⟨Std.ExtTreeSet.ext_mem fun x => ?_, ?_, ?_⟩
    · rw [hc' x, hboth x, hS x]
      exact ⟨fun h => h.elim And.right id, .inr⟩
    · simp [hwanted.length_eq]
    · rw [encard_listed hnodup hstale]
      simp
  · refine .of_adding (fun x hx => ?_) fun x hxT hxS => (h x).1 ((hboth x).2 ⟨hxT, hxS⟩)
    exact ((h x).2 hx).elim (fun hx => ((hboth x).1 hx).2) (hS x).1

end Overwriting

/-! ## Runs -/

/-- A run between two nooks. -/
def Nook.overwrite (limit : Nat) (a b : Nook) (t : Token) : Action V Report :=
  (overwriteSet limit).run (a.store V) (b.store V) t

/-- Overwriting the set in one nook with the set in another, however calls stop it: the source is as
it was, and the target overwritten at least in part. If the run was not cut short, the target equals
the source, and the report counts the members of the source and those that only the target had; and
only a stop or a cancellation keeps it from that. -/
theorem overwrites_safely (limit : Nat) (a b : Nook) (t : Token) (stops : Stops V) (w : World V) :
    let out := stops.regime.act w (a.overwrite limit b t)
    out.2.membersAt a = w.membersAt a ∧
      PartlyOverwritten (w.membersAt a) (w.membersAt b) (out.2.membersAt b) ∧
      (∀ report, out.1 = .ok report → report.timedOut = false →
        Overwritten (w.membersAt a) (w.membersAt b) report.toTally (out.2.membersAt b)) ∧
      ((∀ h, ¬ stops.Halts h) → w.isCancelled t = false →
        ∃ report, out.1 = .ok report ∧ report.timedOut = false) := by
  let p : Overwriting := ⟨a, b, w.membersAt a⟩
  have hrun : (a.overwrite limit b t).wp stops.regime
      ((p.ground stops).Concluded (Overwritten (w.membersAt a) (w.membersAt b))
        (PartlyOverwritten (w.membersAt a) (w.membersAt b)) (w.isCancelled t)) w :=
    (p.takes_overwriteWalk (w.membersAt b) t).wp_drive (.refl _ _) "overwrite_set" limit t
      ⟨rfl, rfl⟩
  intro out
  change (p.ground stops).Concluded _ _ _ out.1 out.2 at hrun
  obtain ⟨c, hpartly, hsource, htarget⟩ := hrun.leaves fun _ _ h => h.partly
  refine ⟨hsource, htarget ▸ hpartly, ?_, ?_⟩
  · intro report hreport hwhole
    rw [hreport] at hrun
    obtain ⟨c, hdone, hat⟩ := hrun.of_whole hwhole
    exact hat.target ▸ hdone
  · intro hstops hcancelled
    rw [hcancelled] at hrun
    obtain ⟨n, c, hdone, -, -⟩ := hrun.of_unstopped hstops
    exact ⟨_, hdone, rfl⟩

/-- A set alone and a set under a key that share a member. -/
def twoNooks : World Nat where
  sets := (∅ : Shelf (Base MemberSet)).put 0 { content := .ofList ["a", "b", "c"] }
  setMaps := (∅ : Shelf (Base MemberMap)).put 0 { content := .ofList [(.number 1, ["b", "d"])] }

/-- Overwriting that is cut short while its second addition is pending, and the same unstopped. -/
theorem overwrites_safely_midway :
    let a := Nook.alone 0
    let b := Nook.under 0 (.number 1)
    let cut : Stops Nat := .hitting [(4, .cut 0)]
    let out := cut.regime.act twoNooks (a.overwrite 1000 b none)
    let whole := Stops.never.regime.act twoNooks (a.overwrite 1000 b none)
    (out.1.toOption.map fun r => (r.written, r.removed, r.timedOut)) = some (1, 1, true) ∧
      (out.2.membersAt b).toList = ["a", "b"] ∧
      PartlyOverwritten (twoNooks.membersAt a) (twoNooks.membersAt b) (out.2.membersAt b) ∧
      ∃ report, whole.1 = .ok report ∧ report.written = 3 ∧ report.removed = 1 ∧
        Overwritten (twoNooks.membersAt a) (twoNooks.membersAt b) report.toTally
          (whole.2.membersAt b) := by
  intro a b cut out whole
  obtain ⟨-, hcut, -, -⟩ := overwrites_safely 1000 a b none cut twoNooks
  obtain ⟨-, -, hwhole, hends⟩ := overwrites_safely 1000 a b none .never twoNooks
  obtain ⟨report, hreport, htimedOut⟩ := hends Stops.not_halts_never rfl
  have hcounts : (whole.1.toOption.map fun r => (r.written, r.removed)) = some (3, 1) := by
    decide +kernel
  obtain ⟨hwritten, hremoved⟩ : report.written = 3 ∧ report.removed = 1 := by
    rw [hreport] at hcounts
    simpa [Except.toOption] using hcounts
  exact ⟨by decide +kernel, by decide +kernel, hcut, report, hreport, hwritten, hremoved,
    hwhole report hreport htimedOut⟩

end TwinStore
