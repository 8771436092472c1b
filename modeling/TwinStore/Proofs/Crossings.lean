import Mathlib.Data.Set.Card
import TwinStore.Proofs.Refreshing
import TwinStore.Proofs.Stops

/-!
# Maps brought to maps, stop by stop

A `Crossing` is two keyed stores on a ground: a state is what the target holds, and the source holds
the same throughout. For each of the three ways to bring a map to a map there is one theorem that
says both how a run ends that nothing stops, its counts included (`Strategy.Finished`), and what a
stop leaves wherever it falls (`Strategy.Harmless`): `Crossing.takes_walk`.

Two of the walks deal with one key after the other, and so does the end of the third; a `Treatment`
says what becomes of one key and what is counted for it (`Crossing.takes_each`).
-/

namespace TwinStore

open Converge

variable {V ν α σ : Type}

/-! ## How runs end, and what stops leave -/

/-- The effect leads from one state to the other with this answer. -/
def Effect.Leads (e : Effect σ α) (s : σ) (a : α) (s' : σ) : Prop :=
  e.answers s a ∧ s' = e.after s

namespace Converge.Strategy

/-- A strategy gets the capabilities that it asks for: the keys of the source, of the target, or of
both. -/
def allows (source target : Grants) : Strategy → Bool
  | copy => source.keys && target.keys
  | differential => source.keys
  | intersection => target.keys

/-- What the target holds after a run that nothing stopped, and what the run counted: `S` is what
the source holds, and `T` what the target held. -/
def Finished (S T : Entries ν) : Strategy → Tally → Entries ν → Prop
  | copy, n, c =>
    c = S ∧ n.written = {k | (S k).isSome}.encard ∧
      n.removed = {k | (T k).isSome ∧ S k = none}.encard
  | differential, n, c =>
    (∀ k, c k = (T k).or (S k)) ∧ n.written = {k | (S k).isSome ∧ T k = none}.encard ∧
      n.removed = 0
  | intersection, n, c =>
    (∀ k, c k = if (T k).isSome then S k else none) ∧
      n.written = {k | (S k).isSome ∧ (T k).isSome}.encard ∧
      n.removed = {k | (T k).isSome ∧ S k = none}.encard

/-- What the target may hold wherever a run stops. A copy removes nothing that the source has, and
nothing at all before the target has all that the source has. -/
def Harmless (S T : Entries ν) : Strategy → Entries ν → Prop
  | copy, c =>
    (∀ k, c k = T k ∨ c k = S k) ∧
      (∀ k, (T k).isSome → (S k).isSome → (c k).isSome) ∧
      ((∃ k, (T k).isSome ∧ S k = none ∧ c k = none) → ∀ k x, S k = some x → c k = some x)
  | differential, c => Entries.PartlySupplied S T c
  | intersection, c => Entries.PartlyRefreshed S T c

end Converge.Strategy

namespace Entries

variable {S T c : Entries ν}

theorem set_of_same {k : Key} {x : Option ν} (h : c k = x) : c.set k x = c :=
  update_of_eq (fun _ => x) h.symm

/-- Adding what is there already has no effect. -/
theorem adding_after_of_held {k : Key} {x : ν} (overwrite : Bool) (h : c k = some x) :
    (adding k x overwrite).after c = c := by
  unfold adding
  dsimp only
  split
  · rfl
  · exact set_of_same h

theorem harmless_copied (S : Entries ν) (ks : List Key) (T : Entries ν) :
    Strategy.copy.Harmless S T (copied S ks T) := by
  refine ⟨mixed_copied S ks T, ?_, ?_⟩
  · intro k hT hS
    unfold copied
    split <;> assumption
  · rintro ⟨k, hT, hS, hc⟩
    simp [copied, hS] at hc
    simp [hc] at hT

/-- Once the target has all that the source has, anything else may go. -/
theorem harmless_of_subset (hin : ∀ k x, S k = some x → c k = some x)
    (hout : ∀ k, S k = none → c k = T k ∨ c k = none) : Strategy.copy.Harmless S T c := by
  refine ⟨fun k => ?_, fun k _ hS => ?_, fun _ => hin⟩
  · cases hS : S k with
    | none => exact hout k hS
    | some x => exact .inr (hin k x hS)
  · obtain ⟨x, hx⟩ := Option.isSome_iff_exists.1 hS
    rw [hin k x hx]
    rfl

theorem harmless_self (s : Strategy) (S T : Entries ν) : s.Harmless S T T := by
  cases s with
  | copy =>
    rw [← copied_nil S T]
    nth_rewrite 1 [copied_nil]
    exact harmless_copied S [] T
  | differential => exact fun k => .inl rfl
  | intersection => exact fun k => .inl rfl

end Entries

/-! ## Counting -/

section Counting

variable {ι : Type} {xs : List ι} {P : ι → Prop}

/-- A list that names the things of a kind counts them. -/
theorem encard_listed (hxs : xs.Nodup) (hP : ∀ x, x ∈ xs ↔ P x) :
    {x | P x}.encard = xs.length := by
  classical
  have h : {x | P x} = (xs.toFinset : Set ι) := by
    ext x
    simp [hP]
  rw [h, Set.encard_coe_eq_coe_finsetCard, List.toFinset_card_of_nodup hxs]

/-- A list with the things of a kind among others counts them by a test for the kind. -/
theorem encard_countP {p : ι → Bool} (hxs : xs.Nodup) (hP : ∀ x, x ∈ xs ∧ p x = true ↔ P x) :
    {x | P x}.encard = xs.countP p := by
  rw [List.countP_eq_length_filter]
  exact encard_listed (hxs.filter p) fun x => List.mem_filter.trans (hP x)

end Counting

/-! ## Crossings -/

/-- What an enumeration shows of the keys of a store: all of them, unless it broke off. -/
structure Ground.Lists (G : Ground V σ) (c : Entries ν) (l : Listing Key) : Prop where
  nodup : l.items.Nodup
  sound : ∀ k ∈ l.items, (c k).isSome
  whole : l.failure = none → ∀ k, (c k).isSome → k ∈ l.items
  broken : ∀ e, l.failure = some e → G.Halts (.failed e)

/-- Two keyed stores on a ground: a state is what the target holds, while the source holds `S`.
`Stands k x b` says that `b`, read under a key of the source, stands for the entry `x`. The target
takes nothing but what the source holds, and loses nothing that the source holds: what is more need
not go well, since the two may be one store. -/
structure Crossing (V ν α : Type) (S : Entries ν) extends Ground V (Entries ν) where
  source : KeyedStore V α
  target : KeyedStore V α
  Stands : Key → ν → α → Prop
  does_get : ∀ k t T, toGround.Does (source.get k t) T
    (fun b T' => (Entries.fetching k (Stands k)).answers S b ∧ T' = T) (· = T)
  does_add : ∀ {k x b}, S k = some x → Stands k x b → ∀ overwrite t T,
    toGround.Does (target.add k b overwrite t) T ((Entries.adding k x overwrite).Leads T) (· = T)
  does_remove : ∀ {k}, S k = none → ∀ t T,
    toGround.Does (target.remove k t) T ((Entries.removing k).Leads T) (· = T)
  does_sourceKeys : ∀ t T,
    toGround.Does (source.keys t) T (fun l T' => toGround.Lists S l ∧ T' = T) (· = T)
  does_targetKeys : ∀ t T,
    toGround.Does (target.keys t) T (fun l T' => toGround.Lists T l ∧ T' = T) (· = T)

/-- What becomes of an entry that a walk deals with, and what is counted for it. -/
structure Treatment (ν : Type) where
  becomes : Key → Option ν → Option ν
  writes : Key → Option ν → Bool := fun _ _ => false
  removes : Key → Option ν → Bool := fun _ _ => false

namespace Treatment

/-- Remove the entry. -/
def removal (ν : Type) : Treatment ν where
  becomes _ _ := none
  removes _ y := y.isSome

/-- Add the source's entry if there is none. -/
def supply (S : Entries ν) : Treatment ν where
  becomes k y := y.or (S k)
  writes k y := (S k).isSome && y.isNone

/-- Replace the entry by the source's, or remove it if the source has none. -/
def refresh (S : Entries ν) : Treatment ν where
  becomes k _ := S k
  writes k _ := (S k).isSome
  removes k y := (S k).isNone && y.isSome

/-- What is counted for the keys of a list. -/
def count (d : Treatment ν) (ks : List Key) (T : Entries ν) : Tally where
  written := ks.countP fun k => d.writes k (T k)
  removed := ks.countP fun k => d.removes k (T k)

/-- Dealing with one key leaves the others as they were. -/
theorem count_cons (d : Treatment ν) {k : Key} {ks : List Key} (hk : k ∉ ks) (T : Entries ν) :
    d.count [k] T + d.count ks (T.update k (d.becomes k)) = d.count (k :: ks) T := by
  have hsame : ∀ k' ∈ ks, T.update k (d.becomes k) k' = T k' := fun k' hk' =>
    Entries.set_of_ne _ _ fun h => hk (h ▸ hk')
  have hwrites : (ks.countP fun k' => d.writes k' (T.update k (d.becomes k) k')) =
      ks.countP fun k' => d.writes k' (T k') :=
    List.countP_congr fun k' hk' => by rw [hsame k' hk']
  have hremoves : (ks.countP fun k' => d.removes k' (T.update k (d.becomes k) k')) =
      ks.countP fun k' => d.removes k' (T k') :=
    List.countP_congr fun k' hk' => by rw [hsame k' hk']
  ext <;> simp [count, hwrites, hremoves, List.countP_cons, Nat.add_comm]

end Treatment

namespace Crossing

variable {S T : Entries ν} (c : Crossing V ν α S) {n : Tally} {t : Token}

/-- The source may be asked for its keys. -/
def SourceLists : Prop :=
  ∀ role T, c.Does (c.source.requireKeys role) T (fun _ T' => T' = T) (· = T)

/-- The target may be asked for its keys. -/
def TargetLists : Prop :=
  ∀ role T, c.Does (c.target.requireKeys role) T (fun _ T' => T' = T) (· = T)

/-- A strategy may ask the stores for the keys that it needs. -/
def Ready : Strategy → Prop
  | .copy => c.SourceLists ∧ c.TargetLists
  | .differential => c.SourceLists
  | .intersection => c.TargetLists

variable {c}

theorem ready_of_allows {a b : Grants} (hsource : a.keys = true → c.SourceLists)
    (htarget : b.keys = true → c.TargetLists) {s : Strategy} (h : s.allows a b = true) :
    c.Ready s := by
  cases s with
  | copy =>
    obtain ⟨ha, hb⟩ := Bool.and_eq_true_iff.1 h
    exact ⟨hsource ha, htarget hb⟩
  | differential => exact hsource h
  | intersection => exact htarget h

theorem SourceLists.does_listAs (h : c.SourceLists) (role : String) (t : Token) (T : Entries ν) :
    c.Does (c.source.listAs role t) T (fun l T' => c.Lists S l ∧ T' = T) (· = T) :=
  Ground.does_listAs (h role T) (c.does_sourceKeys t T)

theorem TargetLists.does_collectKeys (h : c.TargetLists) (role : String) (t : Token)
    (T : Entries ν) : c.Does (c.target.collectKeys role t) T
      (fun ks T' => ks.Nodup ∧ (∀ k, k ∈ ks ↔ (T k).isSome) ∧ T' = T) (· = T) := by
  refine (Ground.does_listAs (h role T) (c.does_targetKeys t T)).bind fun l T' hl => ?_
  obtain ⟨hl, rfl⟩ := hl
  exact Ground.does_collect (fun e he => ⟨hl.broken e he, rfl⟩) fun hwhole =>
    ⟨hl.nodup, fun k => ⟨hl.sound k, hl.whole hwhole k⟩, rfl⟩

/-! ## One key after the other -/

/-- Keys are dealt with one after the other, if each can be; wherever that stops, some of them have
been. -/
theorem takes_each {d : Treatment ν} (hd : ∀ k y, d.becomes k (d.becomes k y) = d.becomes k y)
    {step : Key → Walk V Unit} {ks : List Key} (hstep : ∀ k ∈ ks, ∀ n T, c.Takes (step k) T n
      (fun _ n' T' => n' = n + d.count [k] T ∧ T' = T.update k (d.becomes k)) (· = T))
    (hks : ks.Nodup) (T : Entries ν) (n : Tally) :
    c.Takes (Walk.each ks step) T n
      (fun _ n' T' => n' = n + d.count ks T ∧ T' = Entries.settled d.becomes ks T)
      (Entries.PartlySettled d.becomes ks T) := by
  induction ks generalizing n T with
  | nil => exact Ground.takes_pure ⟨n.add_empty.symm, (Entries.settled_nil _ T).symm⟩
  | cons k ks ih =>
    obtain ⟨hk, hks⟩ := List.nodup_cons.1 hks
    obtain ⟨hfirst, hstep⟩ := List.forall_mem_cons.1 hstep
    have hstays : ∀ T', T' = T → Entries.PartlySettled d.becomes (k :: ks) T T' :=
      fun T' hT' k' => .inl (congrFun hT' k')
    refine ((hfirst n T).leaving hstays).bind fun _ n' T' h => ?_
    obtain ⟨rfl, rfl⟩ := h
    refine (ih hstep hks _ _).mono (fun _ n' T' h => ?_) fun T' hT' => hT'.of_update hd
    obtain ⟨rfl, rfl⟩ := h
    rw [Tally.add_assoc, d.count_cons hk T]
    exact ⟨rfl, (Entries.settled_cons hd k ks T).symm⟩

/-- Removing the entry under a key that the source does not have. -/
theorem takes_remove {k : Key} (hS : S k = none) (n : Tally) (T : Entries ν) :
    c.Takes (Walk.removing (c.target.remove k t)) T n (fun _ n' T' =>
      n' = n + (Treatment.removal ν).count [k] T ∧
        T' = T.update k ((Treatment.removal ν).becomes k)) (· = T) := by
  refine (c.does_remove hS t T).removing fun found T' h => ?_
  obtain ⟨hfound, rfl⟩ := h
  obtain rfl : found = (T k).isSome := hfound
  refine ⟨?_, rfl⟩
  cases hT : T k <;> simp [Treatment.count, Treatment.removal, hT]

/-- Adding the source's entry under a key if the target has none. -/
theorem takes_addMissing (k : Key) (n : Tally) (T : Entries ν) :
    c.Takes (addMissing c.source c.target t k) T n (fun _ n' T' =>
      n' = n + (Treatment.supply S).count [k] T ∧ T' = T.update k ((Treatment.supply S).becomes k))
      (· = T) := by
  refine (c.does_get k t T).then fun b T' hgot => ?_
  obtain ⟨hread, rfl⟩ := hgot
  obtain ⟨hS, rfl⟩ | ⟨x, b, hS, rfl, hstands⟩ := hread
  · refine Ground.takes_pure ⟨?_, (Entries.update_of_eq _ ?_).symm⟩
    · simp [Treatment.count, Treatment.supply, hS]
    · simp [Treatment.supply, hS]
  · refine (c.does_add hS hstands false t T').then fun added T'' hadded => ?_
    obtain ⟨hadded, rfl⟩ := hadded
    obtain rfl : added = !(!false && (T' k).isSome) := hadded
    have hafter := Entries.adding_after_of_some hS T'
    cases hT : T' k with
    | none =>
      refine Ground.takes_wrote ⟨?_, hafter⟩
      simp [Treatment.count, Treatment.supply, hS, hT]
    | some y =>
      refine Ground.takes_pure ⟨?_, hafter⟩
      simp [Treatment.count, Treatment.supply, hT]

/-- Refreshing a key makes the target's entry there what it is to become, and counts that. -/
theorem takes_refreshKey (k : Key) (n : Tally) (T : Entries ν) :
    c.Takes (refreshKey c.source c.target t k) T n (fun _ n' T' =>
      n' = n + (Treatment.refresh S).count [k] T ∧
        T' = T.update k ((Treatment.refresh S).becomes k)) (· = T) := by
  refine (c.does_get k t T).then fun b T' hgot => ?_
  obtain ⟨hread, rfl⟩ := hgot
  obtain ⟨hS, rfl⟩ | ⟨x, b, hS, rfl, hstands⟩ := hread
  · refine c.takes_remove (t := t) hS n T' |>.mono (fun _ n' T'' h => ?_) fun _ h => h
    obtain ⟨rfl, rfl⟩ := h
    simp [Treatment.count, Treatment.refresh, Treatment.removal, hS, Entries.update]
  · refine (c.does_add hS hstands true t T').then fun _ T'' hadded => ?_
    obtain ⟨-, rfl⟩ := hadded
    refine Ground.takes_wrote ⟨?_, ?_⟩
    · simp [Treatment.count, Treatment.refresh, hS]
    · simp [Treatment.refresh, Entries.adding, Entries.update, hS]

/-- Copying the entries under some keys: those of the keys are not stale any more. -/
theorem takes_copyKeys (ks stale : List Key) (n : Tally) (T : Entries ν) :
    c.Takes (copyKeys c.source c.target t ks stale) T n
      (fun rest n' T' => rest = stale.filter (fun k => !(ks.contains k && (S k).isSome)) ∧
        n' = n + { written := ks.countP fun k => (S k).isSome } ∧ T' = Entries.copied S ks T)
      (fun T' => ∃ done, T' = Entries.copied S done T) := by
  induction ks generalizing stale n T with
  | nil =>
    refine Ground.takes_pure ⟨?_, rfl, (Entries.copied_nil S T).symm⟩
    simp
  | cons k ks ih =>
    have hstays : ∀ T', T' = T → ∃ done, T' = Entries.copied S done T :=
      fun T' h => ⟨[], by rw [h, Entries.copied_nil]⟩
    refine ((c.does_get k t T).leaving hstays).then fun b T' hgot => ?_
    obtain ⟨hread, rfl⟩ := hgot
    obtain ⟨hS, rfl⟩ | ⟨x, b, hS, rfl, hstands⟩ := hread
    · refine (ih stale n T').mono (fun rest n' T'' h => ?_) fun _ h => h
      obtain ⟨rfl, rfl, rfl⟩ := h
      refine ⟨List.filter_congr fun k' _ => ?_, by simp [hS],
        (Entries.copied_cons_of_none ks hS).symm⟩
      by_cases hk : k' = k
      · subst hk
        simp [hS]
      · simp [hk]
    · refine ((c.does_add hS hstands true t T').leaving hstays).then fun _ T'' hadded => ?_
      obtain ⟨-, rfl⟩ := hadded
      have hset : (Entries.adding k x true).after T' = T'.set k (some x) := by
        simp [Entries.adding]
      rw [hset]
      refine Ground.takes_wrote_then ?_
      refine (ih (stale.filter (· ≠ k)) _ _).mono (fun rest n' T'' h => ?_) fun T'' h => ?_
      · obtain ⟨rfl, rfl, rfl⟩ := h
        have hcount : n + { written := 1 } + { written := ks.countP fun k => (S k).isSome } =
            n + { written := (k :: ks).countP fun k => (S k).isSome } := by
          ext
          · simp [hS]
            omega
          · rfl
        refine ⟨?_, hcount, (Entries.copied_cons_of_some ks hS).symm⟩
        rw [List.filter_filter]
        refine List.filter_congr fun k' _ => ?_
        by_cases hk : k' = k
        · subst hk
          simp [hS]
        · simp [hk]
      · obtain ⟨done, rfl⟩ := h
        exact ⟨k :: done, (Entries.copied_cons_of_some done hS).symm⟩

/-! ## The three walks -/

/-- The entries that a copy has to remove in the end are those that only the target has. -/
theorem takes_removeStale {ks : List Key} (hks : ks.Nodup)
    (hstale : ∀ k, k ∈ ks ↔ (T k).isSome ∧ S k = none) {sourceKeys : List Key}
    (hsource : ∀ k, k ∈ sourceKeys ↔ (S k).isSome) (n : Tally) :
    c.Takes (Walk.each ks fun k => Walk.removing (c.target.remove k t))
      (Entries.copied S sourceKeys T) n
      (fun _ n' T' => n' = n + { removed := ks.length } ∧ T' = S) (Strategy.copy.Harmless S T) := by
  have hout : ∀ k, S k = none → Entries.copied S sourceKeys T k = T k := by
    intro k hS
    simp [Entries.copied, hS]
  have hin : ∀ k x, S k = some x → Entries.copied S sourceKeys T k = some x := by
    intro k x hS
    simp [Entries.copied, hsource, hS]
  refine (takes_each (d := .removal ν) (fun _ _ => rfl)
    (fun k hk n T => c.takes_remove ((hstale k).1 hk).2 n T) hks _ n).mono
    (fun _ n' T' h => ?_) fun T' h => ?_
  · obtain ⟨rfl, rfl⟩ := h
    refine ⟨?_, Entries.without_copied hsource hstale⟩
    have hall : ∀ k ∈ ks, (Entries.copied S sourceKeys T k).isSome = true := by
      intro k hk
      obtain ⟨hT, hS⟩ := (hstale k).1 hk
      rw [hout k hS]
      exact hT
    simp [Treatment.count, Treatment.removal, List.countP_eq_length.2 hall]
  · refine Entries.harmless_of_subset (fun k x hS => ?_) fun k hS => ?_
    · rcases h k with hold | ⟨hk, -⟩
      · rw [hold, hin k x hS]
      · rw [((hstale k).1 hk).2] at hS
        cases hS
    · rcases h k with hold | ⟨-, hnew⟩
      · exact .inl (hold.trans (hout k hS))
      · exact .inr hnew

theorem takes_copyWalk (hsource : c.SourceLists) (htarget : c.TargetLists) (T : Entries ν) :
    c.Takes (copyWalk c.source c.target t) T {} (fun _ => Strategy.copy.Finished S T)
      (Strategy.copy.Harmless S T) := by
  have hstays : ∀ T', T' = T → Strategy.copy.Harmless S T T' := by
    rintro _ rfl
    exact Entries.harmless_self .copy S _
  refine ((htarget.does_collectKeys "target" t T).leaving hstays).then fun stale T' hkeys => ?_
  obtain ⟨hnodup, hmem, rfl⟩ := hkeys
  refine ((hsource.does_listAs "source" t T').leaving hstays).then fun l T'' hl => ?_
  obtain ⟨hl, rfl⟩ := hl
  have hcopied : ∀ T', (∃ done, T' = Entries.copied S done T'') →
      Strategy.copy.Harmless S T'' T' := by
    rintro _ ⟨done, rfl⟩
    exact Entries.harmless_copied S done T''
  refine ((c.takes_copyKeys l.items stale {} T'').leaving hcopied).bind fun rest n' T' h => ?_
  obtain ⟨rfl, rfl, rfl⟩ := h
  rw [Tally.empty_add]
  refine Ground.takes_close_then (fun e he => ⟨hl.broken e he, hcopied _ ⟨_, rfl⟩⟩)
    fun hwhole => ?_
  have hitems : ∀ k, k ∈ l.items ↔ (S k).isSome := fun k => ⟨hl.sound k, hl.whole hwhole k⟩
  have hstale : ∀ k, k ∈ stale.filter (fun k => !(l.items.contains k && (S k).isSome)) ↔
      (T'' k).isSome ∧ S k = none := by
    intro k
    simp [hmem, hitems]
  refine (takes_removeStale (hnodup.filter _) hstale hitems _).mono (fun _ n' T' h => ?_)
    fun _ h => h
  obtain ⟨rfl, hequal⟩ := h
  refine ⟨hequal, ?_, ?_⟩
  · rw [encard_countP hl.nodup (p := fun k => (S k).isSome) fun k => by simp [hitems]]
    simp
  · rw [encard_listed (hnodup.filter _) hstale]
    simp

theorem takes_differentialWalk (hsource : c.SourceLists) (T : Entries ν) :
    c.Takes (differentialWalk c.source c.target t) T {}
      (fun _ => Strategy.differential.Finished S T) (Strategy.differential.Harmless S T) := by
  have hstays : ∀ T', T' = T → Strategy.differential.Harmless S T T' := by
    rintro _ rfl
    exact Entries.harmless_self .differential S _
  refine ((hsource.does_listAs "source" t T).leaving hstays).then fun l T' hl => ?_
  obtain ⟨hl, rfl⟩ := hl
  refine ((takes_each (d := .supply S) (fun k y => by simp [Treatment.supply, Option.or_assoc])
    (fun k _ n T => c.takes_addMissing k n T) hl.nodup T' {}).leaving fun _ h => h.others).bind
    fun _ n' T'' h => ?_
  obtain ⟨rfl, rfl⟩ := h
  refine Ground.takes_close
    (fun e he => ⟨hl.broken e he, (Entries.partlySettled_settled _ l.items T').others⟩)
    fun hwhole => ?_
  have hitems : ∀ k, k ∈ l.items ↔ (S k).isSome := fun k => ⟨hl.sound k, hl.whole hwhole k⟩
  refine ⟨Entries.settled_others hitems, ?_, ?_⟩
  · rw [encard_countP hl.nodup (p := fun k => (Treatment.supply S).writes k (T' k)) fun k => by
      simp [hitems, Treatment.supply]]
    simp [Treatment.count]
  · simp [Treatment.count, Treatment.supply]

theorem takes_intersectionWalk (htarget : c.TargetLists) (T : Entries ν) :
    c.Takes (intersectionWalk c.source c.target t) T {}
      (fun _ => Strategy.intersection.Finished S T) (Strategy.intersection.Harmless S T) := by
  have hstays : ∀ T', T' = T → Strategy.intersection.Harmless S T T' := by
    rintro _ rfl
    exact Entries.harmless_self .intersection S _
  refine ((htarget.does_collectKeys "target" t T).leaving hstays).then fun ks T' hkeys => ?_
  obtain ⟨hnodup, hmem, rfl⟩ := hkeys
  refine (takes_each (d := .refresh S) (fun _ _ => rfl) (fun k _ n T => c.takes_refreshKey k n T)
    hnodup T' {}).mono (fun _ n' T'' h => ?_) fun _ h => h.own hmem
  obtain ⟨rfl, rfl⟩ := h
  refine ⟨Entries.settled_own hmem, ?_, ?_⟩
  · rw [encard_countP hnodup (p := fun k => (Treatment.refresh S).writes k (T' k)) fun k => by
      simp [hmem, Treatment.refresh, and_comm]]
    simp [Treatment.count]
  · rw [encard_countP hnodup (p := fun k => (Treatment.refresh S).removes k (T' k)) fun k => by
      simp only [hmem, Treatment.refresh, Bool.and_eq_true, Option.isNone_iff_eq_none]
      tauto]
    simp [Treatment.count]

/-- Each of the three walks ends as its strategy says, or stops harmlessly. -/
theorem takes_walk {s : Strategy} (h : c.Ready s) (T : Entries ν) :
    c.Takes (s.walk c.source c.target t) T {} (fun _ => s.Finished S T) (s.Harmless S T) := by
  cases s with
  | copy => exact takes_copyWalk h.1 h.2 T
  | differential => exact takes_differentialWalk h T
  | intersection => exact takes_intersectionWalk h T

end Crossing

end TwinStore
