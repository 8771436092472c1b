import TwinStore.Converge.Run

/-!
# Bringing a map to a map

Three walks over keyed stores. `copy` makes the target equal to the source, `differential` adds what
the target lacks and touches nothing else, `intersection` refreshes the target's own keys and
removes those that the source no longer has. Writes come before removals in `copy`, so that a walk
cut short never leaves the target short of an entry of the source that it had.
-/

namespace TwinStore.Converge

variable {V α : Type}

/-- Copy the source's entries under the listed keys; the answer is what remains of `stale`. -/
def copyKeys (source target : KeyedStore V α) (t : Token) :
    List Key → List Key → Walk V (List Key)
  | [], stale => pure stale
  | k :: ks, stale => do
    match ← source.get k t with
    | some v =>
      let _ ← target.add k v true t
      Walk.wrote
      copyKeys source target t ks (stale.filter (· ≠ k))
    | none => copyKeys source target t ks stale

/-- Make the target equal to the source. -/
def copyWalk (source target : KeyedStore V α) (t : Token) : Walk V Unit := do
  let stale ← target.collectKeys "target" t
  let listing ← source.listAs "source" t
  let stale ← copyKeys source target t listing.items stale
  Walk.close listing
  Walk.each stale fun k => Walk.removing (target.remove k t)

/-- Add the source's entry under a key unless the target has one. -/
def addMissing (source target : KeyedStore V α) (t : Token) (k : Key) : Walk V Unit := do
  match ← source.get k t with
  | some v => if ← target.add k v false t then Walk.wrote
  | none => pure ()

/-- Add the entries that the target lacks. -/
def differentialWalk (source target : KeyedStore V α) (t : Token) : Walk V Unit := do
  let listing ← source.listAs "source" t
  Walk.each listing.items (addMissing source target t)
  Walk.close listing

/-- Bring the target's entry under a key up to date, or remove it if the source has none. -/
def refreshKey (source target : KeyedStore V α) (t : Token) (k : Key) : Walk V Unit := do
  match ← source.get k t with
  | some v =>
    let _ ← target.add k v true t
    Walk.wrote
  | none => Walk.removing (target.remove k t)

/-- Bring the target's own keys up to date. -/
def intersectionWalk (source target : KeyedStore V α) (t : Token) : Walk V Unit := do
  let keys ← target.collectKeys "target" t
  Walk.each keys (refreshKey source target t)

/-- The three ways to bring a map to a map. -/
inductive Strategy where
  | copy
  | differential
  | intersection
  deriving DecidableEq, Inhabited

namespace Strategy

/-- The word for a strategy. -/
def word : Strategy → String
  | copy => "copy"
  | differential => "differential"
  | intersection => "intersection"

/-- The capabilities a strategy needs: the keys of the source, of the target, or of both. -/
def validate (s : Strategy) (source target : KeyedStore V α) : Action V Unit :=
  match s with
  | copy => do
    source.requireKeys "source"
    target.requireKeys "target"
  | differential => source.requireKeys "source"
  | intersection => target.requireKeys "target"

/-- The walk of a strategy. -/
def walk : Strategy → KeyedStore V α → KeyedStore V α → Token → Walk V Unit
  | copy => copyWalk
  | differential => differentialWalk
  | intersection => intersectionWalk

/-- The synchronizer of a strategy. -/
def synchronizer (s : Strategy) (limit : Nat) : Synchronizer V (KeyedStore V α) where
  name := s.word
  limit := limit
  validate := s.validate
  walk := s.walk

end Strategy

end TwinStore.Converge
