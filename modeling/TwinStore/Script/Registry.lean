import TwinStore.Script.Object

/-!
# Registries

A `Registry` holds the things a script has made, numbered in the order in which they were made, and
the names by which they can be reached. A thing is in use as long as it has a name, a call in
progress is about it, or a thing in use keeps it (`Registry.inUse`). Maps take part in their scopes
only while they are in use.
-/

namespace TwinStore

variable {V : Type}

/-- The things of a script and their names. -/
structure Registry (V : Type) where
  /-- The shape of the keys of the script's maps. -/
  keyShape : Shape := .text
  things : List (Thing V) := []
  names : Std.ExtTreeMap String Nat := ∅
  /-- The callers of the calls in progress, and the numbers of the things their calls are about. -/
  calls : List (Nat × List Nat) := []

namespace Registry

/-! ## Finding things -/

/-- The thing of a name, with its number. -/
def find? (s : Registry V) (name : String) : Option (Nat × Thing V) := do
  let number ← s.names[name]?
  let thing ← s.things[number]?
  return (number, thing)

/-- The number the next thing will have. -/
def nextNumber (s : Registry V) : Nat := s.things.length

/-- Keep a thing under a name. -/
def keep (s : Registry V) (name : String) (thing : Thing V) : Registry V :=
  { s with things := s.things ++ [thing], names := s.names.insert name s.nextNumber }

/-- Give a name up; the answer says whether it was one. -/
def drop (s : Registry V) (name : String) : Bool × Registry V :=
  (s.names.contains name, { s with names := s.names.erase name })

/-- The name a thing was made under. -/
def titleOf (s : Registry V) (number : Nat) : String :=
  (s.things[number]?.map (·.title)).getD ""

/-- The things of names, in the order of the names. -/
def named (s : Registry V) : List (String × Thing V) :=
  s.names.toList.filterMap fun (name, number) => s.things[number]?.map (name, ·)

/-- The numbers of the things of some names. -/
def numbersOf (s : Registry V) (names : List String) : List Nat :=
  names.filterMap fun name => s.names[name]?

/-! ## Calls in progress -/

/-- A call begins, about the things of some numbers. -/
def beginCall (s : Registry V) (caller : Nat) (about : List Nat) : Registry V :=
  { s with calls := (caller, about) :: s.calls }

/-- A call ends. -/
def endCall (s : Registry V) (caller : Nat) : Registry V :=
  { s with calls := s.calls.filter (·.1 ≠ caller) }

/-! ## Things in use -/

/-- The numbers of the things in use. Things keep only what was made before them. -/
def inUse (s : Registry V) : List Nat :=
  s.things.zipIdx.reverse.foldl
    (fun used (thing, number) => if used.contains number then thing.uses ++ used else used)
    (s.names.values ++ s.calls.flatMap (·.2))

/-- The maps that take part in the scope of a number. -/
def participants (s : Registry V) (scope : Nat) : List (Participant V) :=
  let used := s.inUse
  s.things.zipIdx.filterMap fun (thing, number) =>
    if used.contains number then
      (thing.object.participant? scope).map fun p =>
        { p with takesPart := Prog.request (.isInUse number) }
    else none

/-- The numbers of the things that are not in use any more. -/
def released (s : Registry V) : List Nat :=
  let used := s.inUse
  (List.range s.things.length).filter fun number => !used.contains number

end Registry

end TwinStore
