import TwinStore.Converge.Run

/-!
# Bringing a set to a set

`overwriteWalk` makes the target hold exactly the source's members. Members that only the target has
go first, then every member of the source is added, so that no member of the source is ever removed.
-/

namespace TwinStore.Converge

variable {V : Type}

/-- Make the target hold the source's members. -/
def overwriteWalk (source target : SetStore V) (t : Token) : Walk V Unit := do
  let wanted ← source.collect t
  let present ← target.collect t
  Walk.each (present.filter fun x => !wanted.contains x) fun x => Walk.removing (target.remove x t)
  Walk.each wanted.eraseDups fun x => do
    target.add x t
    Walk.wrote

/-- Overwriting a set needs no capability. -/
def overwriteSet (limit : Nat) : Synchronizer V (SetStore V) where
  name := "overwrite_set"
  limit := limit
  validate _ _ := pure ()
  walk := overwriteWalk

end TwinStore.Converge
