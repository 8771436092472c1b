/-!
# Store errors

Every operation of a store either answers or fails with one of five causes. `StoreError.message`
is the text shown to a person, and `StoreError.sources` lists the causes beneath an error, nearest
first.
-/

namespace TwinStore

/-- Why an operation of a store failed. -/
inductive StoreError where
  /-- The store itself failed. -/
  | backend (message : String)
  /-- A store playing `role` lacks an optional capability that the operation needs. -/
  | missingCapability (role capability : String)
  /-- The caller's argument is unusable. -/
  | invalidArgument (message : String)
  /-- Bringing the primary up to date failed. -/
  | resync (cause : StoreError)
  /-- A key could not be written as text, or read back from it. -/
  | serialization (message : String)
  deriving DecidableEq, Inhabited

namespace StoreError

/-- The text shown to a person. -/
def message : StoreError → String
  | backend m => "Storage backend error: " ++ m
  | missingCapability role capability => role ++ " handle does not implement " ++ capability
  | invalidArgument m => "Invalid argument: " ++ m
  | resync cause => "Resynchronization failed: " ++ cause.message
  | serialization m => "Serialization error: " ++ m

/-- Only a failure of the store itself may go away by trying again. -/
def isTransient : StoreError → Bool
  | backend _ => true
  | _ => false

/-- The causes beneath an error, nearest first. -/
def sources : StoreError → List StoreError
  | resync cause => cause :: cause.sources
  | _ => []

end StoreError

end TwinStore
