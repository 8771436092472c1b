import TwinStore.Settings
import TwinStore.Text.Json

/-!
# Settings as text

Settings are read from a JSON object, in which every field may be missing and unknown fields are
skipped, or from an array of the fields in order, in which the last ones may be missing. A strategy
is a word, or an object whose one field is that word with an empty value.
-/

namespace TwinStore.Settings

open Text Json

/-- The strategy of a word. -/
def strategyOf (word : String) : Except Flaw Converge.Strategy :=
  match word with
  | "copy" => .ok .copy
  | "differential" => .ok .differential
  | "intersection" => .ok .intersection
  | _ => .error .unfit

/-- Read the word of a strategy. -/
def readWord (text : List Char) : Read Converge.Strategy :=
  (readString text).andThen fun word rest =>
    match strategyOf word with
    | .ok s => .ok (s, rest)
    | .error e => .error e

/-- Read the closing brace after a strategy in an object. -/
def closeStrategy (text : List Char) : Read Unit :=
  match skipBlank text with
  | [] => .error .truncated
  | '\x7d' :: rest => .ok ((), rest)
  | _ => .error .malformed

/-- Read a strategy. -/
def readStrategy (text : List Char) : Read Converge.Strategy :=
  match skipBlank text with
  | [] => .error .truncated
  | '"' :: rest => readWord ('"' :: rest)
  | '\x7b' :: rest =>
    (readWord rest).andThen fun s rest => (readColon rest).andThen fun _ rest =>
      (readNull rest).andThen fun _ rest => (closeStrategy rest).map fun _ => s
  | _ => .error .malformed

/-- The settings found so far. -/
structure Found where
  runLimit : Option Nat := none
  strategy : Option Converge.Strategy := none
  cacheTtl : Option (Option Nat) := none
  cachesWrites : Option Bool := none
  eventCapacity : Option Nat := none

/-- The settings found, and the defaults of the others. -/
def Found.settings (f : Found) : Settings :=
  let defaults : Settings := {}
  { runLimit := f.runLimit.getD defaults.runLimit
    strategy := f.strategy.getD defaults.strategy
    cacheTtl := f.cacheTtl.getD defaults.cacheTtl
    cachesWrites := f.cachesWrites.getD defaults.cachesWrites
    eventCapacity := f.eventCapacity.getD defaults.eventCapacity }

/-- Read the value of a field that must not have been found before. -/
def once {α : Type} (old : Option α) (read : List Char → Read α) (keep : α → Found) :
    Except Flaw (List Char → Read Found) :=
  match old with
  | some _ => .error .unfit
  | none => .ok fun text => (read text).map keep

/-- Read a field of the object. -/
def readField (name : String) (f : Found) : Except Flaw (List Char → Read Found) :=
  match name with
  | "synchronization_timeout_ms" =>
    once f.runLimit (readNat .word64) fun n => { f with runLimit := some n }
  | "map_sync_strategy" => once f.strategy readStrategy fun s => { f with strategy := some s }
  | "cache_ttl_ms" =>
    once f.cacheTtl (readOption (readNat .word64)) fun n => { f with cacheTtl := some n }
  | "mirror_cache_writes" => once f.cachesWrites readBool fun b => { f with cachesWrites := some b }
  | "event_channel_capacity" =>
    once f.eventCapacity (readNat .word64) fun n => { f with eventCapacity := some n }
  | _ => .ok fun text => (skipValue text).map fun _ => f

/-- Read the fields in order, after the opening bracket. -/
def readInOrder (text : List Char) : Read Settings :=
  let defaults : Settings := {}
  (readElement true (.ok defaults.runLimit) (readNat .word64) text).andThen fun runLimit rest =>
  (readElement false (.ok defaults.strategy) readStrategy rest).andThen fun strategy rest =>
  (readElement false (.ok defaults.cacheTtl) (readOption (readNat .word64)) rest).andThen
    fun cacheTtl rest =>
  (readElement false (.ok defaults.cachesWrites) readBool rest).andThen fun cachesWrites rest =>
  (readElement false (.ok defaults.eventCapacity) (readNat .word64) rest).andThen
    fun eventCapacity rest =>
  (closeArray rest).map fun _ => { runLimit, strategy, cacheTtl, cachesWrites, eventCapacity }

/-- Read settings. -/
def read (text : List Char) : Read Settings :=
  match skipBlank text with
  | '\x7b' :: rest => (readObject readField {} rest).map Found.settings
  | '[' :: rest => readInOrder rest
  | other => .error (mismatch other)

/-- The settings that a text gives. -/
def ofText (text : String) : Except Flaw Settings :=
  readAll read text

end TwinStore.Settings
