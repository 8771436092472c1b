/-!
# Measures

What the library counts about itself. A `Measure` is a quantity with its labels; all of them are
running totals but the health of a primary, which is a level. `Measure.title` is the name under
which a measure is reported: its labels are sorted as texts.
-/

namespace TwinStore

/-- How a convergence run ended. -/
inductive RunOutcome where
  | success
  | failure
  | timeout
  deriving DecidableEq

/-- What a cache was doing when it failed. -/
inductive CacheWork where
  | read
  | write
  | backfill
  | seed
  | invalidate
  deriving DecidableEq

/-- The writes a notification may report. -/
inductive NoticeKind where
  | mapAdded
  | mapRemoved
  | setAdded
  | setRemoved
  | setMapAdded
  | setMapRemoved
  deriving DecidableEq

/-- The steps of an outage. -/
inductive EventKind where
  | primaryFailed
  | masterDown
  | masterRecovered
  deriving DecidableEq

/-- A counted quantity. -/
inductive Measure where
  | failoverEvents (engine : String) (event : EventKind)
  | primaryHealthy (engine : String)
  | secondaryErrors (engine : String)
  | runs (synchronizer : String) (outcome : RunOutcome)
  | runTimings (synchronizer : String)
  | itemsWritten (synchronizer : String)
  | itemsRemoved (synchronizer : String)
  | cacheLookups (engine : String) (hit : Bool)
  | cacheErrors (engine : String) (work : CacheWork)
  | cacheSeeded (engine : String)
  | notifications (kind : NoticeKind) (success : Bool)
  | scopeClears (scope : String)
  | scopeRemovedKeys (scope : String)
  deriving DecidableEq

/-- The reported word for an outcome. -/
def RunOutcome.word : RunOutcome → String
  | success => "success"
  | failure => "failure"
  | timeout => "timeout"

/-- The reported word for a cache's work. -/
def CacheWork.word : CacheWork → String
  | read => "read"
  | write => "write"
  | backfill => "backfill"
  | seed => "seed"
  | invalidate => "invalidate"

/-- The reported word for a kind of notification. -/
def NoticeKind.word : NoticeKind → String
  | mapAdded => "map_added"
  | mapRemoved => "map_removed"
  | setAdded => "set_added"
  | setRemoved => "set_removed"
  | setMapAdded => "set_map_added"
  | setMapRemoved => "set_map_removed"

/-- The reported word for a step of an outage. -/
def EventKind.word : EventKind → String
  | primaryFailed => "primary_failed"
  | masterDown => "master_down"
  | masterRecovered => "master_recovered"

namespace Measure

/-- The name of a measure, without its labels. -/
def family : Measure → String
  | failoverEvents .. => "resilience_engine_failover_events_total"
  | primaryHealthy .. => "resilience_engine_primary_healthy"
  | secondaryErrors .. => "resilience_engine_secondary_errors_total"
  | runs .. => "resilience_engine_sync_runs_total"
  | runTimings .. => "resilience_engine_sync_seconds"
  | itemsWritten .. => "resilience_engine_sync_written_total"
  | itemsRemoved .. => "resilience_engine_sync_removed_total"
  | cacheLookups .. => "resilience_engine_cache_lookups_total"
  | cacheErrors .. => "resilience_engine_cache_errors_total"
  | cacheSeeded .. => "resilience_engine_cache_seeded_items_total"
  | notifications .. => "resilience_engine_notifications_total"
  | scopeClears .. => "resilience_engine_scope_clears_total"
  | scopeRemovedKeys .. => "resilience_engine_scope_removed_keys_total"

/-- The labels of a measure. -/
def labels : Measure → List (String × String)
  | failoverEvents e k => [("engine", e), ("event", k.word)]
  | primaryHealthy e => [("engine", e)]
  | secondaryErrors e => [("engine", e)]
  | runs s o => [("synchronizer", s), ("outcome", o.word)]
  | runTimings s => [("synchronizer", s)]
  | itemsWritten s => [("synchronizer", s)]
  | itemsRemoved s => [("synchronizer", s)]
  | cacheLookups e hit => [("engine", e), ("outcome", if hit then "hit" else "miss")]
  | cacheErrors e w => [("engine", e), ("operation", w.word)]
  | cacheSeeded e => [("engine", e)]
  | notifications k ok => [("kind", k.word), ("status", if ok then "success" else "failure")]
  | scopeClears s => [("scope", s)]
  | scopeRemovedKeys s => [("scope", s)]

/-- The reported name: the family and its labels, sorted as texts. -/
def title (m : Measure) : String :=
  let texts := (m.labels.map fun (label, value) => label ++ "=" ++ value).mergeSort
  m.family ++ "\x7b" ++ ",".intercalate texts ++ "\x7d"

end Measure

end TwinStore
