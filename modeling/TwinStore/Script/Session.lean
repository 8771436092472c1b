import TwinStore.Script.Registry
import TwinStore.World.Schedule

/-!
# Sessions

A `Session` is a script half way: the world, and the things that have been made in it so far.
-/

namespace TwinStore

variable {V : Type}

/-- A script half way. -/
structure Session (V : Type) where
  world : World V := {}
  registry : Registry V := {}

/-- What a base store holds. -/
inductive Contents (V : Type) where
  | entries (entries : List (Key × V))
  | sets (sets : List (Key × List String))
  | members (members : List String)
  | items (items : List V)

/-- What a base store holds. -/
def World.contents (w : World V) : Site → Contents V
  | .map i => .entries ((w.maps.nth i).content.entries w.clock)
  | .setMap i =>
    .sets (((w.setMaps.nth i).content.entries w.clock).map fun (k, members) => (k, members.toList))
  | .set i => .members (w.sets.nth i).content.toList
  | .queue i => .items (w.queues.nth i).content

/-- What every base store with a name holds. -/
def Session.contents (s : Session V) : List (String × Contents V) :=
  s.registry.named.filterMap fun (name, thing) =>
    match thing.object with
    | .base site => some (name, s.world.contents site)
    | _ => none

end TwinStore
