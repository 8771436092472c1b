import TwinStore.Script.Plan

/-!
# Calling things

A `Verb` is what a script asks of one thing. Which things understand a verb depends on what they can
be used as; `Registry.task?` is none for a thing that does not. A verb is carried out by an action,
or at once when it only looks at the world.
-/

namespace TwinStore

variable {V : Type}

/-! ## Verbs -/

/-- How an engine asks its stores. -/
inductive Template where
  | fallback
  | replicate
  | backup
  deriving DecidableEq

/-- Where the members of a whole set come from. -/
inductive SetSource where
  | members (members : List String)
  | named (name : String)

/-- A look at the contents of a base store, or a change of them, past everything around them. -/
inductive Peek where
  | count
  | isEmpty
  | value (key : Key)
  | purge
  | clear
  | members
  | membersUnder (key : Key)
  | items

/-- What a script asks of a thing. -/
inductive Verb (V : Type) where
  | addEntry (key : Key) (value : V) (overwrite : Bool)
  | addSet (key : Key) (source : SetSource) (overwrite : Bool)
  | addMember (member : String)
  | get (key : Key)
  | reach (key : Key)
  | removeKey (key : Key)
  | removeMember (member : String)
  | containsKey (key : Key)
  | containsMember (member : String)
  | keys
  | grants
  | expire (key : Key) (ttl : Nat)
  | expireAt (key : Key) (instant : Nat)
  | touch (key : Key) (ttl : Nat)
  | members
  | count
  | enqueue (item : V)
  | dequeue
  | take
  | engineName
  | health
  | resync (direction : Direction)
  | subscribe
  | watch
  | drain
  | look
  | askMap (template : Template) (op : MapOp V)
  | askSet (template : Template) (op : SetOp)
  | refresh
  | ttl
  | isResolved
  | identifier
  | registered
  | addKey (mapId raw : String)
  | forgetKey (mapId raw : String)
  | clear
  | mapId
  | scopeIdentifier
  | peek (p : Peek)

/-! ## Answers -/

/-- What comes of a step. -/
inductive Reply (V : Type) where
  | done
  | truth (b : Bool)
  | number (n : Nat)
  | word (s : String)
  | value (v : Option V)
  | keys (ks : List Key)
  | words (ss : List String)
  | items (vs : List V)
  /-- Whether there is a set. -/
  | set (isPresent : Bool)
  | unsupported
  | report (name : Option String) (r : Report)
  /-- The name of a synchronizer that may run. -/
  | valid (name : String)
  | health (h : Health)
  | grants (g : Grants)
  | ttl (milliseconds : Option Nat)
  | readings (rs : List Reading)
  | look (hasChanged : Bool) (h : Health)
  | contents (stores : List (String × Contents V))
  | all (replies : List (Reply V))
  | failed (cause : StoreError)
  /-- The call waited for ever. -/
  | blocked
  /-- The step does not fit the things that there are. -/
  | misfit

/-- An object that is handed out, and the numbers of the things it keeps in use. -/
structure Handout (V : Type) where
  object : Object V
  uses : List Nat := []

/-- What comes of a call: a reply and, it may be, an object handed out. -/
structure Outcome (V : Type) where
  reply : Reply V
  given : Option (Handout V) := none

/-- How a call is carried out for a caller. -/
abbrev Task (V : Type) := Token → World V → Action V (Outcome V) × World V

namespace Task

variable {α : Type}

/-- Carry out an action, and say what its result means. -/
def act (reply : α → Reply V) (a : Token → Action V α) : Task V :=
  fun t w => ((fun x => { reply := reply x }) <$> a t, w)

/-- Find the way to the set under a key of a map of sets and hand the set out, if there is one;
`lends` says what it keeps in use. -/
def lend (m : SetMapStore V) (k : Key) (lends : Route → List Nat)
    (find : Token → Action V (Option Route)) : Task V :=
  let handOut (route : Route) : Handout V :=
    { object := .set (m.follow k route), uses := lends route }
  let outcome (found : Option Route) : Outcome V :=
    { reply := .set found.isSome, given := found.map handOut }
  fun t w => (outcome <$> find t, w)

/-- Look at the world at once. -/
def now (look : World V → Reply V × World V) : Task V :=
  fun _ w =>
    let (reply, w) := look w
    (pure { reply }, w)

/-- Make a reader of something at once. -/
def reader (make : World V → Nat × World V) (object : Nat → Object V) : Task V :=
  fun _ w =>
    let (number, w) := make w
    (pure { reply := .done, given := some { object := object number } }, w)

/-- Say something that needs no looking. -/
def say (reply : Reply V) : Task V :=
  now fun w => (reply, w)

end Task

/-! ## Engines asked directly -/

namespace Template

variable {H α : Type}

/-- Ask for something of which it can be told whether it was accepted. -/
def ask [WriteOutcome α] (template : Template) (e : Engine V H) (op : H → Token → Action V α)
    (t : Token) : Action V α :=
  match template with
  | fallback => e.fallback (op · t)
  | replicate => e.replicate (op · t)
  | backup => e.backup (op · t)

/-- Ask for something else, of which there is no backup. -/
def askOnly? (template : Template) (e : Engine V H) (op : H → Token → Action V α) :
    Option (Token → Action V α) :=
  match template with
  | fallback => some fun t => e.fallback (op · t)
  | replicate => some fun t => e.replicate (op · t)
  | backup => none

/-- Ask a pair of maps. -/
def askMap? (template : Template) (e : Engine V (MapStore V)) : MapOp V → Option (Task V)
  | .add k v overwrite => some (.act .truth (template.ask e fun m => m.add k v overwrite))
  | .remove k => some (.act .truth (template.ask e fun m => m.remove k))
  | .contains k => some (.act .truth (template.ask e fun m => m.contains k))
  | .get k => (template.askOnly? e fun m => m.get k).map (.act .value)
  | _ => none

/-- Ask a pair of sets. -/
def askSet? (template : Template) (e : Engine V (SetStore V)) : SetOp → Option (Task V)
  | .add x => some (.act (fun _ => .done) (template.ask e fun s => s.add x))
  | .remove x => some (.act .truth (template.ask e fun s => s.remove x))
  | .contains x => some (.act .truth (template.ask e fun s => s.contains x))
  | .count => (template.askOnly? e fun s => s.count).map (.act .number)
  | .members => none

end Template

/-! ## Looks at base stores -/

/-- Look at a base store, or change it, past everything around it. -/
def World.peek? (w : World V) : Site → Peek → Option (Reply V × World V)
  | .map i, p =>
    let b := w.maps.nth i
    let put (content : EntryMap V) : World V := { w with maps := w.maps.put i { b with content } }
    match p with
    | .count => some (.number (b.content.size w.clock), w)
    | .isEmpty => some (.truth (b.content.size w.clock = 0), w)
    | .value k =>
      let (v, content) := b.content.get w.clock k
      some (.value v, put content)
    | .purge =>
      let (n, content) := b.content.purge w.clock
      some (.number n, put content)
    | .clear => some (.done, put {})
    | _ => none
  | .set i, p =>
    let content := (w.sets.nth i).content
    match p with
    | .count => some (.number content.size, w)
    | .isEmpty => some (.truth content.isEmpty, w)
    | .members => some (.words content.toList, w)
    | _ => none
  | .setMap i, p =>
    let b := w.setMaps.nth i
    match p with
    | .count => some (.number (b.content.size w.clock), w)
    | .isEmpty => some (.truth (b.content.size w.clock = 0), w)
    | .membersUnder k =>
      let (xs, content) := MemberMap.members b.content w.clock k
      some (.words xs, { w with setMaps := w.setMaps.put i { b with content } })
    | _ => none
  | .queue i, p =>
    let items := (w.queues.nth i).content
    match p with
    | .count => some (.number items.length, w)
    | .isEmpty => some (.truth items.isEmpty, w)
    | .items => some (.items items, w)
    | _ => none

namespace Registry

/-! ## Verbs as tasks -/

/-- Carry out an action if something is granted. -/
def ifGranted (granted : Prog V Bool) (a : Action V Bool) : Action V (Reply V) := do
  if ← granted then return .truth (← a) else return .unsupported

/-- The keys of a store in order, if it can list them. -/
def listKeys {α : Type} (m : KeyedStore V α) (t : Token) : Action V (Reply V) := do
  if ← m.canList then
    return .keys ((← (← m.keys t).collect).mergeSort fun a b => (compare a b).isLE)
  else return .unsupported

/-- A whole set to be stored. -/
def sourceSet? (s : Registry V) : SetSource → Option (SetStore V)
  | .members members => some (.ofMembers (Std.ExtTreeSet.ofList members))
  | .named name => (s.set? name).map (·.2)

/-- A verb of stores, as a task; `lends` says what the sets that are handed out keep in use. -/
def storeTask? (s : Registry V) (o : Object V) (lends : Route → List Nat) :
    Verb V → Option (Task V)
  | .addEntry k v overwrite => do
    let m ← o.asMap?
    return .act .truth (m.add k v overwrite)
  | .addSet k source overwrite => do
    let m ← o.asSetMap?
    return .act .truth (m.add k (← s.sourceSet? source) overwrite)
  | .addMember x => o.asSet?.map fun s => .act (fun _ => .done) (s.add x)
  | .get k =>
    match o.asMap?, o.asSetMap? with
    | some m, _ => some (.act .value (m.get k))
    | none, some m => some (.lend m k lends (m.find k))
    | none, none => none
  | .reach k => o.asSetMap?.map fun m => .lend m k lends fun t => some <$> m.route k t
  | .removeKey k => o.throughKeys? fun m => .act .truth (m.remove k)
  | .removeMember x => o.asSet?.map fun s => .act .truth (s.remove x)
  | .containsKey k => o.throughKeys? fun m => .act .truth (m.contains k)
  | .containsMember x => o.asSet?.map fun s => .act .truth (s.contains x)
  | .keys => o.throughKeys? fun m => .act id (listKeys m)
  | .grants => o.throughKeys? fun m => .act .grants fun _ => do
    return { keys := ← m.canList, expiry := ← m.canExpire }
  | .expire k ttl =>
    o.throughKeys? fun m => .act id fun t => ifGranted m.canExpire (m.expire k ttl t)
  | .expireAt k instant =>
    o.throughKeys? fun m => .act id fun t => ifGranted m.canExpire (m.expireAt k instant t)
  | .touch k ttl => o.throughKeys? fun m => .act .truth (m.touch k ttl)
  | .members => o.asSet?.map fun s => .act (fun xs => .words xs.mergeSort) s.collect
  | .enqueue v => o.asQueue?.map fun q => .act (fun _ => .done) (q.enqueue v)
  | .dequeue => o.asQueue?.map fun q => .act .value q.dequeue
  | .take => o.asBlockingQueue?.map fun q => .act .value q.take
  | .count =>
    match o, o.asSet?, o.asQueue? with
    | .scope scope, _, _ => some (.act .number scope.count)
    | _, some s, _ => some (.act .number s.count)
    | _, none, some q => some (.act .number q.count)
    | _, none, none => none
  | .peek p =>
    match o with
    | .base site => some (.now fun w => (w.peek? site p).getD (.misfit, w))
    | _ => none
  | _ => none

/-- A verb of pairs and caches, as a task. -/
def pairTask? (o : Object V) : Verb V → Option (Task V)
  | .engineName =>
    match o, o.engine? with
    | .cacheMap c, _ => some (.say (.word c.tier.name))
    | .cacheSet c, _ => some (.say (.word c.tier.name))
    | _, some e => some (.say (.word e.name))
    | _, none => none
  | .health => o.engine?.map fun e => .act .health fun _ => e.health
  | .resync direction => o.engine?.map fun e => .act (.report none) (e.resync direction)
  | .subscribe => o.engine?.map fun e => .reader (·.subscribe e.core) .receiver
  | .watch => o.engine?.map fun e => .reader (·.watch e.core) .watcher
  | .drain =>
    match o with
    | .receiver n => some (.now fun w => let (rs, w) := w.drain n; (.readings rs, w))
    | _ => none
  | .look =>
    match o with
    | .watcher n => some (.now fun w => let ((changed, h), w) := w.look n; (.look changed h, w))
    | _ => none
  | .askMap template op =>
    match o with
    | .mapEngine e => template.askMap? e op
    | _ => none
  | .askSet template op =>
    match o with
    | .setEngine e => template.askSet? e op
    | _ => none
  | .refresh =>
    match o with
    | .cacheMap c => some (.act (.report none) c.tier.refresh)
    | .cacheSet c => some (.act (.report none) c.tier.refresh)
    | _ => none
  | .ttl =>
    match o with
    | .cacheMap c => some (.say (.ttl c.ttl))
    | .onDemandSetMap m => some (.say (.ttl m.ttl))
    | _ => none
  | .isResolved =>
    match o with
    | .lazySet s => some (.now fun w => (.truth (w.cells.nth s.cell).isSome, w))
    | _ => none
  | _ => none

/-- A verb of scopes and of the maps that take part in them, as a task. -/
def scopeTask? (s : Registry V) (number : Nat) (o : Object V) (verb : Verb V) : Option (Task V) :=
  match o, verb with
  | .scope scope, .identifier => some (.say (.word scope.identifier))
  | .scope _, .registered =>
    some (.say (.words ((s.participants number).map (·.mapId)).mergeSort))
  | .scope scope, .addKey mapId raw => some (.act (fun _ => .done) (scope.addKey mapId raw))
  | .scope scope, .forgetKey mapId raw => some (.act .truth (scope.removeKey mapId raw))
  | .scope scope, .clear => some (.act .number (scope.clear (s.participants number)))
  | .scopedMap _ e _, .mapId => some (.say (.word e.mapId))
  | .scopedSetMap _ e _, .mapId => some (.say (.word e.mapId))
  | .scopedMap _ e _, .scopeIdentifier => some (.say (.word e.scope.identifier))
  | _, _ => none

/-- A verb to a thing, as a task; none if the thing does not understand it. -/
def task? (s : Registry V) (number : Nat) (thing : Thing V) (verb : Verb V) : Option (Task V) :=
  s.storeTask? thing.object thing.lends verb <|> pairTask? thing.object verb <|>
    s.scopeTask? number thing.object verb

/-! ## Synchronizers run once -/

/-- Something to do with a synchronizer and two stores of its kind. -/
abbrev SyncUse (V : Type) := {H : Type} → Synchronizer V H → H → H → Task V

/-- Use a synchronizer on two things; none if they are not of its kind. -/
def syncTask? (s : Registry V) (sync : SyncPlan) (source target : String) (use : SyncUse V) :
    Option (Task V) := do
  let (_, source) ← s.find? source
  let (_, target) ← s.find? target
  let source := source.object
  let target := target.object
  maps source target <|> setMaps source target <|> sets source target <|> queues source target
where
  maps (source target : Object V) : Option (Task V) := do
    return use (← sync.forEntries?) (← source.asMap?) (← target.asMap?)
  setMaps (source target : Object V) : Option (Task V) := do
    return use (← sync.forEntries?) (← source.asSetMap?).toKeyedStore
      (← target.asSetMap?).toKeyedStore
  sets (source target : Object V) : Option (Task V) := do
    return use (← sync.forMembers?) (← source.asSet?) (← target.asSet?)
  queues (source target : Object V) : Option (Task V) := do
    return use (← sync.forItems?) (← source.asQueue?) (← target.asQueue?)

/-- Run a synchronizer. -/
def runSync : SyncUse V := fun sync source target =>
  .act (.report (some sync.name)) (sync.run source target)

/-- Only see whether a synchronizer may run. -/
def checkSync : SyncUse V := fun sync source target =>
  .act (fun _ => .valid sync.name) fun _ => sync.validate source target

end Registry

end TwinStore
