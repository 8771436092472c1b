import TwinStore.World.State
import TwinStore.World.Fault

/-!
# Traces

The trace of a step is the list of the calls that reached base stores, in order. Where a program
goes through a set, the order of its calls is nobody's choice: `TraceEntry.arrange` puts every run
of such calls of one kind into the order of what they name.
-/

namespace TwinStore

variable {V : Type}

/-- One of the things a call names. -/
inductive Argument (V : Type) where
  | key (k : Key)
  | member (x : String)
  | value (v : V)
  | flag (b : Bool)
  | time (milliseconds : Nat)

/-- What an operation of a set names. -/
def SetOp.arguments : SetOp → List (Argument V)
  | add x => [.member x]
  | remove x => [.member x]
  | members => []
  | contains x => [.member x]
  | count => []

/-- What a call names. The instant of an expiry is not recorded. -/
def Call.arguments : Call V → List (Argument V)
  | .map _ op =>
    match op with
    | .add k v overwrite => [.key k, .value v, .flag overwrite]
    | .get k => [.key k]
    | .remove k => [.key k]
    | .contains k => [.key k]
    | .keys => []
    | .expire k ttl => [.key k, .time ttl]
    | .expireAt k _ => [.key k]
  | .set _ op => op.arguments
  | .setMap _ op =>
    match op with
    | .add k overwrite => [.key k, .flag overwrite]
    | .get k => [.key k]
    | .remove k => [.key k]
    | .contains k => [.key k]
    | .keys => []
    | .reach k => [.key k]
    | .expire k ttl => [.key k, .time ttl]
    | .expireAt k _ => [.key k]
    | .member k op => .key k :: op.arguments
  | .queue _ op =>
    match op with
    | .enqueue v => [.value v]
    | .dequeue => []
    | .count => []
    | .take => []

/-- What the place of a call among others of its kind goes by, if order is nobody's choice. -/
def Call.rank? : Call V → Option (List Key)
  | .map _ (.remove k) => some [k]
  | .set _ (.add x) => some [.text x]
  | .set _ (.remove x) => some [.text x]
  | .setMap _ (.remove k) => some [k]
  | .setMap _ (.member k (.add x)) => some [k, .text x]
  | .setMap _ (.member k (.remove x)) => some [k, .text x]
  | _ => none

/-- How a call fared: failed, rejected, and whether its caller had cancelled. -/
def Visit.marks (v : Visit V) : String :=
  (if v.isFailed then "!" else "") ++ (if v.isRejected then "-" else "") ++
    (if v.isCancelled then "~" else "")

/-- A call that reached a base store, with the name of the store. -/
structure TraceEntry (V : Type) where
  store : String
  visit : Visit V

namespace TraceEntry

/-- Two calls by one name to stores of one name that fared alike, and whose order is nobody's
choice. -/
def isAlike (a b : TraceEntry V) : Bool :=
  a.visit.call.rank?.isSome && b.visit.call.rank?.isSome && a.store == b.store &&
    a.visit.call.method == b.visit.call.method && a.visit.marks == b.visit.marks

/-- Whether a call may stand before another of its kind. -/
def isBefore (a b : TraceEntry V) : Bool :=
  (compare (a.visit.call.rank?.getD []) (b.visit.call.rank?.getD [])).isLE

/-- The trace with each run of calls of one kind in order. -/
def arrange (trace : List (TraceEntry V)) : List (TraceEntry V) :=
  (trace.splitBy isAlike).flatMap fun run => run.mergeSort isBefore

end TraceEntry

end TwinStore
