import SignalRoute.Bytes
import SignalRoute.Log.Instant

/-!
# Joining log entries

A signal wider than a log entry is logged by several loggers, each of which stores its own bytes.
A merge queue has a lane per logger, in the order in which their bytes are joined.  An entry waits in
its lane until every lane has one; then the first of each lane are joined, under the time of the
first lane's.

An entry finds its lane by the id of its logger and its partners by its place in the lane.  Nothing
in an entry says which sample it belongs to: if one entry of a sample is lost, all later ones are
joined with the wrong partners, until the queue is emptied.
-/

set_option autoImplicit false

namespace SignalRoute

/-- Some bytes with a time. -/
structure Stamped where
  time : Instant
  data : Bytes
deriving DecidableEq, Repr, Inhabited

/-- The entries of one logger that wait for the others. -/
structure Lane where
  id : UInt8
  waiting : List Stamped
deriving DecidableEq, Repr, Inhabited

/-- The loggers of one signal. -/
structure MergeQueue where
  lanes : List Lane
deriving DecidableEq, Repr, Inhabited

namespace MergeQueue

def ofIds (ids : List UInt8) : MergeQueue := ⟨ids.map fun id => ⟨id, []⟩⟩

def ids (q : MergeQueue) : List UInt8 := q.lanes.map Lane.id

def contains (q : MergeQueue) (id : UInt8) : Bool := q.ids.contains id

/-- How many entries wait. -/
def pending (q : MergeQueue) : Nat := sumCounts (q.lanes.map fun l => l.waiting.length)

def clear (q : MergeQueue) : MergeQueue := ⟨q.lanes.map fun l => { l with waiting := [] }⟩

/-- The lanes with an entry at the end of the first one that has its id. -/
def enqueue (id : UInt8) (entry : Stamped) : List Lane → List Lane
  | [] => []
  | lane :: rest =>
    if lane.id = id then { lane with waiting := lane.waiting ++ [entry] } :: rest
    else lane :: enqueue id entry rest

/-- The first entries of all lanes, if each has one. -/
def heads? : List Lane → Option (List Stamped)
  | [] => some []
  | lane :: rest =>
    match lane.waiting, heads? rest with
    | entry :: _, some others => some (entry :: others)
    | _, _ => none

/-- The lanes without their first entries. -/
def tails (lanes : List Lane) : List Lane :=
  lanes.map fun l => { l with waiting := l.waiting.tail }

/-- Entries joined into one, under the time of the first. -/
def join : List Stamped → Option Stamped
  | [] => none
  | entry :: rest => some ⟨entry.time, (entry :: rest).flatMap Stamped.data⟩

/-- Add an entry; answers the joined bytes if it was the last that was missing.  An entry of a logger
that has no lane is lost. -/
def push (q : MergeQueue) (id : UInt8) (entry : Stamped) : Option Stamped × MergeQueue :=
  if q.contains id then
    let lanes := enqueue id entry q.lanes
    match heads? lanes with
    | some entries => (join entries, ⟨tails lanes⟩)
    | none => (none, ⟨lanes⟩)
  else (none, q)

end MergeQueue
end SignalRoute
