import SignalRoute.Fault
import SignalRoute.IdTable
import SignalRoute.Log.Instant

/-!
# From ticks to times

The board stamps a log entry with the ticks since its last reset and with the number of that reset.
A tick clock turns both into a time: for each reset it knows one tick at which it was told the time,
and counts from there.

* A tick that is smaller than the one before, within one reset, means that the counter went round.
  The reference then moves on to the new tick, by the ticks that passed in between.
* After an interrupted download the board sends entries again.  `markRollback` remembers the last
  tick of each reset, and `stamp` gives no time to entries up to it.
* A reset about which nothing is known borrows the latest reference, or starts now.
* While a download runs the clock is frozen, and takes no reference.

How long some ticks take is a field of the clock, and so is the calendar, so that what holds of
every clock depends neither on how floats round nor on the last year that can be written; `start`
gives a board's clock.  `stamp` counts without end, and `tell` faults where the calendar ends.

A mark is one tick for each reset, and it is compared with the tick of an entry, not with its place
in the log.  Entries that the board wrote within one tick cannot be told apart by it.
-/

set_option autoImplicit false

namespace SignalRoute

/-- A tick at which the time is known. -/
structure TimeReference where
  reset : UInt8
  tick : UInt32
  time : Instant
deriving DecidableEq, Repr, Inhabited

/-- What is known about the ticks of the board. -/
structure TickClock where
  /-- How long some ticks take, in microseconds. -/
  span : Int64 → Int
  /-- The times that can be told. -/
  calendar : Instant → Bool
  references : IdTable TimeReference
  /-- The reset of the reference that was stored last. -/
  latest : Option UInt8
  /-- The last tick of each reset that was given a time. -/
  lastTicks : IdTable UInt32
  /-- The ticks up to which entries have been delivered before. -/
  marks : IdTable UInt32
  frozen : Bool
deriving Inhabited

namespace TickClock

/-- How long some ticks take, if one takes `tickMs` milliseconds. -/
def spanOf (tickMs : Float) (ticks : Int64) : Int :=
  microseconds (ticks.toFloat * tickMs * 1000)

/-- A clock that knows nothing but how long `tickMs` makes some ticks. -/
def start (tickMs : Float) : TickClock :=
  ⟨spanOf tickMs, Instant.inCalendar, .empty, none, .empty, .empty, false⟩

/-- Store a reference; answers whether it was taken. -/
def store (c : TickClock) (r : TimeReference) : Bool × TickClock :=
  if c.frozen then (false, c)
  else (true, { c with references := c.references.insert r.reset r, latest := some r.reset })

def reference? (c : TickClock) (reset : UInt8) : Option TimeReference := c.references.find? reset

def latest? (c : TickClock) : Option TimeReference := c.latest.bind c.references.find?

def freeze (c : TickClock) : TickClock := { c with frozen := true }

def thaw (c : TickClock) : TickClock := { c with frozen := false }

def mark? (c : TickClock) (reset : UInt8) : Option UInt32 := c.marks.find? reset

/-- Has an entry been delivered before? -/
def isReplay (c : TickClock) (reset : UInt8) (tick : UInt32) : Bool :=
  match c.marks.find? reset with
  | some mark => tick ≤ mark
  | none => false

/-- The reference from which an entry's time is counted. -/
def basis (c : TickClock) (now : Instant) (reset : UInt8) (tick : UInt32) : TimeReference :=
  match c.references.find? reset with
  | some r => r
  | none =>
    match c.latest? with
    | some r => { r with reset := reset }
    | none => ⟨reset, tick, now⟩

/-- How many ticks lie between the tick of a reference and a smaller tick that came after `last`. -/
def rewound (r : TimeReference) (last tick : UInt32) : Int64 :=
  ((tick - last).toUInt64 + (last - r.tick).toUInt64).toInt64

/-- The time of an entry, or none if it has been delivered before. -/
def stamp (c : TickClock) (now : Instant) (reset : UInt8) (tick : UInt32) :
    Option Instant × TickClock :=
  if c.isReplay reset tick then (none, c)
  else
    let r := c.basis now reset tick
    let seen := { c with lastTicks := c.lastTicks.insert reset tick }
    let counted : Option Instant × TickClock :=
      (some (r.time + c.span (Int64.ofNat tick.toNat - Int64.ofNat r.tick.toNat)),
        { seen with references := c.references.insert reset r })
    match c.lastTicks.find? reset with
    | some last =>
      if tick < last then
        let time := r.time + c.span (rewound r last tick)
        (some time,
          { seen with
            references := c.references.insert reset ⟨r.reset, tick, time⟩
            marks := c.marks.modify reset fun _ => tick })
      else counted
    | none => counted

/-- The time of an entry, or none if it has been delivered before, or a fault if the calendar does
not have it. -/
def tell (c : TickClock) (now : Instant) (reset : UInt8) (tick : UInt32) :
    Except Fault (Option Instant) × TickClock :=
  match c.stamp now reset tick with
  | (some time, c) => (if c.calendar time then .ok (some time) else .error .overrun, c)
  | (none, c) => (.ok none, c)

/-- Remember the last ticks, so that a download that starts over skips what was delivered. -/
def markRollback (c : TickClock) : TickClock := { c with marks := c.lastTicks }

def clearRollback (c : TickClock) : TickClock := { c with marks := .empty }

end TickClock
end SignalRoute
