import SignalRoute.Board.Device
import SignalRoute.Graph.Basic
import SignalRoute.Link.Basic
import SignalRoute.Log.Clock
import SignalRoute.Log.Record

/-!
# Reconciling log records

The reconciler turns log records into samples: the clock gives a record its time, the graph knows the
consumer of its logger, the consumer's merge queue joins it with the entries that belong to it, and
the consumer's signal decodes the result.

What happens to a record besides goes into a report: records that nobody knows, and data that nobody
takes any more.

`Reconciler.handle` is one record on its way.  Each of its cases is one fate that a record can have,
and it answers the outcome besides the reports, because a download goes on after most of them while
the user who hands over a single record wants to know.
-/

set_option autoImplicit false

namespace SignalRoute

/-- Something worth telling about a download. -/
inductive Notice where
  /-- How many entries are left, of how many. -/
  | progress (left total : UInt32)
  /-- A record of a logger that nobody knows. -/
  | unknown (logId : UInt8) (time : Instant) (data : Bytes)
  /-- Joined data whose subscriber is gone. -/
  | unhandled (logId : UInt8) (time : Instant) (data : Bytes)
  /-- Bytes that do not form a record. -/
  | malformed (bytes : Bytes)
deriving DecidableEq, Repr, Inhabited

/-- What turns the records of a board into samples. -/
structure Reconciler where
  device : Device
  clock : TickClock
  /-- How many progress notices a download asks for. -/
  progressUpdates : UInt32
deriving Inhabited

namespace Reconciler

def start (device : Device) (tickMs : Float) (progressUpdates : UInt32) : Reconciler :=
  ⟨device, .start tickMs, progressUpdates⟩

/-- The reconciler with its clock changed. -/
def mapClock (r : Reconciler) (f : TickClock → TickClock) : Reconciler :=
  { r with clock := f r.clock }

/-- How wide the counters of a logging module are. -/
def counterWidth (d : Device) : Nat := if d.extendedLogging then 4 else 2

/-- A counter at the start of some bytes. -/
def readCounter (d : Device) (bytes : Bytes) : Except Fault UInt32 :=
  if counterWidth d ≤ bytes.length then
    .ok (readUnsigned (bytes.take (counterWidth d))).toUInt32
  else
    .error (.protocol ("counter needs " ++ toString (counterWidth d) ++ " bytes, got " ++
      spacedHex bytes))

/-! ## Asking the board

Requests of the logging module are read registers without an id, so their answers are recognised by
module and register alone.
-/

/-- The tick and the reset in the answer to a question for the time. -/
def readTime (reply : Bytes) : Except Fault (UInt32 × UInt8) :=
  match reply with
  | _ :: _ :: t0 :: t1 :: t2 :: t3 :: reset :: _ => .ok (word32 t0 t1 t2 t3, reset)
  | _ => .error (.protocol ("short time reply: " ++ spacedHex reply))

/-- Ask for the number of entries in the log. -/
def entryCount (d : Device) : Linked UInt32 := do
  let register := readForm LogReg.length
  let reply ← Link.request [Module.logging, register] (.register Module.logging register)
    "log length"
  match readCounter d (reply.drop 2) with
  | .ok n => return n
  | .error fault => throw fault

/-- Ask for the time of the board. -/
def boardTime : Linked (UInt32 × UInt8) := do
  let register := readForm LogReg.time
  let reply ← Link.request [Module.logging, register] (.register Module.logging register)
    "log time"
  match readTime reply with
  | .ok answer => return answer
  | .error fault => throw fault

/-- Erase the log. -/
def clearEntries : Linked Unit :=
  Link.send [Module.logging, LogReg.removeEntries, 0xff, 0xff, 0xff, 0xff]

/-- Take the time of the board as the reference of its reset.  While the clock is frozen the answer
is not stored. -/
def queryTime (r : Reconciler) (now : Instant) (l : Link) :
    Except Fault TimeReference × Reconciler × Link :=
  match boardTime l with
  | (.error fault, l) => (.error fault, r, l)
  | (.ok (tick, reset), l) =>
    let reference : TimeReference := ⟨reset, tick, now⟩
    (.ok reference, r.mapClock fun c => (c.store reference).2, l)

/-! ## Records -/

/-- What became of a record. -/
structure Handled where
  outcome : Except Fault Unit
  reconciler : Reconciler
  graph : Graph
  notices : List Notice
deriving Inhabited

/-- Decode joined data and deliver it to its consumer. -/
def deliver (r : Reconciler) (g : Graph) (logId : UInt8) (e : LoggerEntry) (joined : Stamped) :
    Handled :=
  match e.signal.decodeAll joined.data with
  | .error fault => ⟨.error fault, r, g, []⟩
  | .ok readings =>
    if g.mail.isOpen e.mailbox then
      ⟨.ok (), r, (g.deliverAll e.mailbox joined.time readings).2, []⟩
    else ⟨.error (.unhandledData logId), r, g, [.unhandled logId joined.time joined.data]⟩

/-- Bring a record to its consumer.  One that was delivered before is passed over. -/
def handle (r : Reconciler) (now : Instant) (g : Graph) (record : LogRecord) : Handled :=
  let (time, clock) := r.clock.tell now record.reset record.tick
  let r := { r with clock := clock }
  match time with
  | .error fault => ⟨.error fault, r, g, []⟩
  | .ok none => ⟨.ok (), r, g, []⟩
  | .ok (some time) =>
    match g.logger? record.logId with
    | none =>
      ⟨.error (.unknownEntry record.logId), r, g, [.unknown record.logId time record.data]⟩
    | some e =>
      let (joined, merge) := e.merge.push record.logId ⟨time, record.data⟩
      let g := g.setMerge record.logId merge
      match joined with
      | none => ⟨.ok (), r, g, []⟩
      | some joined => r.deliver g record.logId e joined

end Reconciler
end SignalRoute
