import SignalRoute.Log.Reconcile

/-!
# Downloading the log

A download asks for the number of entries, switches the notices of the readout on, starts it and
then reads frame by frame, until the board reports that nothing is left.  Frames that have nothing
to do with the readout are kept and given back to the link in the end.

However a download ends, the notices are switched off again if the link still works, and the clock
takes references again.  If it ended with a lost connection, the ticks seen so far are marked, and
the next download passes over the entries that the board sends again.

The parts are `Downloading` operations, which stop at the first fault; `download` puts them into a
frame that does not stop.  What has to happen in any case stands there, after the outcome of
`Downloading.readOut` is known, and so it can be read off one definition.

The loop over frames (`Downloading.readFrames`) runs on a number that no run can use up: every frame
that is read was there when the loop began, or is made of it by a command that the loop itself
sends.
-/

set_option autoImplicit false

namespace SignalRoute

/-- A download under way. -/
structure Download where
  link : Link
  graph : Graph
  reconciler : Reconciler
  /-- What there is to report, oldest first. -/
  notices : List Notice
  /-- Frames for others. -/
  parked : List Bytes
deriving Inhabited

/-- A part of a download. -/
abbrev Downloading := ExceptT Fault (StateM Download)

namespace Downloading

/-- Use the link. -/
def onLink {α : Type} (op : Linked α) : Downloading α := fun d =>
  match op d.link with
  | (outcome, link) => (outcome, { d with link := link })

/-- Report something. -/
def note (notices : List Notice) : Downloading Unit :=
  modify fun d => { d with notices := d.notices ++ notices }

/-- Keep a frame for others. -/
def park (frame : Bytes) : Downloading Unit :=
  modify fun d => { d with parked := d.parked ++ [frame] }

/-- The command that starts a readout. -/
def readoutCommand (entries every : UInt32) : Bytes :=
  [Module.logging, LogReg.readout] ++ leBytes 4 entries.toUInt64 ++ leBytes 4 every.toUInt64

/-- How many entries lie between two progress notices, if there are to be `updates` of them. -/
def progressInterval (entries updates : UInt32) : UInt32 :=
  if updates = 0 then 0 else max (entries / updates) 1

/-- Switch the notices of a readout on or off. -/
def setNotices (extended : Bool) (on : Bool) : Linked Unit := do
  let flag : UInt8 := if on then 1 else 0
  Link.send [Module.logging, LogReg.readoutNotify, flag]
  Link.send [Module.logging, LogReg.readoutProgress, flag]
  if extended then Link.send [Module.logging, LogReg.pageCompleted, flag]

/-- The next frame; it must come. -/
def nextFrame : Linked Bytes := do
  match ← Link.tryNext with
  | some frame => return frame
  | none => throw (.timeout "log readout" (← get).timeoutMs)

/-- Bring the bytes of one record to their consumer.  What becomes of the record does not stop the
download, unless its time cannot be told. -/
def takeRecord (now : Instant) (bytes : Bytes) : Downloading Unit := do
  match LogRecord.parse bytes with
  | .error _ => note [.malformed bytes]
  | .ok record =>
    let d ← get
    let handled := d.reconciler.handle now d.graph record
    set { d with
      reconciler := handled.reconciler
      graph := handled.graph
      notices := d.notices ++ handled.notices }
    match handled.outcome with
    | .error .overrun => throw .overrun
    | _ => return ()

/-- What a frame was to the download. -/
inductive Progress where
  | more
  | done
deriving DecidableEq, Repr, Inhabited

/-- Take a frame of the logging module. -/
def takeLogFrame (now : Instant) (total : UInt32) (frame : Bytes) (register : UInt8)
    (body : Bytes) : Downloading Progress := do
  let device := (← get).reconciler.device
  if register = LogReg.readoutNotify then
    (LogRecord.cut body).forM (takeRecord now)
    return .more
  else if register = LogReg.readoutProgress then
    match Reconciler.readCounter device body with
    | .error fault => throw fault
    | .ok left =>
      note [.progress left total]
      return if left = 0 then .done else .more
  else if register = LogReg.pageCompleted ∧ device.extendedLogging then
    onLink (Link.send [Module.logging, LogReg.pageConfirm])
    return .more
  else
    park frame
    return .more

/-- Take a frame. -/
def takeFrame (now : Instant) (total : UInt32) (frame : Bytes) : Downloading Progress :=
  match frame with
  | module :: register :: body =>
    if module = Module.logging then takeLogFrame now total frame register body
    else do
      park frame
      return .more
  | _ => do
    park frame
    return .more

/-- Read frames until nothing is left. -/
def readFrames (now : Instant) (total : UInt32) : Nat → Downloading Unit
  | 0 => onLink (do throw (.timeout "log readout" (← get).timeoutMs))
  | fuel + 1 => do
    let frame ← onLink nextFrame
    match ← takeFrame now total frame with
    | .done => return ()
    | .more => readFrames now total fuel

/-- Read the log out.  Every frame that is read was in the link before, or is prepared in its
transport, so the number of these bounds the reading. -/
def readOut (now : Instant) (total : UInt32) : Downloading Unit := do
  let r := (← get).reconciler
  onLink (setNotices r.device.extendedLogging true)
  onLink (Link.send (readoutCommand total (progressInterval total r.progressUpdates)))
  let l := (← get).link
  readFrames now total (l.load + l.transport.prepared + 1)

/-- Switch the notices off, if the link works; a fault counts if there was none before. -/
def quieten (extended : Bool) (outcome : Except Fault Unit) (l : Link) :
    Except Fault Unit × Link :=
  if l.connected then
    let (off, l) := setNotices extended false l
    match outcome with
    | .ok _ => (off, l)
    | .error fault => (.error fault, l)
  else (outcome, l)

/-- The clock after a download that ended in some way. -/
def settleClock (outcome : Except Fault Unit) (c : TickClock) : TickClock :=
  match outcome with
  | .ok _ => c.thaw.clearRollback
  | .error (.connectionLost _) => c.thaw.markRollback
  | .error _ => c.thaw

end Downloading

open Downloading in
/-- Download the log into the subscriptions of the graph. -/
def download (now : Instant) : Downloading Unit := fun d =>
  match Reconciler.entryCount d.reconciler.device d.link with
  | (.error fault, link) => (.error fault, { d with link := link })
  | (.ok total, link) =>
    if total = 0 then
      (.ok (), { d with link := link, notices := d.notices ++ [.progress 0 0] })
    else
      let (outcome, d) := readOut now total
        { d with link := link, reconciler := d.reconciler.mapClock TickClock.freeze }
      let (outcome, link) := quieten d.reconciler.device.extendedLogging outcome d.link
      (outcome,
        { d with
          link := d.parked.foldl Link.defer link
          reconciler := d.reconciler.mapClock (settleClock outcome)
          parked := [] })

end SignalRoute
