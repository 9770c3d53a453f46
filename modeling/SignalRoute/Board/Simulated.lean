import SignalRoute.Board.Device
import SignalRoute.IdTable
import SignalRoute.Link.Event
import SignalRoute.Log.Record

/-!
# A simulated board

A simulated board keeps the tables of a real one and answers commands as its firmware does.  It
hands out the lowest free id for each processor, logger and event, reports its clock and the length
of its log, and plays the log back.  It can be told to swallow an answer, or to lose the connection
in the middle of a playback; the entries of a playback that was cut short stay in the log.

`SimulatedBoard.handle` is what one command does, as a function from board to board and the events
that it sends.  It is total: a command that is too short, or that goes to a register which the board
does not have, is answered by silence, and so is a creation for which there is no id left.  The host
cannot tell these from a lost answer, and waits for nothing.

All commands that came in are kept in `SimulatedBoard.commands`, those that had no effect included:
what one wants to know of a host is often what it sent, and in which order.
-/

set_option autoImplicit false

namespace SignalRoute

/-- How many ids each table has. -/
def tableSize : Nat := 32

/-- A processor in the table of a board: address and packed byte range of its input, and its
configuration. -/
structure BoardProcessor where
  source : Bytes
  config : Bytes
deriving DecidableEq, Repr, Inhabited

/-- An event in the table of a board: its source and target, and the parameters of the command. -/
structure BoardEvent where
  entry : Bytes
  parameters : Bytes
deriving DecidableEq, Repr, Inhabited

/-- The state of a simulated board. -/
structure SimulatedBoard where
  device : Device
  /-- All commands that came in, oldest first. -/
  commands : List Bytes
  processors : IdTable BoardProcessor
  loggers : IdTable Bytes
  events : IdTable BoardEvent
  /-- The first half of an event that is being created. -/
  pendingEvent : Option Bytes
  /-- How many creations were asked for. -/
  creates : Nat
  /-- The creation that is not carried out. -/
  dropAt : Option Nat
  log : List LogRecord
  /-- The tick and the reset of the clock. -/
  tick : UInt32
  reset : UInt8
  /-- After how many entries a page ends. -/
  pageEvery : Option Nat
  /-- After how many entries a playback loses the connection. -/
  cutAfter : Option Nat
  connected : Bool
deriving Inhabited

namespace SimulatedBoard

def start (device : Device) : SimulatedBoard :=
  { device := device, commands := [], processors := .empty, loggers := .empty, events := .empty,
    pendingEvent := none, creates := 0, dropAt := none, log := [], tick := 0, reset := 0,
    pageEvery := none, cutAfter := none, connected := true }

/-- A counter as the board's logging module writes it. -/
def counterBytes (d : Device) (n : Nat) : Bytes :=
  leBytes (if d.extendedLogging then 4 else 2) (UInt64.ofNat n)

/-- What a command leads to. -/
abbrev Outcome := List LinkEvent × SimulatedBoard

/-- No answer. -/
def silent (b : SimulatedBoard) : Outcome := ([], b)

/-- One frame as the answer. -/
def reply (b : SimulatedBoard) (frame : Bytes) : Outcome := ([.frame frame], b)

/-- Count a creation and carry it out, unless it is the one to be dropped. -/
def countCreate (b : SimulatedBoard) (create : SimulatedBoard → Outcome) : Outcome :=
  let b := { b with creates := b.creates + 1 }
  if b.dropAt = some b.creates then b.silent else create b

def createProcessor (source config : Bytes) (b : SimulatedBoard) : Outcome :=
  match b.processors.freeId? tableSize with
  | some id =>
    { b with processors := b.processors.insert id ⟨source, config⟩ }.reply
      [Module.processor, ProcessorReg.add, id]
  | none => b.silent

def createLogger (source : Bytes) (b : SimulatedBoard) : Outcome :=
  match b.loggers.freeId? tableSize with
  | some id =>
    { b with loggers := b.loggers.insert id source }.reply [Module.logging, LogReg.trigger, id]
  | none => b.silent

def createEvent (entry parameters : Bytes) (b : SimulatedBoard) : Outcome :=
  match b.events.freeId? tableSize with
  | some id =>
    { b with events := b.events.insert id ⟨entry, parameters⟩ }.reply
      [Module.event, EventReg.entry, id]
  | none => b.silent

/-! ## Playing the log back

A playback sends the entries two by two, with a count of what is left behind every so many of them
and, on boards that number pages, the end of each page.  A connection may break between two frames.
The board then keeps all entries, those included that were already sent, so the host sees them twice
and has to know how far it got.
-/

/-- Has the count of entries passed a multiple of `every` on its way from `before` to `after`? -/
def passes (every before after : Nat) : Bool := every != 0 && after / every != before / every

/-- What a board sends behind the entries of a playback: how many are left, every `every` entries
but not after the last, and the end of a page. -/
def marksBetween (d : Device) (page : Option Nat) (total every before after : Nat) :
    List LinkEvent :=
  (if after < total && passes every before after then
    [.frame (Module.logging :: LogReg.readoutProgress :: counterBytes d (total - after))]
  else []) ++
  (if d.extendedLogging && page.any (passes · before after) then
    [.frame [Module.logging, LogReg.pageCompleted]]
  else [])

/-- A frame with one or two entries. -/
def recordFrame (records : List LogRecord) : LinkEvent :=
  .frame (Module.logging :: LogReg.readoutNotify :: records.flatMap LogRecord.toBytes)

/-- The events of a playback, `sent` entries of which are out, and whether it came to its end. -/
def playback (d : Device) (page cut : Option Nat) (total every : Nat) :
    Nat → List LogRecord → List LinkEvent × Bool
  | _, [] => ([.frame (Module.logging :: LogReg.readoutProgress :: counterBytes d 0)], true)
  | sent, [a] =>
    if cut.any (· ≤ sent) then ([.disconnected], false)
    else
      ([recordFrame [a]] ++ marksBetween d page total every sent (sent + 1) ++
        [.frame (Module.logging :: LogReg.readoutProgress :: counterBytes d 0)], true)
  | sent, a :: b :: rest =>
    if cut.any (· ≤ sent) then ([.disconnected], false)
    else
      let (events, complete) := playback d page cut total every (sent + 2) rest
      (recordFrame [a, b] :: marksBetween d page total every sent (sent + 2) ++ events, complete)

/-- Play back up to `requested` entries and take them out of the log; if the connection is lost on
the way, they stay. -/
def readout (b : SimulatedBoard) (requested every : Nat) : Outcome :=
  let entries := b.log.take requested
  let (events, complete) :=
    playback b.device b.pageEvery b.cutAfter entries.length every 0 entries
  if complete then (events, { b with log := b.log.drop requested })
  else (events, { b with cutAfter := none, connected := false })

/-! ## Commands

One function for each module.  The registers that create something go through
`SimulatedBoard.countCreate`, so that a creation can be dropped wherever in a route it stands.
-/

/-- What a command to the processor module does. -/
def handleProcessor (b : SimulatedBoard) (register : UInt8) (body : Bytes) : Outcome :=
  if register = ProcessorReg.add then
    if 5 ≤ body.length then b.countCreate (createProcessor (body.take 4) (body.drop 4)) else b.silent
  else
    match body with
    | [] => b.silent
    | id :: _ =>
      if register = ProcessorReg.remove then
        { b with processors := b.processors.erase id }.silent
      else if register = readForm ProcessorReg.add then
        match b.processors.find? id with
        | some p => b.reply ([Module.processor, register, id] ++ p.source ++ p.config)
        | none => b.reply [Module.processor, register, id]
      else b.silent

/-- What a command to the logging module does.  A slot without a logger is answered without an
id. -/
def handleLogging (b : SimulatedBoard) (register : UInt8) (body : Bytes) : Outcome :=
  if register = LogReg.trigger then
    if 4 ≤ body.length then b.countCreate (createLogger (body.take 4)) else b.silent
  else if register = LogReg.remove then
    match body with
    | id :: _ => { b with loggers := b.loggers.erase id }.silent
    | [] => b.silent
  else if register = readForm LogReg.trigger then
    match body with
    | id :: _ =>
      match b.loggers.find? id with
      | some source => b.reply ([Module.logging, register, id] ++ source)
      | none => b.reply [Module.logging, register]
    | [] => b.silent
  else if register = readForm LogReg.length then
    b.reply ([Module.logging, register] ++ counterBytes b.device b.log.length)
  else if register = readForm LogReg.time then
    b.reply ([Module.logging, register] ++ leBytes 4 b.tick.toUInt64 ++ [b.reset])
  else if register = LogReg.readout then
    match body with
    | n0 :: n1 :: n2 :: n3 :: e0 :: e1 :: e2 :: e3 :: _ =>
      b.readout (word32 n0 n1 n2 n3).toNat (word32 e0 e1 e2 e3).toNat
    | _ => b.silent
  else if register = LogReg.removeEntries then { b with log := [] }.silent
  else b.silent

/-- What a command to the event module does.  An event is created in two commands. -/
def handleEvent (b : SimulatedBoard) (register : UInt8) (body : Bytes) : Outcome :=
  if register = EventReg.entry then { b with pendingEvent := some body }.silent
  else if register = EventReg.parameters then
    match b.pendingEvent with
    | some entry => { b with pendingEvent := none }.countCreate (createEvent entry body)
    | none => b.silent
  else if register = EventReg.remove then
    match body with
    | id :: _ => { b with events := b.events.erase id }.silent
    | [] => b.silent
  else b.silent

/-- What a command does. -/
def handle (b : SimulatedBoard) (command : Bytes) : Outcome :=
  let b := { b with commands := b.commands ++ [command] }
  match command with
  | module :: register :: body =>
    if module = Module.processor then b.handleProcessor register body
    else if module = Module.logging then b.handleLogging register body
    else if module = Module.event then b.handleEvent register body
    else b.silent
  | _ => b.silent

/-! ## The bench

What can be done to a simulated board from the outside. -/

/-- Do not carry out the `k`-th creation from now on. -/
def dropReply (b : SimulatedBoard) (k : Nat) : SimulatedBoard :=
  { b with creates := 0, dropAt := some k }

def installProcessor (b : SimulatedBoard) (id : UInt8) (source config : Bytes) : SimulatedBoard :=
  { b with processors := b.processors.insert id ⟨source, config⟩ }

def installLogger (b : SimulatedBoard) (id : UInt8) (source : Bytes) : SimulatedBoard :=
  { b with loggers := b.loggers.insert id source }

def pushLog (b : SimulatedBoard) (records : List LogRecord) : SimulatedBoard :=
  { b with log := b.log ++ records }

def setTime (b : SimulatedBoard) (tick : UInt32) (reset : UInt8) : SimulatedBoard :=
  { b with tick := tick, reset := reset }

/-- The commands to one register. -/
def commandsFor (b : SimulatedBoard) (module register : UInt8) : List Bytes :=
  b.commands.filter fun c => [module, register].isPrefixOf c

def disconnect (b : SimulatedBoard) : SimulatedBoard := { b with connected := false }

/-- The connection is back; the tables are as they were. -/
def reconnect (b : SimulatedBoard) : SimulatedBoard := { b with connected := true, cutAfter := none }

end SimulatedBoard
end SignalRoute
