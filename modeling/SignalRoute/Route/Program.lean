import SignalRoute.Link.Basic
import SignalRoute.Route.Plan

/-!
# Programming a board

A plan becomes real one command at a time: first the processors, in their order, so that each gets
its id before a later one reads it; then the loggers, one per four bytes of each logged signal; then
the events that run commands and those that feed operands; last the live outputs are switched on.

`Programming` is the link together with what has been created so far, which outlives a failure.  So
`Plan.program` either creates everything or leaves exactly what `rollback` removes.

A cursor's signal is completed by `resolve`: the id and the input that its stage was given on the
board replace what was unknown while planning.

The order matters.  A processor is named by its id in everything that comes after it: in the source
of the next processor, in the configuration of a fuser, in loggers and events.  So whatever a
command mentions is there when the command is sent, if the references of the plan go backwards.

Each creation is one request, answered by the new id.  An event takes two commands, the first of
which has no answer.  A fault in between leaves the first half on the board, where the next event
replaces it; nothing needs to be removed for it.
-/

set_option autoImplicit false

namespace SignalRoute

/-- A stage that has been created. -/
structure Placed where
  id : UInt8
  /-- The signal that it reads. -/
  source : Signal
  /-- Its configuration, ids of fused buffers included. -/
  processor : Processor
deriving Inhabited

/-- A link, and what was created over it. -/
structure Site where
  link : Link
  placed : List Placed
  loggers : List UInt8
  events : List UInt8
deriving Inhabited

/-- An operation at a site. -/
abbrev Programming := ExceptT Fault (StateM Site)

/-- The signal of a cursor, once the stages before it have been created. -/
def Cursor.resolve (c : Cursor) (placed : List Placed) : Signal :=
  match c.stage.bind fun i => placed[i]? with
  | some p => (c.signal.withId p.id).withInput p.source
  | none => c.signal

/-- The id of a named processor. -/
def NamedRef.resolve (r : NamedRef) (placed : List Placed) : UInt8 :=
  match r with
  | .realized id => id
  | .planned i =>
    match placed[i]? with
    | some p => p.id
    | none => noId

/-! ## Commands -/

/-- The byte range of a signal in its payload. -/
def packedSource (s : Signal) : UInt8 := packRange s.shape.unitLength s.shape.offset

/-- The command that creates a processor behind a signal. -/
def createCommand (source : Signal) (p : Processor) : Bytes :=
  [Module.processor, ProcessorReg.add] ++ source.address.toBytes ++ [packedSource source] ++ p.encode

/-- The command that logs `width` bytes of a signal from `offset` on. -/
def logCommand (a : Address) (width offset : UInt8) : Bytes :=
  [Module.logging, LogReg.trigger] ++ a.toBytes ++ [packRange width offset]

def removeProcessorCommand (id : UInt8) : Bytes := [Module.processor, ProcessorReg.remove, id]

def removeLoggerCommand (id : UInt8) : Bytes := [Module.logging, LogReg.remove, id]

def removeEventCommand (id : UInt8) : Bytes := [Module.event, EventReg.remove, id]

/-- The command that switches the notifications of a processor on. -/
def notifyCommand (id : UInt8) : Bytes := [Module.processor, ProcessorReg.notifyEnable, id, 1]

/-- `length` bytes from `offset` on of the signal that sets an event off, in one byte. -/
def dataToken (length offset : UInt8) : UInt8 :=
  (0x01 : UInt8) ||| ((lessOne length &&& (0x7 : UInt8)) <<< 1) ||| (offset <<< 4)

/-- The byte ranges of one logger each, from `start` on: their distance from the start, and their
widths. -/
def logChunks (fuel : Nat) (start : Nat) (length : Nat) : List (UInt8 × UInt8) :=
  match fuel with
  | 0 => []
  | fuel + 1 =>
    if start < length then
      (UInt8.ofNat start, UInt8.ofNat (min (length - start) logEntrySize)) ::
        logChunks fuel (start + logEntrySize) length
    else []

/-- The byte ranges into which a signal is cut for logging. -/
def Signal.logChunks (s : Signal) : List (UInt8 × UInt8) :=
  SignalRoute.logChunks s.shape.unitLength.toNat 0 s.shape.unitLength.toNat

/-- The id in the answer to a creation. -/
def replyId (reply : Bytes) (what : String) : Except Fault UInt8 :=
  match reply[2]? with
  | some id => .ok id
  | none => .error (.protocol (what ++ " reply too short: " ++ spacedHex reply))

namespace Programming

/-- Use the link. -/
def onLink {α : Type} (op : Linked α) : Programming α := fun site =>
  match op site.link with
  | (outcome, link) => (outcome, { site with link := link })

/-- Ask the board to create something; answers its id. -/
def create (command : Bytes) (key : ReplyKey) (what : String) : Programming UInt8 := do
  let reply ← onLink (Link.request command key what)
  match replyId reply what with
  | .ok id => return id
  | .error fault => throw fault

/-- The configuration of a stage, with the ids that its buffers have been given. -/
def settle (stage : PlannedStage) (placed : List Placed) : Processor :=
  match stage.processor with
  | .fuser _ => .fuser ⟨stage.fuse.map fun r => r.resolve placed⟩
  | p => p

/-- Create a processor. -/
def createStage (stage : PlannedStage) : Programming Unit := do
  let placed := (← get).placed
  let source := stage.source.resolve placed
  let p := settle stage placed
  let id ← create (createCommand source p) (.register Module.processor ProcessorReg.add)
    "processor create"
  modify fun site => { site with placed := site.placed ++ [⟨id, source, p⟩] }

/-- Create a logger. -/
def createLogger (s : Signal) (chunk : UInt8 × UInt8) : Programming UInt8 := do
  let id ← create (logCommand s.address chunk.2 (s.shape.offset + chunk.1))
    (.register Module.logging LogReg.trigger) "log trigger create"
  modify fun site => { site with loggers := site.loggers ++ [id] }
  return id

/-- Create the loggers of a signal; answers their ids. -/
def createLog (c : Cursor) : Programming (List UInt8) := do
  let s := c.resolve (← get).placed
  s.logChunks.mapM (createLogger s)

/-- Create an event: what sets it off and the command that it runs, and then its parameters. -/
def createEvent (entry parameters : Bytes) : Programming Unit := do
  onLink (Link.send ([Module.event, EventReg.entry] ++ entry))
  let id ← create ([Module.event, EventReg.parameters] ++ parameters)
    (.register Module.event EventReg.entry) "event create"
  modify fun site => { site with events := site.events ++ [id] }

/-- Create the events of a reaction. -/
def createReaction (r : Reaction) : Programming Unit := do
  let source := r.source.resolve (← get).placed
  r.commands.forM fun c =>
    createEvent (source.address.toBytes ++ [c.module, c.register, UInt8.ofNat c.payload.length])
      c.payload

/-- Create the event that feeds an operand: it writes the whole configuration of its stage, with the
operand replaced. -/
def createFeedback (f : Feedback) : Programming Unit := do
  let placed := (← get).placed
  let producer := f.signal.withId (f.producer.resolve placed)
  match placed[f.stage]? with
  | none => throw (.protocol "feedback into a stage that was not created")
  | some target =>
    let config := target.processor.encode
    createEvent
      (producer.address.toBytes ++ [Module.processor, ProcessorReg.parameter,
        UInt8.ofNat (config.length + 1), dataToken producer.shape.length producer.shape.offset,
        f.offset])
      (target.id :: config)

/-- Switch the notifications of a live output on.  Sensors notify on their own. -/
def enableStream (c : Cursor) : Programming Unit := do
  let s := c.resolve (← get).placed
  if s.isOutput then onLink (Link.send (notifyCommand s.address.id))

end Programming

open Programming in
/-- Create all that a plan asks for; answers the ids of the loggers of each log. -/
def Plan.program (p : Plan) : Programming (List (List UInt8)) := do
  p.stages.forM createStage
  let loggers ← p.logs.mapM createLog
  p.reactions.forM createReaction
  p.feedback.forM createFeedback
  p.streams.forM enableStream
  return loggers

/-! ## Undoing

Removals are sent to the end, whatever becomes of each: the one behind a failed one may still work.
They have no answers, so nothing is waited for.
-/

/-- Send a command and go on whatever comes of it. -/
def Link.trySend (l : Link) (command : Bytes) : Link := (Link.send command l).2

/-- The commands that remove what was created at a site: processors, loggers, events, each in the
order in which they came. -/
def Site.removals (s : Site) : List Bytes :=
  s.placed.map (fun p => removeProcessorCommand p.id) ++ s.loggers.map removeLoggerCommand ++
    s.events.map removeEventCommand

/-- Remove what was created at a site. -/
def Site.rollback (s : Site) : Link := s.removals.foldl Link.trySend s.link

end SignalRoute
