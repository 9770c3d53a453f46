import SignalRoute.Processor.Decode
import SignalRoute.Route.Realize

/-!
# Logs of unknown origin

A board keeps its loggers when the host forgets them.  This file finds out what they log, from the
tables of the board alone:

* Loggers of one output whose byte ranges follow each other log one signal (`groupLoggers`).
* The signal of a processor's output is what inference gives for the configuration in the board's
  table, applied to the signal that the processor reads, and so on down to a sensor
  (`Rebuilding.processor`).  Each processor is read once.
* The signal of a sensor is the catalog's best guess.

A chain of processors that is longer than the table cannot end at a sensor, so it is not followed
any further.  This bound is what makes `Rebuilding.processor` a structural recursion.  The
processors that were read are kept in `Survey.rebuilt`, so that one to which several paths lead is
read once; a processor that feeds itself never gets there, and it is the bound that ends its
recursion.

The recursion is cut in two.  `Rebuilding.source` is given the way to find out about the processor
in front of it, and does not know how deep it stands; `Rebuilding.processor` ties the knot.
-/

set_option autoImplicit false

namespace SignalRoute

/-- A logger in the table of a board. -/
structure LoggerSource where
  id : UInt8
  address : Address
  length : UInt8
  offset : UInt8
deriving DecidableEq, Repr, Inhabited

/-- Loggers of one byte range of an output. -/
structure LoggedRange where
  address : Address
  offset : UInt8
  length : UInt8
  ids : List UInt8
deriving DecidableEq, Repr, Inhabited

/-- What the board says about one place in its table of loggers. -/
inductive LoggerSlot where
  /-- The table is at its end. -/
  | tableEnd
  | empty
  | used (source : LoggerSource)
deriving DecidableEq, Repr, Inhabited

/-- The address and the byte range in an entry of a board's table. -/
def unpackSource (module register id packed : UInt8) : Address × UInt8 × UInt8 :=
  (⟨module, register, id⟩, unpackRange packed)

/-- The answer to a question for a logger. -/
def LoggerSlot.ofReply (id : UInt8) (reply : Bytes) : LoggerSlot :=
  match reply with
  | _ :: _ :: replied :: module :: register :: sourceId :: packed :: _ =>
    if replied = id then
      let (a, length, offset) := unpackSource module register sourceId packed
      .used ⟨id, a, length, offset⟩
    else .empty
  | _ :: _ :: _ :: _ => .empty
  | _ => .tableEnd

/-! ## Which loggers belong together

A signal that is wider than an entry was split over several loggers, the last of which may be
narrower than the others.  So a range goes on as long as its entries are full, and the first entry
that is not full ends it.
-/

/-- Does a logger go on where a range ends?  Only full entries are followed by others. -/
def LoggedRange.continuedBy (r : LoggedRange) (s : LoggerSource) : Bool :=
  r.address == s.address && r.length.toNat % logEntrySize == 0 && r.offset + r.length == s.offset

def LoggedRange.extend (r : LoggedRange) (s : LoggerSource) : LoggedRange :=
  { r with length := r.length + s.length, ids := r.ids ++ [s.id] }

def LoggedRange.ofSource (s : LoggerSource) : LoggedRange := ⟨s.address, s.offset, s.length, [s.id]⟩

/-- The ranges that loggers form, the first of them being `current`. -/
def groupFrom (current : LoggedRange) : List LoggerSource → List LoggedRange
  | [] => [current]
  | s :: rest =>
    if current.continuedBy s then groupFrom (current.extend s) rest
    else current :: groupFrom (.ofSource s) rest

/-- The ranges that loggers form. -/
def groupLoggers : List LoggerSource → List LoggedRange
  | [] => []
  | s :: rest => groupFrom (.ofSource s) rest

/-- Does a signal, with all its copies, lie exactly in a byte range? -/
def Signal.fills (offset length : UInt8) (s : Signal) : Bool :=
  s.shape.offset == offset && s.shape.unitLength == length

/-- The part of a signal in a byte range: the signal itself, one of its parts, or plain bytes. -/
def Signal.select (s : Signal) (offset length : UInt8) : Signal :=
  if s.fills offset length then s
  else
    match s.parts.find? (fills offset length) with
    | some part => part
    | none =>
      { Signal.root s.address ⟨[length], 1, offset, s.shape.signed⟩ .bytes with
        processor := s.processor, input := s.input }

/-! ## Rebuilding signals -/

/-- A processor that has been read from the board, and what it puts out. -/
structure Rebuilt where
  source : Address
  processor : Processor
  outputs : Inferred
deriving Inhabited

/-- The link to a board, and the processors that have been read over it. -/
structure Survey where
  link : Link
  rebuilt : IdTable Rebuilt
deriving Inhabited

/-- A part of a survey. -/
abbrev Rebuilding := ExceptT Fault (StateM Survey)

/-- The longest chain of processors that is followed. -/
def maxChain : Nat := 32

namespace Rebuilding

/-- Use the link. -/
def onLink {α : Type} (op : Linked α) : Rebuilding α := fun s =>
  match op s.link with
  | (outcome, link) => (outcome, { s with link := link })

/-- Take over the outcome of a computation. -/
def check {α : Type} (outcome : Except Fault α) : Rebuilding α :=
  match outcome with
  | .ok a => pure a
  | .error fault => throw fault

/-- Read a processor from the board's table: its input and its configuration. -/
def readProcessor (device : Device) (id : UInt8) :
    Rebuilding ((Address × UInt8 × UInt8) × Processor) := do
  let register := readForm ProcessorReg.add
  let reply ← onLink (Link.request [Module.processor, register, id]
    (.indexed Module.processor register id) "processor read")
  match reply with
  | _ :: _ :: _ :: module :: sourceRegister :: sourceId :: packed :: config =>
    if config.isEmpty then
      throw (.protocol ("processor " ++ toString id.toNat ++ " is not on the board (" ++
        spacedHex reply ++ ")"))
    let p ← check (Processor.decode device config)
    return (unpackSource module sourceRegister sourceId packed, p)
  | _ =>
    throw (.protocol ("processor " ++ toString id.toNat ++ " is not on the board (" ++
      spacedHex reply ++ ")"))

/-- The signal in a byte range of an output, given how to find out about processors. -/
def source (catalog : Catalog) (find : UInt8 → Rebuilding Inferred) (a : Address)
    (length offset : UInt8) : Rebuilding Signal := do
  if a.isProcessor && a.register == ProcessorReg.notify then
    return (← find a.id).output.select offset length
  else if a.isProcessor && a.register == ProcessorReg.state then
    let outputs ← find a.id
    return (outputs.state.getD outputs.output).select offset length
  else
    return (catalog.findRoot a offset length).signal

/-- The state of a buffer that is fused. -/
def fusedState (find : UInt8 → Rebuilding Inferred) (id : UInt8) : Rebuilding Signal := do
  match (← find id).state with
  | some s => return s
  | none => throw (.protocol ("fused processor " ++ toString id.toNat ++ " has no state"))

/-- The ids of the buffers that a processor fuses. -/
def fusedIds : Processor → List UInt8
  | .fuser c => c.ids
  | _ => []

/-- What a processor puts out, following at most `depth` processors. -/
def processor (device : Device) (catalog : Catalog) : Nat → UInt8 → Rebuilding Inferred
  | depth, id => do
    match (← get).rebuilt.find? id with
    | some r => return r.outputs
    | none =>
      match depth with
      | 0 =>
        throw (.protocol ("processor chain through " ++ toString id.toNat ++
          " does not end at a sensor"))
      | depth + 1 =>
        let find := processor device catalog depth
        let ((a, length, offset), p) ← readProcessor device id
        let input ← source catalog find a length offset
        let fused ← (fusedIds p).mapM (fusedState find)
        let inferred ← check (infer input p fused)
        let outputs : Inferred :=
          ⟨inferred.output.withId id, inferred.state.map fun s => s.withId id⟩
        modify fun s => { s with rebuilt := s.rebuilt.insert id ⟨a, p, outputs⟩ }
        return outputs

/-- The signal of a logged range. -/
def logged (device : Device) (catalog : Catalog) (r : LoggedRange) : Rebuilding Signal :=
  source catalog (processor device catalog maxChain) r.address r.length r.offset

end Rebuilding

/-! ## The survey

Three parts, one after the other: the table of loggers is read, the signals of the ranges are
rebuilt and subscribed to in turn, and the processors that were read on the way are entered.  The
last part happens only if all went well, but the second one changes the graph as it goes along.
-/

/-- The subscription to a log that was found on the board. -/
structure AnonymousRoute where
  identifier : String
  logIds : List UInt8
  /-- The signal, from offset 0 on. -/
  signal : Signal
  mailbox : Nat
deriving Inhabited

/-- Read a place in the table of loggers. -/
def readLogger (id : UInt8) : Linked LoggerSlot := do
  let register := readForm LogReg.trigger
  let reply ← Link.request [Module.logging, register, id] (.register Module.logging register)
    "logger read"
  return LoggerSlot.ofReply id reply

/-- Read the places that the host knows nothing about, up to the end of the table. -/
def readLoggers (g : Graph) : List UInt8 → Linked (List LoggerSource)
  | [] => return []
  | id :: rest => do
    if g.hasLogger id then readLoggers g rest
    else
      match ← readLogger id with
      | .tableEnd => return []
      | .empty => readLoggers g rest
      | .used s => return s :: (← readLoggers g rest)

/-- The ids of all loggers. -/
def loggerIds : List UInt8 := (List.range maxLoggers).map UInt8.ofNat

/-- Subscribe to a log that was found. -/
def Graph.adopt (g : Graph) (catalog : Catalog) (r : LoggedRange) (s : Signal) :
    AnonymousRoute × Graph :=
  let mailbox := g.mail.next
  let placed := s.atOffset 0
  (⟨s.identifierOr catalog r.address, r.ids, placed, mailbox⟩,
    g.rentMailbox.addLogger ⟨.invalid, placed, .ofIds r.ids, mailbox⟩)

/-- Rebuild the signals of ranges and subscribe to them in turn.  The consumers that were entered
before a fault stay, but nobody takes what they deliver. -/
def adoptAll (device : Device) (catalog : Catalog) :
    List LoggedRange → Survey → Graph → Except Fault (List AnonymousRoute) × Survey × Graph
  | [], survey, g => (.ok [], survey, g)
  | r :: rest, survey, g =>
    match Rebuilding.logged device catalog r survey with
    | (.error fault, survey) => (.error fault, survey, g)
    | (.ok s, survey) =>
      let (route, g) := g.adopt catalog r s
      match adoptAll device catalog rest survey g with
      | (.ok routes, survey, g) => (.ok (route :: routes), survey, g)
      | (.error fault, survey, g) => (.error fault, survey, g.abandon [route.mailbox])

/-- Enter the processors that were read, unless they are known. -/
def Graph.enterRebuilt (g : Graph) (rebuilt : List (UInt8 × Rebuilt)) : Graph :=
  rebuilt.foldl (fun g (id, r) =>
    if (g.processor? id).isSome then g
    else
      g.insertProcessor ⟨id, r.source, r.processor, r.outputs.output, r.outputs.state, none,
        .invalid⟩) g

/-- Subscribe to every log on the board that the host does not know. -/
def adoptLoggers (device : Device) (catalog : Catalog) :
    ExceptT Fault (StateM Station) (List AnonymousRoute) := fun station =>
  match readLoggers station.graph loggerIds station.link with
  | (.error fault, link) => (.error fault, { station with link := link })
  | (.ok sources, link) =>
    match adoptAll device catalog (groupLoggers sources) ⟨link, .empty⟩ station.graph with
    | (.error fault, survey, g) => (.error fault, ⟨survey.link, g⟩)
    | (.ok routes, survey, g) => (.ok routes, ⟨survey.link, g.enterRebuilt survey.rebuilt.entries⟩)

end SignalRoute
