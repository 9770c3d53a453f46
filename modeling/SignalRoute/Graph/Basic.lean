import SignalRoute.Graph.Mailbox
import SignalRoute.IdTable
import SignalRoute.Log.MergeQueue
import SignalRoute.Signal.Decode

/-!
# What the host knows about a board

The graph of a board holds the processors, loggers and events that are on it, the names of
processors, and who subscribed to what.  Each entry remembers the route that it belongs to.

A name leads to an id, and the id to a processor, so a name may outlive the processor that it was
given to: it is forgotten only with a processor that has it.

Processors are found by id, loggers by the ids of their merge queue, streams by nothing: every frame
is offered to all of them.  That is why only processors and events are in tables by id, and why the
consumers of logs and the streams are lists, in the order in which they were entered.

The graph holds what the host believes, and nothing in it looks at the board.  That the two agree is
an invariant of what routes do to both (`Proofs.Route.Sync`), which ends where a removal fails or
the board is changed by somebody else.
-/

set_option autoImplicit false

namespace SignalRoute

/-- The number of a route. -/
structure RouteId where
  number : UInt32
deriving DecidableEq, Repr, Inhabited

namespace RouteId

/-- The owner of what no route of this host created. -/
def invalid : RouteId := ⟨0xffffffff⟩

def isValid (r : RouteId) : Bool := r != invalid

def next (r : RouteId) : RouteId := ⟨r.number + 1⟩

def text (r : RouteId) : String :=
  if r.isValid then "RouteId(" ++ toString r.number.toNat ++ ")" else "RouteId(INVALID)"

end RouteId

/-- A processor on the board. -/
structure ProcessorEntry where
  id : UInt8
  /-- The output that it reads. -/
  source : Address
  processor : Processor
  output : Signal
  state : Option Signal
  name : Option String
  route : RouteId
deriving Inhabited

/-- A live subscription. -/
structure StreamEntry where
  route : RouteId
  signal : Signal
  mailbox : Nat
deriving Inhabited

/-- The consumer of a logged signal, which starts at offset 0. -/
structure LoggerEntry where
  route : RouteId
  signal : Signal
  merge : MergeQueue
  mailbox : Nat
deriving Inhabited

namespace LoggerEntry

def ids (e : LoggerEntry) : List UInt8 := e.merge.ids

end LoggerEntry

/-- What is on a board, and who listens to it. -/
structure Graph where
  processors : IdTable ProcessorEntry
  names : List (String × UInt8)
  loggers : List LoggerEntry
  streams : List StreamEntry
  events : IdTable RouteId
  mail : PostOffice
deriving Inhabited

namespace Graph

def empty : Graph := ⟨.empty, [], [], [], .empty, .empty⟩

/-! ## Processors and their names

The two tables are changed together and looked up one after the other.  A name that is given again
leads to the newer processor; the older one is still found by its id.
-/

def insertProcessor (g : Graph) (e : ProcessorEntry) : Graph :=
  { g with
    names := match e.name with
      | some n => (n, e.id) :: g.names.filter fun x => x.1 != n
      | none => g.names
    processors := g.processors.insert e.id e }

def processor? (g : Graph) (id : UInt8) : Option ProcessorEntry := g.processors.find? id

/-- The graph without a processor and its name. -/
def removeProcessor (g : Graph) (id : UInt8) : Graph :=
  match g.processor? id with
  | none => g
  | some e =>
    { g with
      names := match e.name with
        | some n => g.names.filter fun x => x.1 != n
        | none => g.names
      processors := g.processors.erase id }

/-- The id of a name. -/
def nameId? (g : Graph) (name : String) : Option UInt8 :=
  (g.names.find? fun x => x.1 == name).map Prod.snd

def named? (g : Graph) (name : String) : Option ProcessorEntry :=
  (g.nameId? name).bind g.processor?

def isNameTaken (g : Graph) (name : String) : Bool := (g.nameId? name).isSome

/-- The graph with the configuration of a processor replaced. -/
def setProcessor (g : Graph) (id : UInt8) (p : Processor) : Graph :=
  { g with processors := g.processors.modify id fun e => { e with processor := p } }

/-! ## Loggers, streams and events

Removing a logger takes out every consumer that owns the id, and adding one does not look whether
the id is owned already.  Where each id has one owner, as after every creation, this is the same as
removing one.
-/

def addLogger (g : Graph) (e : LoggerEntry) : Graph := { g with loggers := g.loggers ++ [e] }

/-- The graph without the consumers that own a log id. -/
def removeLogger (g : Graph) (id : UInt8) : Graph :=
  { g with loggers := g.loggers.filter fun e => !e.merge.contains id }

/-- The consumer that owns a log id. -/
def logger? (g : Graph) (id : UInt8) : Option LoggerEntry :=
  g.loggers.find? fun e => e.merge.contains id

def hasLogger (g : Graph) (id : UInt8) : Bool := g.loggers.any fun e => e.merge.contains id

/-- Consumers with the first owner of a log id changed. -/
def modifyOwner (id : UInt8) (f : LoggerEntry → LoggerEntry) : List LoggerEntry → List LoggerEntry
  | [] => []
  | e :: rest => if e.merge.contains id then f e :: rest else e :: modifyOwner id f rest

/-- The graph with another merge queue for the owner of a log id. -/
def setMerge (g : Graph) (id : UInt8) (q : MergeQueue) : Graph :=
  { g with loggers := modifyOwner id (fun e => { e with merge := q }) g.loggers }

def addStream (g : Graph) (e : StreamEntry) : Graph := { g with streams := g.streams ++ [e] }

def removeStreams (g : Graph) (route : RouteId) : Graph :=
  { g with streams := g.streams.filter fun e => e.route != route }

def insertEvent (g : Graph) (id : UInt8) (route : RouteId) : Graph :=
  { g with events := g.events.insert id route }

def hasEvent (g : Graph) (id : UInt8) : Bool := g.events.contains id

def removeEvent (g : Graph) (id : UInt8) : Graph := { g with events := g.events.erase id }

/-- The graph of a board on which nothing is left.  Subscribers keep what they have received. -/
def clear (g : Graph) : Graph := { Graph.empty with mail := g.mail }

/-! ## Subscribers

A frame is delivered to every stream whose address it starts with, and each stream decodes it on its
own.  What cannot be decoded is not delivered, and nobody is told.
-/

/-- The graph with a new mailbox, whose number is `g.mail.next`. -/
def rentMailbox (g : Graph) : Graph := { g with mail := g.mail.rent }

/-- The graph with a sample delivered. -/
def deliver (g : Graph) (mailbox : Nat) (s : Sample) : Graph :=
  { g with mail := g.mail.deliver mailbox s }

/-- The graph with mailboxes given up. -/
def abandon (g : Graph) (mailboxes : List Nat) : Graph :=
  { g with mail := mailboxes.foldl PostOffice.abandon g.mail }

/-- The graph with a mailbox emptied. -/
def drain (g : Graph) (mailbox : Nat) : Graph := { g with mail := g.mail.drain mailbox }

/-- The payload of a frame that comes from an address: what follows the module and the register, and
the id if the address has one. -/
def payloadFrom? (a : Address) (frame : Bytes) : Option Bytes :=
  let head := if a.hasId then a.toBytes else a.toBytes.take 2
  if head.isPrefixOf frame then some (frame.drop head.length) else none

/-- Deliver samples of one time to a mailbox; answers how many it took. -/
def deliverAll (g : Graph) (mailbox : Nat) (time : Instant) (readings : List Reading) :
    Nat × Graph :=
  if g.mail.isOpen mailbox then
    (readings.length, readings.foldl (fun g r => g.deliver mailbox ⟨time, r⟩) g)
  else (0, g)

/-- Deliver a frame to one stream, if it comes from its signal and can be decoded. -/
def offer (now : Instant) (frame : Bytes) (g : Graph) (e : StreamEntry) : Nat × Graph :=
  match payloadFrom? e.signal.address frame with
  | none => (0, g)
  | some payload =>
    match e.signal.decodeAll payload with
    | .ok readings => g.deliverAll e.mailbox now readings
    | .error _ => (0, g)

/-- Deliver a frame to some streams; answers how many samples were taken. -/
def offerAll (now : Instant) (frame : Bytes) (g : Graph) : List StreamEntry → Nat × Graph
  | [] => (0, g)
  | e :: rest =>
    let (n, g) := g.offer now frame e
    let (m, g) := g.offerAll now frame rest
    (n + m, g)

/-- Deliver a frame to every stream of its signal; answers how many samples were taken. -/
def dispatch (g : Graph) (now : Instant) (frame : Bytes) : Nat × Graph :=
  g.offerAll now frame g.streams

end Graph
end SignalRoute
