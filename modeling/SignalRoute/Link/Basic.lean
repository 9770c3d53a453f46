import SignalRoute.Link.Transport

/-!
# The link

A link pairs a transport with the queue of what comes in.  Requests are made one at a time: a
command is written, and then the queue is read up to the answer.  Frames that are not the answer go
to a backlog, from which they are taken later, before those in the queue.

Everything that a command leads to is in the queue before it is read, so to wait in vain is to find
the queue empty.  So a request can read the queue in one go, as a recursion over the list
(`Link.await`), and needs no clock: the number of milliseconds appears in the fault and nowhere
else.

What comes in while a request waits is not lost by this.  Where the order of arrivals matters,
`Link.await` is taken apart into steps that read one event each (`Link.readOnce`, in
`Proofs.Link.Ordering`), and events may come in between any two of them.
-/

set_option autoImplicit false

namespace SignalRoute

/-- The host's end of the connection to a board. -/
structure Link where
  transport : Transport
  /-- What came in and was not read, oldest first. -/
  queue : List LinkEvent
  /-- How much the queue holds. -/
  capacity : Nat
  /-- Can anything still come in? -/
  isOpen : Bool
  slot : PendingSlot
  /-- Frames that were read while another one was waited for. -/
  backlog : List Bytes
  timeoutMs : UInt64
  connected : Bool
deriving Inhabited

/-- An operation on a link. -/
abbrev Linked := ExceptT Fault (StateM Link)

namespace Link

def start (transport : Transport) (capacity : Nat) (timeoutMs : UInt64) : Link :=
  { transport := transport, queue := [], capacity := capacity, isOpen := true, slot := .empty,
    backlog := [], timeoutMs := timeoutMs, connected := true }

/-- Is there a queue of this capacity?  Its places, of 32 bytes each, must have addresses in 63
bits. -/
def canHold (capacity : Nat) : Bool := capacity < 0x400000000000000

/-- Is there room for an event? -/
def hasRoom (l : Link) : Bool := l.queue.length < l.capacity

/-- An event comes in; if the queue is full it is lost. -/
def receive (l : Link) (e : LinkEvent) : Link :=
  if l.hasRoom then { l with queue := l.queue ++ [e] } else l

def receiveAll (l : Link) (events : List LinkEvent) : Link := events.foldl receive l

/-- Put a frame where it will be taken from later. -/
def defer (l : Link) (frame : Bytes) : Link := { l with backlog := l.backlog ++ [frame] }

/-- The connection is back. -/
def reconnected (l : Link) : Link := { l with connected := true, slot := .empty }

/-- Write to the transport, connected or not. -/
def write (command : Bytes) : Linked Unit := fun l =>
  match l.transport.write command with
  | (.ok events, t) => (.ok (), { l with transport := t }.receiveAll events)
  | (.error fault, t) => (.error fault, { l with transport := t })

/-- Take the commands out of the record. -/
def takeSent (l : Link) : List Bytes × Link :=
  (l.transport.sent, { l with transport := { l.transport with sent := [] } })

/-- A command in a fault. -/
def commandText (command : Bytes) : String := "[" ++ ", ".intercalate (command.map hexByte) ++ "]"

/-- Send a command. -/
def send (command : Bytes) : Linked Unit := do
  if (← get).connected then write command
  else
    throw (.connectionLost ("cannot send " ++ commandText command ++ " while disconnected"))

/-- The fault of a queue that nothing can enter any more. -/
def closedFault : Fault := .connectionLost "link channel closed"

/-- Read the queue up to the answer to a request.  Whatever ends the waiting also empties the slot,
so that a frame which comes later is an ordinary one, also if it is the answer. -/
def await (what : String) : List LinkEvent → Link → Except Fault Bytes × Link
  | [], l =>
    if l.isOpen then
      (.error (.timeout what l.timeoutMs), { l with queue := [], slot := .empty })
    else (.error closedFault, { l with queue := [], slot := .empty, connected := false })
  | .disconnected :: rest, l =>
    (.error (.connectionLost ("while waiting for " ++ what)),
      { l with queue := rest, slot := .empty, connected := false })
  | .frame f :: rest, l =>
    if l.slot.accepts f then (.ok f, { l with queue := rest, slot := .empty })
    else await what rest (l.defer f)

/-- Send a command and wait for its answer.  The slot is armed before the command is written,
because the answer may be in the queue as soon as it is; frames that were in the queue before are
looked at too. -/
def request (command : Bytes) (key : ReplyKey) (what : String) : Linked Bytes := fun l =>
  match send command { l with slot := l.slot.arm key } with
  | (.ok _, l) => await what l.queue l
  | (.error fault, l) => (.error fault, { l with slot := .empty })

/-- The next event of the queue: a frame, or nothing. -/
def recv : Linked (Option Bytes) := fun l =>
  match l.queue with
  | .frame f :: rest => (.ok (some f), { l with queue := rest })
  | .disconnected :: rest =>
    (.error (.connectionLost "transport disconnected"),
      { l with queue := rest, connected := false })
  | [] =>
    if l.isOpen then (.ok none, l) else (.error closedFault, { l with connected := false })

/-- The next frame, from the backlog if it has one. -/
def tryNext : Linked (Option Bytes) := fun l =>
  match l.backlog with
  | f :: rest => (.ok (some f), { l with backlog := rest })
  | [] => recv l

/-- How many frames can still be read, if nothing more is sent. -/
def load (l : Link) : Nat := l.backlog.length + l.queue.length

end Link
end SignalRoute
