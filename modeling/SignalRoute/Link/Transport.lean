import SignalRoute.Board.Simulated
import SignalRoute.Fault

/-!
# The way to the board

Commands are written to a transport.  This one keeps a record of them, and can be told to refuse some
writes or to answer the next command that starts in a given way with prepared events.  Whatever is
left goes to a simulated board, if there is one.

A prepared answer takes the place of the board: the command that sets it off does not reach the
board at all.  In this way a test can let the board answer what it never would, and a theorem can
let it answer anything.  What holds of every transport therefore holds of every board, the broken
ones included.
-/

set_option autoImplicit false

namespace SignalRoute

/-- Prepared events for the next command that starts with some bytes. -/
structure Script where
  start : Bytes
  events : List LinkEvent
deriving DecidableEq, Repr, Inhabited

/-- Where commands go. -/
structure Transport where
  /-- The commands written, refused ones included, oldest first. -/
  sent : List Bytes
  /-- How many writes succeed before the refused ones. -/
  skip : Nat
  /-- How many writes are to be refused. -/
  refuse : Nat
  scripts : List Script
  board : Option SimulatedBoard
deriving Inhabited

namespace Transport

/-- A transport to nowhere, which takes every command. -/
def void : Transport := ⟨[], 0, 0, [], none⟩

def toBoard (b : SimulatedBoard) : Transport := { void with board := some b }

/-- Refuse `count` writes after the next `skip`. -/
def planFailures (t : Transport) (skip count : Nat) : Transport :=
  { t with skip := skip, refuse := count }

def addScript (t : Transport) (s : Script) : Transport := { t with scripts := t.scripts ++ [s] }

/-- The events of the first script that a command sets off, and the other scripts. -/
def takeScript (command : Bytes) : List Script → Option (List LinkEvent × List Script)
  | [] => none
  | s :: rest =>
    if s.start.isPrefixOf command then some (s.events, rest)
    else (takeScript command rest).map fun (events, others) => (events, s :: others)

/-- How many events are prepared. -/
def prepared (t : Transport) : Nat := sumCounts (t.scripts.map fun s => s.events.length)

/-- A command that was not refused. -/
def forward (t : Transport) (command : Bytes) : Except Fault (List LinkEvent) × Transport :=
  match takeScript command t.scripts with
  | some (events, others) => (.ok events, { t with scripts := others })
  | none =>
    match t.board with
    | none => (.ok [], t)
    | some b =>
      if b.connected then
        let (events, b) := b.handle command
        (.ok events, { t with board := some b })
      else (.error (.transport "mock device is disconnected"), t)

/-- Write a command; answers the events that come back at once. -/
def write (t : Transport) (command : Bytes) : Except Fault (List LinkEvent) × Transport :=
  let t := { t with sent := t.sent ++ [command] }
  if t.refuse = 0 then t.forward command
  else if t.skip = 0 then
    (.error (.transport "injected write failure"), { t with refuse := t.refuse - 1 })
  else { t with skip := t.skip - 1 }.forward command

/-- The transport with its board changed. -/
def mapBoard (t : Transport) (f : SimulatedBoard → SimulatedBoard) : Transport :=
  { t with board := t.board.map f }

end Transport
end SignalRoute
