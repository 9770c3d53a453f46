import SignalRoute.Signal.Infer

/-!
# Route plans

A plan lists what a route needs on the board, in the order in which it was asked for: processors,
commands to run when a signal comes in, operands fed from other signals, live streams and logs.

A plan is made before the board has given out any id.  So a cursor says where its signal will come
from: a sensor or a processor that the board already has, or a stage of the plan, by its position.

The lists of a plan refer to stages by position, and so does everything that is drafted later to
what was drafted earlier.  Nothing in the types says that a position lies in the list, or before the
stage that refers to it; it is an invariant of drafting (`Plan.Backward`, in
`Proofs.Route.Backward`) that programming relies on.
-/

set_option autoImplicit false

namespace SignalRoute

/-- A signal while a route is being planned. -/
structure Cursor where
  signal : Signal
  /-- The stage that puts the signal out; none for what the board already has. -/
  stage : Option Nat
deriving Inhabited

/-- A named processor. -/
inductive NamedRef where
  /-- On the board, with its id. -/
  | realized (id : UInt8)
  /-- A stage of the same plan. -/
  | planned (stage : Nat)
deriving DecidableEq, Repr, Inhabited

/-- A processor to be created. -/
structure PlannedStage where
  source : Cursor
  processor : Processor
  output : Signal
  state : Option Signal
  name : Option String
  /-- The buffers that a fuser reads, in its order. -/
  fuse : List NamedRef
deriving Inhabited

/-- A command of the board: a module, a register and what goes there. -/
structure Command where
  module : UInt8
  register : UInt8
  payload : Bytes
deriving DecidableEq, Repr, Inhabited

def Command.toBytes (c : Command) : Bytes := c.module :: c.register :: c.payload

/-- Commands that the board runs whenever a signal comes in. -/
structure Reaction where
  source : Cursor
  commands : List Command
deriving Inhabited

/-- A signal that the board writes into the operand of a stage. -/
structure Feedback where
  producer : NamedRef
  signal : Signal
  stage : Nat
  /-- Where the operand lies behind the id of the processor. -/
  offset : UInt8
deriving Inhabited

/-- What a route needs on the board. -/
structure Plan where
  stages : List PlannedStage
  reactions : List Reaction
  feedback : List Feedback
  streams : List Cursor
  logs : List Cursor
deriving Inhabited

namespace Plan

def empty : Plan := ⟨[], [], [], [], []⟩

end Plan
end SignalRoute
