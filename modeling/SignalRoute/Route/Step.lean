import SignalRoute.Route.Draft

/-!
# Route expressions

A route is written as a list of steps from a starting signal on.  `Step.apply` is what one step does
to the cursor and the draft; `Step.run` applies steps in turn and stops at the first that fails.

Each step names its operation and the arguments that a user gives, so an expression is data: it can
be compared, printed and made up, and a statement about all routes is one about all lists of steps.
-/

set_option autoImplicit false

namespace SignalRoute

/-- One step of a route. -/
inductive Step where
  | average (samples : UInt8)
  | lowPass (samples : UInt8)
  | highPass (samples : UInt8)
  | accumulate
  | count
  | filter (op : ComparisonOp) (references : List Float32)
  | filterMode (op : ComparisonOp) (mode : ComparisonMode) (references : List Float32)
  | filterNamed (op : ComparisonOp) (names : List String)
  | map (op : MathOp) (rhs : Float32)
  | mapNamed (op : MathOp) (name : String)
  | rms
  | rss
  | delay (samples : UInt8)
  | pulse (mode : PulseMode) (threshold : Float32) (width : UInt16)
  | threshold (mode : ThresholdMode) (boundary hysteresis : Float32)
  | differential (mode : DifferentialMode) (distance : Float32)
  | pack (count : UInt8)
  | account (mode : AccountMode)
  | buffer
  | fuse (names : List String)
  | limit (mode : PassMode) (value : UInt16)
  | limitPeriod (ms : UInt32)
  | name (name : String)
  | react (commands : List Command)
  | stream
  | log
  | multicast
  | branch
  | split
  | index (i : Nat)
  | close
deriving Inhabited

namespace Step

open Drafting in
/-- What a step does. -/
def apply (c : Cursor) : Step → Drafting Cursor
  | average n | lowPass n => stage c fun d s => s.averaging d n false
  | highPass n => stage c fun d s => s.highPassing d n
  | accumulate => stage c fun _ s => s.accumulating
  | count => push c c.signal.counting []
  | filter op references => Drafting.filter c op .absolute references
  | filterMode op mode references => Drafting.filter c op mode references
  | filterNamed op names => Drafting.filterNamed c op names
  | map op rhs => Drafting.map c op rhs
  | mapNamed op producer => Drafting.mapNamed c op producer
  | rms => stage c fun _ s => s.combining .rms
  | rss => stage c fun _ s => s.combining .rss
  | delay n => stage c fun d s => s.delaying d n
  | pulse mode level width => stage c fun _ s => s.findingPulse mode level width
  | threshold mode boundary hysteresis =>
    stage c fun _ s => s.findingThreshold mode boundary hysteresis
  | differential mode distance => stage c fun _ s => s.findingDifferential mode distance
  | pack n => stage c fun _ s => s.packing n
  | account mode => stage c fun _ s => s.accounting mode
  | buffer => stage c fun _ s => s.buffering
  | fuse names => Drafting.fuse c names
  | limit mode value => push c (.passthrough ⟨mode, value⟩) []
  | limitPeriod ms => stage c fun _ s => s.limitingPeriod ms
  | name n => Drafting.name c n
  | react commands => Drafting.react c commands
  | stream => Drafting.stream c
  | log => Drafting.log c
  | multicast => Drafting.multicast c
  | branch => Drafting.branch
  | split => Drafting.split c
  | index i => Drafting.part i
  | close => Drafting.close

/-- Apply steps in turn. -/
def run (c : Cursor) : List Step → Drafting Cursor
  | [] => pure c
  | step :: rest => do
    let next ← apply c step
    run next rest

end Step
end SignalRoute
