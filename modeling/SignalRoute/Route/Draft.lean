import SignalRoute.Route.Plan
import SignalRoute.Route.Stage

/-!
# Drafting a route

A draft is a plan in the making, together with what is needed to go on with it: the names that are
taken, on the board and in the plan, and the branches that are still open.

Drafting operations take a cursor to the next one.  They live in `Drafting`, which keeps the draft
also when an operation fails, so that what a failed operation leaves behind can be talked about.

An operation first asks and then changes: all checks come before the first change of the draft, and
the changes cannot fail.  This is why a failed operation leaves nothing behind.  `Drafting.push`,
through which every stage is added, has a check of its own, that something can be inferred for the
processor, and makes it first; so the operations that change something else besides a stage do so
behind their `push`.

Names are looked up while a route is drafted, first among its own stages and then on the board.
What a lookup finds is kept as a `NamedRef`, because a stage of the plan has no id yet.
-/

set_option autoImplicit false

namespace SignalRoute

/-- A named processor that the board already has. -/
structure KnownProcessor where
  name : String
  id : UInt8
  output : Signal
  state : Option Signal
  isBuffer : Bool
deriving Inhabited

/-- How a branch was opened. -/
inductive BranchKind where
  /-- All branches start at the same signal. -/
  | multicast
  /-- Each branch starts at a part of the signal. -/
  | split
deriving DecidableEq, Repr, Inhabited

/-- An open branch, with the cursor that it goes back to. -/
structure Branch where
  kind : BranchKind
  anchor : Cursor
deriving Inhabited

/-- A plan in the making. -/
structure Draft where
  device : Device
  /-- The named processors on the board; of two with one name the later counts. -/
  known : List KnownProcessor
  /-- The stages that have names. -/
  names : List (String × Nat)
  /-- The open branches, innermost first. -/
  branches : List Branch
  plan : Plan
deriving Inhabited

/-- An operation on a draft. -/
abbrev Drafting := ExceptT Fault (StateM Draft)

namespace Draft

/-- A draft with nothing in it. -/
def start (device : Device) (known : List KnownProcessor) : Draft :=
  ⟨device, known, [], [], .empty⟩

/-- The stage of a name. -/
def named? (d : Draft) (name : String) : Option Nat :=
  (d.names.find? fun e => e.1 == name).map Prod.snd

/-- The processor on the board with a name. -/
def known? (d : Draft) (name : String) : Option KnownProcessor :=
  d.known.reverse.find? fun k => k.name == name

def noProducer {α : Type} (name : String) : Except Fault α :=
  illegal ("no producer named '" ++ name ++ "'")

def notBuffer {α : Type} (name : String) : Except Fault α :=
  illegal ("'" ++ name ++ "' is not a buffer")

/-- The processor of a name and what it puts out; the plan's names come first. -/
def lookup (d : Draft) (name : String) : Except Fault (NamedRef × Signal) :=
  match (d.named? name).bind fun i => (d.plan.stages[i]?).map fun s => (i, s) with
  | some (i, stage) => .ok (.planned i, stage.output)
  | none =>
    match d.known? name with
    | some k => .ok (.realized k.id, k.output)
    | none => noProducer name

/-- The buffer of a name and what it keeps. -/
def lookupBuffer (d : Draft) (name : String) : Except Fault (NamedRef × Signal) :=
  match (d.named? name).bind fun i => (d.plan.stages[i]?).map fun s => (i, s) with
  | some (i, stage) =>
    match stage.processor, stage.state with
    | .buffer _, some state => .ok (.planned i, state)
    | _, _ => notBuffer name
  | none =>
    match d.known? name with
    | some k =>
      match k.isBuffer, k.state with
      | true, some state => .ok (.realized k.id, state)
      | _, _ => notBuffer name
    | none => noProducer name

/-- The draft with a stage added. -/
def addStage (d : Draft) (stage : PlannedStage) : Draft :=
  { d with plan := { d.plan with stages := d.plan.stages ++ [stage] } }

/-- The draft with operands fed. -/
def addFeedback (d : Draft) (feedback : List Feedback) : Draft :=
  { d with plan := { d.plan with feedback := d.plan.feedback ++ feedback } }

def addReaction (d : Draft) (reaction : Reaction) : Draft :=
  { d with plan := { d.plan with reactions := d.plan.reactions ++ [reaction] } }

def addStream (d : Draft) (cursor : Cursor) : Draft :=
  { d with plan := { d.plan with streams := d.plan.streams ++ [cursor] } }

def addLog (d : Draft) (cursor : Cursor) : Draft :=
  { d with plan := { d.plan with logs := d.plan.logs ++ [cursor] } }

def openBranch (d : Draft) (branch : Branch) : Draft :=
  { d with branches := branch :: d.branches }

/-- The draft with a name for stage `i`. -/
def nameStage (d : Draft) (i : Nat) (name : String) : Draft :=
  { d with
    names := (name, i) :: d.names
    plan := { d.plan with
      stages := d.plan.stages.modify i fun s => { s with name := some name } } }

end Draft

/-! ## Operations on drafts

The processor that an operation puts behind a cursor is chosen by a function of the device and the
signal (`Route.Stage`).  What is left for the operation are the references into the plan: feedback,
fused buffers, names and branches.
-/

namespace Drafting

/-- Refuse to go on. -/
def refuse {α : Type} (reason : String) : Drafting α := throw (.illegalRoute reason)

/-- Take over the outcome of a check. -/
def check {α : Type} (outcome : Except Fault α) : Drafting α :=
  match outcome with
  | .ok a => pure a
  | .error fault => throw fault

/-- Ask a question about the draft. -/
def ask {α : Type} (question : Draft → α) : Drafting α := do return question (← get)

/-- Put a processor behind a cursor. -/
def push (c : Cursor) (p : Processor) (buffers : List (NamedRef × Signal)) : Drafting Cursor := do
  let inferred ← check (infer c.signal p (buffers.map Prod.snd))
  let i ← ask fun d => d.plan.stages.length
  modify fun d =>
    d.addStage ⟨c, p, inferred.output, inferred.state, none, buffers.map Prod.fst⟩
  return ⟨inferred.output, some i⟩

/-- Put the processor of a check behind a cursor. -/
def stage (c : Cursor) (choice : Device → Signal → Except Fault Processor) : Drafting Cursor := do
  let p ← check (choice (← ask Draft.device) c.signal)
  push c p []

/-- A comparison with operands in the signal's units. -/
def filter (c : Cursor) (op : ComparisonOp) (mode : ComparisonMode) (references : List Float32) :
    Drafting Cursor :=
  stage c fun d s =>
    s.comparing d op mode (references.map fun x => (toUnits s.scale x).toInt64)

/-- Where the references of a comparison lie behind its id, and how wide they are. -/
def referenceSlots : Processor → UInt8 × UInt8
  | .multi c => (3, c.size)
  | _ => (5, 4)

/-- The feedback of producers into operands of one stage, the first at `offset`, each `width` bytes
behind the one before. -/
def feeds (stage : Nat) (offset width : UInt8) : List (NamedRef × Signal) → List Feedback
  | [] => []
  | (producer, signal) :: rest =>
    ⟨producer, signal, stage, offset⟩ :: feeds stage (offset + width) width rest

/-- A comparison whose references are fed from named processors. -/
def filterNamed (c : Cursor) (op : ComparisonOp) (names : List String) : Drafting Cursor := do
  if names.isEmpty then refuse "filter needs at least one reference"
  let d ← get
  let producers ← check (names.mapM d.lookup)
  let p ← check (c.signal.comparing d.device op .absolute (names.map fun _ => 0))
  let next ← push c p []
  let (offset, width) := referenceSlots p
  modify fun d' => d'.addFeedback (feeds d.plan.stages.length offset width producers)
  return next

/-- An arithmetic operation with an operand in the signal's units. -/
def map (c : Cursor) (op : MathOp) (rhs : Float32) : Drafting Cursor :=
  stage c fun d s =>
    let (op, rhs) := mathOperand s.scale op rhs
    s.computing d op rhs

/-- An arithmetic operation whose operand is fed from a named processor.  A command has the id of the
stage in front of the configuration, so the operand is one byte further on. -/
def mapNamed (c : Cursor) (op : MathOp) (name : String) : Drafting Cursor := do
  let d ← get
  let producer ← check (d.lookup name)
  let p ← check (c.signal.computing d.device op 0)
  let offset := UInt8.ofNat (p.operandOffset?.getD 3)
  let next ← push c p []
  modify fun d' => d'.addFeedback (feeds d.plan.stages.length (1 + offset) 0 [producer])
  return next

/-- The total width of a signal and of those that are put behind it. -/
def fusedWidth (s : Signal) (states : List Signal) : Nat :=
  s.shape.length.toNat + sumCounts (states.map fun x => x.shape.length.toNat)

/-- The id of a buffer in a fuser's configuration; stages of the plan have none yet. -/
def fusedId : NamedRef → UInt8
  | .realized id => id
  | .planned _ => noId

/-- The contents of named buffers behind the data. -/
def fuse (c : Cursor) (names : List String) : Drafting Cursor := do
  let d ← get
  if !d.device.fuser then refuse "fuse requires processor revision 3"
  check (c.signal.requireData "fuse")
  if names.isEmpty then refuse "fuse needs at least one buffer"
  let buffers ← check (names.mapM d.lookupBuffer)
  let total := fusedWidth c.signal (buffers.map Prod.snd)
  if maxPayload < total then refuse ("fused signal would be " ++ toString total ++ " bytes")
  push c (.fuser ⟨buffers.map fun b => fusedId b.1⟩) buffers

/-- A name for the stage at a cursor. -/
def name (c : Cursor) (name : String) : Drafting Cursor := do
  match c.stage with
  | none => refuse ("'" ++ name ++ "' can only name a processing stage")
  | some i =>
    let d ← get
    if (d.named? name).isSome || (d.known? name).isSome then
      refuse ("name '" ++ name ++ "' is already in use")
    match (d.plan.stages[i]?).bind PlannedStage.name with
    | some earlier => refuse ("stage is already named '" ++ earlier ++ "'")
    | none =>
      modify fun d => d.nameStage i name
      return c

/-- Commands for the board to run on every sample. -/
def react (c : Cursor) (commands : List Command) : Drafting Cursor := do
  if commands.isEmpty then refuse "react block recorded no commands"
  modify fun d => d.addReaction ⟨c, commands⟩
  return c

/-- A live subscription. -/
def stream (c : Cursor) : Drafting Cursor := do
  modify fun d => d.addStream c
  return c

/-- A log on the board. -/
def log (c : Cursor) : Drafting Cursor := do
  if c.signal.shape.isEmpty then refuse "cannot log a null-length signal"
  modify fun d => d.addLog c
  return c

/-- Open branches that start here. -/
def multicast (c : Cursor) : Drafting Cursor := do
  modify fun d => d.openBranch ⟨.multicast, c⟩
  return c

/-- Start a branch of the innermost multicast. -/
def branch : Drafting Cursor := do
  match (← get).branches with
  | ⟨.multicast, anchor⟩ :: _ => return anchor
  | _ => refuse "to() without a matching multicast()"

/-- Open branches for the parts of a signal. -/
def split (c : Cursor) : Drafting Cursor := do
  if c.signal.parts.isEmpty then refuse "cannot split a signal without components"
  modify fun d => d.openBranch ⟨.split, c⟩
  return c

/-- Start the branch of part `i` of the innermost split. -/
def part (i : Nat) : Drafting Cursor := do
  match (← get).branches with
  | ⟨.split, anchor⟩ :: _ =>
    match anchor.signal.parts[i]? with
    | some s => return ⟨s, anchor.stage⟩
    | none =>
      refuse ("index " ++ toString i ++ " out of range, signal has " ++
        toString anchor.signal.parts.length ++ " components")
  | _ => refuse "index() without a matching split()"

/-- Close the innermost multicast or split, and go back to where it was opened. -/
def close : Drafting Cursor := do
  match (← get).branches with
  | b :: rest =>
    modify fun d => { d with branches := rest }
    return b.anchor
  | [] => refuse "end() without an open multicast or split"

end Drafting
end SignalRoute
