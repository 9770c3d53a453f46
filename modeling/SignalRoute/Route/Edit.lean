import SignalRoute.Route.Realize

/-!
# Editing processors on the board

Most processors can be changed while they run: their configuration is replaced as a whole, or their
state is.  `Editor.change?` says what an edit amounts to, as a function of the editor alone;
`Editor.apply` writes it to the board.  The configuration that the host remembers follows the
board's: it changes when the write went out, and not before.

An edit is checked against the kind of processor and not against the route: what an editor writes
may be a configuration that the route builder would have refused, or one whose output the host
describes otherwise.  The signal of the processor stays as it was inferred when the route was built.
-/

set_option autoImplicit false

namespace SignalRoute

/-- Something to change about a processor. -/
inductive Edit where
  /-- Start over: a sum or a count from zero, an average without samples. -/
  | reset
  /-- Another sum or count. -/
  | total (x : Float32)
  /-- Another number of samples. -/
  | samples (n : UInt8)
  /-- Another relation and other references. -/
  | references (op : ComparisonOp) (xs : List Float32)
  /-- Another operand. -/
  | operand (x : Float32)
  /-- Another period, in milliseconds. -/
  | period (ms : UInt32)
  /-- Another mode and another counter. -/
  | pass (mode : PassMode) (value : UInt16)
  /-- Another counter, without touching the configuration. -/
  | passNow (value : UInt16)
  /-- Another threshold and width of pulses. -/
  | pulse (threshold : Float32) (width : UInt16)
  /-- Another boundary and hysteresis. -/
  | boundary (boundary hysteresis : Float32)
  /-- Another distance. -/
  | distance (x : Float32)
  /-- Drop what has been packed so far. -/
  | clear
deriving Inhabited

/-- What an edit writes. -/
inductive Change where
  | config (p : Processor)
  | state (bytes : Bytes)
deriving Inhabited

/-- An opened processor: its id, its configuration as last written, and its output. -/
structure Editor where
  id : UInt8
  processor : Processor
  output : Signal
deriving Inhabited

namespace Editor

/-- Can a kind of processor be edited? -/
def isEditable : Processor → Bool
  | .combiner _ | .buffer _ | .accounter _ | .fuser _ => false
  | _ => true

/-- Open a processor. -/
def ofEntry (e : ProcessorEntry) : Except Fault Editor :=
  if isEditable e.processor then .ok ⟨e.id, e.processor, e.output⟩
  else
    illegal (e.processor.label ++ " processor " ++ toString e.id.toNat ++ " has no editor")

/-- The scale of the signal that the processor reads. -/
def inputScale (e : Editor) : Float32 :=
  match e.output.input with
  | some s => s.scale
  | none => 1

/-- A number in units of the firmware, for the signal that the processor reads. -/
def units (e : Editor) (x : Float32) : Int32 := toUnits e.inputScale x

/-- The references of a comparison, as they are sent. -/
def references (e : Editor) (xs : List Float32) : List Int64 := xs.map fun x => (e.units x).toInt64

/-- The operand of an operation, as it is sent. -/
def operand (e : Editor) (op : MathOp) (x : Float32) : Int32 :=
  match op with
  | .add | .subtract | .modulus | .constant => e.units x
  | _ => nearest x

/-- The bytes of a sum, as they are sent.  A sum has at most eight. -/
def totalBytes (e : Editor) (width : UInt8) (x : Float32) : Except Fault Bytes :=
  if width ≤ 8 then
    .ok ((leBytes 8 (x * e.output.scale).round.toInt64.toUInt64).take width.toNat)
  else .error .overrun

/-- What an edit amounts to.  An edit that is not for the kind of processor is refused. -/
def change? (e : Editor) (edit : Edit) : Except Fault Change :=
  match e.processor, edit with
  | .accumulator c, .reset => .ok (.state (List.replicate c.output.toNat 0))
  | .accumulator c, .total x => do return .state (← e.totalBytes c.output x)
  | .average c, .samples n => .ok (.config (.average { c with samples := n }))
  | .average _, .reset => .ok (.state [])
  | .single c, .references op xs =>
    match e.references xs with
    | [r] => .ok (.config (.single { c with op := op, reference := r }))
    | _ => illegal "this firmware compares against exactly one reference"
  | .multi c, .references op xs =>
    match e.references xs with
    | [] => illegal "a comparison needs at least one reference"
    | rs => .ok (.config (.multi { c with op := op, references := rs }))
  | .math c, .operand x => .ok (.config (.math { c with rhs := e.operand c.op x }))
  | .delay c, .samples n => .ok (.config (.delay { c with samples := n }))
  | .time c, .period ms => .ok (.config (.time { c with period := ms }))
  | .passthrough _, .pass mode value => .ok (.config (.passthrough ⟨mode, value⟩))
  | .passthrough _, .passNow value => .ok (.state (leBytes 2 value.toUInt64))
  | .pulse c, .pulse x width =>
    .ok (.config (.pulse { c with threshold := e.units x, width := width }))
  | .threshold c, .boundary x h =>
    .ok (.config (.threshold
      { c with boundary := e.units x, hysteresis := clampToWord (e.units h) }))
  | .differential c, .distance x =>
    .ok (.config (.differential { c with distance := clampToUnsigned (e.units x) }))
  | .packer _, .clear => .ok (.state [])
  | p, _ => illegal ("no such edit of a " ++ p.label ++ " processor")

/-- The command that a change is sent in. -/
def command (e : Editor) : Change → Except Fault Bytes
  | .config p => do return [Module.processor, ProcessorReg.parameter, e.id] ++ (← p.payload)
  | .state bytes => .ok ([Module.processor, ProcessorReg.state, e.id] ++ bytes)

/-- The editor after a change went out. -/
def written (e : Editor) : Change → Editor
  | .config p => { e with processor := p }
  | .state _ => e

/-- The graph after a change went out. -/
def remember (e : Editor) (g : Graph) : Change → Graph
  | .config p => g.setProcessor e.id p
  | .state _ => g

/-- An edit as a change and the command that carries it. -/
def prepare (e : Editor) (edit : Edit) : Except Fault (Change × Bytes) := do
  let change ← e.change? edit
  return (change, ← e.command change)

/-- Write an edit to the board, connected or not, and remember the configuration. -/
def apply (e : Editor) (edit : Edit) : ExceptT Fault (StateM Station) Editor := fun station =>
  match e.prepare edit with
  | .error fault => (.error fault, station)
  | .ok (change, bytes) =>
    match Link.write bytes station.link with
    | (.error fault, link) => (.error fault, { station with link := link })
    | (.ok _, link) => (.ok (e.written change), ⟨link, e.remember station.graph change⟩)

end Editor
end SignalRoute
