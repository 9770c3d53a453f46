import SignalRoute.Signal.Node

/-!
# What a processor puts out

`infer` derives the output of a processor, and its state if it has one to read, from the signal that
feeds it and from its configuration alone.  So a route that is read back from the board gets the
signals that it had when it was built.

The shape of the output is either that of the input, a single small number, or something that the
configuration says; the kind follows the shape.

* What emits its samples as they came keeps shape and kind, from offset 0 on (`Inferred.unchanged`).
* What reports that something happened puts out a byte or two.
* Accumulators, arithmetic and packers take a width or a number of copies from their configuration;
  arithmetic takes the sign from its operation and its operand.
* Accounters and fusers put several signals behind each other, which become the parts of the output
  (`stacked`).

A fuser is the only processor that reads more than its input, so the states of the buffers are
handed in as a list.  All else is a function of the input and the configuration, without the device:
what the device had to say is in the configuration already.
-/

set_option autoImplicit false

namespace SignalRoute

/-- The output of a processor, and its state. -/
structure Inferred where
  output : Signal
  state : Option Signal
deriving Inhabited

namespace MathOp

/-- A width moved by whole bytes of shift, kept from 1 to 4. -/
def shiftedWidth (width : Int) : UInt8 := UInt8.ofNat (max 1 (min width 4)).toNat

/-- The width of the result for input channels of `size` bytes.  A multiplication by zero keeps the
width, and a division by zero takes four bytes. -/
def outputSize (op : MathOp) (size : UInt8) (rhs : Int32) : UInt8 :=
  match op with
  | .multiply => if rhs = 0 then size else 4
  | .divide => if rhs = 0 then 4 else size
  | .add | .exponent | .constant => 4
  | .leftShift => shiftedWidth ((size.toNat : Int) + rhs.toInt.tdiv 8)
  | .rightShift => shiftedWidth ((size.toNat : Int) - rhs.toInt.tdiv 8)
  | .modulus | .sqrt | .subtract | .absValue => size

/-- Is the result signed? -/
def outputSigned (op : MathOp) (signed : Bool) (rhs : Int32) : Bool :=
  match op with
  | .subtract => true
  | .absValue | .sqrt => false
  | .constant => rhs < 0
  | _ => signed || rhs < 0

end MathOp

/-- The kind of one number computed from a signal: scaled if the signal is. -/
def SignalKind.scalar : SignalKind → SignalKind
  | .vector scale | .float scale => .float scale
  | _ => .integer

/-- The signals behind each other, from `offset` on, and where the last one ends. -/
def stacked : UInt8 → List Signal → List Signal × UInt8
  | offset, [] => ([], offset)
  | offset, s :: rest =>
    let (placed, stop) := stacked (satAdd offset s.shape.length) rest
    (s.atOffset offset :: placed, stop)

namespace Inferred

/-- What `p`, fed by `input`, notifies. -/
def notifies (input : Signal) (p : Processor) (shape : Shape) (kind : SignalKind) : Signal :=
  .processed input p ProcessorReg.notify shape kind

/-- What `p`, fed by `input`, keeps. -/
def keeps (input : Signal) (p : Processor) (shape : Shape) (kind : SignalKind) : Signal :=
  .processed input p ProcessorReg.state shape kind

/-- A processor that emits what it gets. -/
def unchanged (input : Signal) (p : Processor) : Inferred :=
  ⟨notifies input p input.shape.rebased input.kind, none⟩

/-- A processor that only notifies. -/
def emitting (input : Signal) (p : Processor) (shape : Shape) (kind : SignalKind) : Inferred :=
  ⟨notifies input p shape kind, none⟩

end Inferred

open Inferred in
/-- The outputs of processor `p` fed by `input`.  For a fuser, `fused` are the states of the buffers
that it lists, in its order; no other processor looks at them. -/
def infer (input : Signal) (p : Processor) (fused : List Signal) : Except Fault Inferred :=
  let shape := input.shape
  match p with
  | .passthrough _ =>
    .ok ⟨notifies input p shape.rebased input.kind, some (keeps input p (.scalar 2 false) .integer)⟩
  | .accumulator c =>
    let kind := if c.counter then .integer else input.kind
    let sum := Shape.scalar c.output (!c.counter && shape.signed)
    .ok ⟨notifies input p sum kind, some (keeps input p sum kind)⟩
  | .average _ | .delay _ | .time _ | .single _ => .ok (unchanged input p)
  | .multi c =>
    match c.mode with
    | .absolute | .reference => .ok (unchanged input p)
    | .zone | .binary => .ok (emitting input p ((shape.withSize 1).withSign false) .integer)
  | .combiner _ =>
    .ok (emitting input p (.scalar (shape.sizes.head?.getD 0) false) input.kind.scalar)
  | .math c =>
    let result : Shape := ⟨List.replicate (max shape.channels 1) c.output, shape.copies, 0,
      c.op.outputSigned shape.signed c.rhs⟩
    match c.op with
    | .exponent => .ok (emitting input p result .bytes)
    | _ => .ok (emitting input p result input.kind)
  | .pulse c =>
    match c.mode with
    | .width => .ok (emitting input p (.scalar 2 false) .integer)
    | .area => .ok (emitting input p (shape.withSize 4) input.kind)
    | .peak => .ok (unchanged input p)
    | .onDetect => .ok (emitting input p (.scalar 1 false) .integer)
  | .differential c =>
    match c.mode with
    | .absolute => .ok (unchanged input p)
    | .differential => .ok (emitting input p (shape.withSign true) input.kind)
    | .binary => .ok (emitting input p (.scalar 1 true) .integer)
  | .threshold c =>
    match c.mode with
    | .absolute => .ok (unchanged input p)
    | .binary => .ok (emitting input p (.scalar 1 true) .integer)
  | .buffer _ =>
    .ok ⟨notifies input p .empty .integer, some (keeps input p shape.rebased input.kind)⟩
  | .packer c => .ok (emitting input p (shape.withCopies c.count) input.kind)
  | .accounter c =>
    let output := notifies input p ⟨[c.size, shape.length], 1, 0, false⟩ .accounted
    let lead := notifies input p (.scalar c.size false) .integer
    .ok ⟨{ output with parts := [lead, input.atOffset c.size] }, none⟩
  | .fuser c =>
    if fused.length ≠ c.ids.length then
      .error (.unsupportedTransform (spacedHex p.encode ++ " (fuses " ++ toString c.ids.length ++
        " buffers, " ++ toString fused.length ++ " known)"))
    else
      let (placed, stop) := stacked shape.length fused
      let output := notifies input p ⟨[stop], 1, 0, false⟩ .fused
      .ok ⟨{ output with parts := input.atOffset 0 :: placed }, none⟩

end SignalRoute
