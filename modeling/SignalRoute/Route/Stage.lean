import SignalRoute.Board.Device
import SignalRoute.Signal.Infer

/-!
# Which stage a signal can have

Each function here answers whether a processor can be put behind a signal on a given board, and with
what configuration.  Nothing else of the route matters, so these are functions of the board and the
signal alone.

Operands are given in the signal's units and sent in those of the firmware: `toUnits` multiplies
with the signal's scale and rounds, a half away from zero, and stops at the ends of 32 bits.

The checks are those that the program makes, and no more.  They are about widths and channels, and
about the width of what a packer or an accounter would put out; other numbers, such as the
references of a comparison or how many samples are averaged, are taken as they are.  Which
configurations come through is therefore a question of its own, and so is what the board makes of
them (`Proofs.Route.Choice`).
-/

set_option autoImplicit false

namespace SignalRoute

/-- A route that may not go on as asked. -/
def illegal {α : Type} (reason : String) : Except Fault α := .error (.illegalRoute reason)

/-- The widths of the channels in a fault. -/
def sizesText (sizes : List UInt8) : String :=
  "[" ++ ", ".intercalate (sizes.map fun n => toString n.toNat) ++ "]"

/-! ## Operands -/

/-- The nearest 32-bit integer. -/
def nearest (x : Float32) : Int32 := x.round.toInt32

/-- A number in units of the firmware. -/
def toUnits (scale x : Float32) : Int32 := nearest (x * scale)

/-- A number of at most 16 bits, negative ones counted as zero. -/
def clampToWord (n : Int32) : UInt16 :=
  if n < 0 then 0 else if 65535 < n then 65535 else n.toUInt32.toUInt16

/-- A number of 32 bits, negative ones counted as zero. -/
def clampToUnsigned (n : Int32) : UInt32 := if n < 0 then 0 else n.toUInt32

/-- An operation and its operand as they are sent.  A factor between -1 and 1 would be lost to
rounding, so multiplying by it divides by its inverse, and the other way round.  Sums and remainders
are in the signal's units; other operands are plain numbers. -/
def mathOperand (scale : Float32) (op : MathOp) (rhs : Float32) : MathOp × Int32 :=
  let small := rhs != 0 && rhs.abs < 1
  match op with
  | .multiply => if small then (.divide, nearest (1 / rhs)) else (op, nearest rhs)
  | .divide => if small then (.multiply, nearest (1 / rhs)) else (op, nearest rhs)
  | .add | .subtract | .modulus | .constant => (op, toUnits scale rhs)
  | _ => (op, nearest rhs)

namespace Signal

/-! ## What a stage asks of its input -/

/-- There must be data. -/
def requireData (s : Signal) (what : String) : Except Fault Unit :=
  if s.shape.isEmpty then illegal ("cannot apply " ++ what ++ " to a null-length signal")
  else .ok ()

/-- There must be one channel of at most four bytes; answers its width. -/
def requireScalar (s : Signal) (what : String) : Except Fault UInt8 := do
  s.requireData what
  if s.shape.channels ≠ 1 ∨ 4 < s.shape.length then
    illegal (what ++ " needs a single channel of at most 4 bytes, got " ++ sizesText s.shape.sizes)
  else return s.shape.length

/-- The width of the first channel. -/
def firstSize (s : Signal) : UInt8 := s.shape.sizes.head?.getD 0

/-- Are all channels as wide as the first, and no wider than four bytes? -/
def isUniform (s : Signal) : Bool :=
  s.firstSize ≤ 4 && s.shape.sizes.all fun n => n == s.firstSize

/-! ## Stages -/

/-- A running average.  Boards that know high-pass averages take up to eight like channels; others
take four bytes, whatever they are. -/
def averaging (d : Device) (s : Signal) (samples : UInt8) (highPass : Bool) :
    Except Fault Processor := do
  s.requireData "an average"
  if d.highPass then
    if !s.isUniform || 8 < s.shape.channels then
      illegal ("cannot average channels of sizes " ++ sizesText s.shape.sizes)
    else
      return .average ⟨s.firstSize, samples, highPass, some (UInt8.ofNat s.shape.channels)⟩
  else
    if 4 < s.shape.length then
      illegal "averaging more than 4 bytes requires processor revision 2"
    else return .average ⟨s.shape.length, samples, false, none⟩

/-- The deviation from a running average. -/
def highPassing (d : Device) (s : Signal) (samples : UInt8) : Except Fault Processor :=
  if d.highPass then s.averaging d samples true
  else illegal "high-pass filtering requires processor revision 2"

/-- A running sum. -/
def accumulating (s : Signal) : Except Fault Processor := do
  let size ← s.requireScalar "accumulate"
  return .accumulator ⟨false, 4, size⟩

/-- A count of the samples. -/
def counting (s : Signal) : Processor :=
  .accumulator ⟨true, 4, max 1 (min s.shape.length 4)⟩

/-- A comparison with references in units of the firmware. -/
def comparing (d : Device) (s : Signal) (op : ComparisonOp) (mode : ComparisonMode)
    (references : List Int64) : Except Fault Processor := do
  let size ← s.requireScalar "a comparison"
  match references with
  | [] => illegal "filter needs at least one reference"
  | first :: others =>
    if d.multiComparison then return .multi ⟨s.shape.signed, size, op, mode, first :: others⟩
    else if others ≠ [] ∨ mode ≠ .absolute then
      illegal "multi-reference and zone/binary comparisons require firmware 1.2.3"
    else return .single ⟨s.shape.signed, op, first⟩

/-- An arithmetic operation with an operand as it is sent. -/
def computing (d : Device) (s : Signal) (op : MathOp) (rhs : Int32) : Except Fault Processor := do
  s.requireData "math"
  if 1 < s.shape.channels ∧ d.multiChannelMath = false then
    illegal "math on multi-channel signals requires processor revision 2"
  else if !s.isUniform then
    illegal ("math needs channels of at most 4 bytes, got " ++ sizesText s.shape.sizes)
  else
    let channels := if d.multiChannelMath then some (UInt8.ofNat s.shape.channels) else none
    return .math ⟨op.outputSize s.firstSize rhs, s.firstSize, s.shape.signed, op, rhs, channels⟩

/-- The channels of a vector in one number. -/
def combining (s : Signal) (mode : CombinerMode) : Except Fault Processor := do
  s.requireData "rms/rss"
  if s.shape.channels < 2 then illegal "rms/rss requires a multi-channel signal"
  else
    return .combiner ⟨s.firstSize, s.firstSize, UInt8.ofNat s.shape.channels, s.shape.signed, mode⟩

/-- The sample that came `samples` before. -/
def delaying (d : Device) (s : Signal) (samples : UInt8) : Except Fault Processor := do
  s.requireData "a delay"
  let limit : UInt8 := if d.expandedDelay then 16 else 4
  if limit < s.shape.length then
    illegal ("cannot delay " ++ toString s.shape.length.toNat ++ " bytes, limit is " ++
      toString limit.toNat)
  else return .delay ⟨s.shape.length, samples, d.expandedDelay⟩

/-- Pulses above a threshold. -/
def findingPulse (s : Signal) (mode : PulseMode) (threshold : Float32) (width : UInt16) :
    Except Fault Processor := do
  let size ← s.requireScalar "pulse detection"
  return .pulse ⟨size, mode, toUnits s.scale threshold, width⟩

/-- Crossings of a boundary. -/
def findingThreshold (s : Signal) (mode : ThresholdMode) (boundary hysteresis : Float32) :
    Except Fault Processor := do
  let size ← s.requireScalar "threshold detection"
  return .threshold ⟨size, s.shape.signed, mode, toUnits s.scale boundary,
    clampToWord (toUnits s.scale hysteresis)⟩

/-- Moves by a distance. -/
def findingDifferential (s : Signal) (mode : DifferentialMode) (distance : Float32) :
    Except Fault Processor := do
  s.requireData "differential detection"
  if 4 < s.shape.length then
    illegal ("differential detection needs at most 4 bytes, got " ++
      toString s.shape.length.toNat)
  else
    return .differential ⟨s.shape.length, s.shape.signed, mode,
      clampToUnsigned (toUnits s.scale distance)⟩

/-- Samples packed into one notification. -/
def packing (s : Signal) (count : UInt8) : Except Fault Processor := do
  s.requireData "packing"
  let unit := s.shape.unitLength.toNat
  if count = 0 ∨ maxPayload < unit * count.toNat then
    illegal ("cannot pack " ++ toString count.toNat ++ " samples of " ++ toString unit ++ " bytes")
  else return .packer ⟨s.shape.length, count⟩

/-- A count or a time before the data, always four bytes wide. -/
def accounting (s : Signal) (mode : AccountMode) : Except Fault Processor := do
  s.requireData "an accounter"
  if maxPayload < s.shape.length.toNat + 4 then
    illegal ("cannot account a " ++ toString s.shape.length.toNat ++ "-byte signal")
  else return .accounter ⟨mode, 4⟩

/-- The last sample, kept. -/
def buffering (s : Signal) : Except Fault Processor := do
  s.requireData "a buffer"
  if 16 < s.shape.length then
    illegal ("cannot buffer " ++ toString s.shape.length.toNat ++ " bytes")
  else return .buffer ⟨s.shape.length⟩

/-- One sample per period. -/
def limitingPeriod (s : Signal) (period : UInt32) : Except Fault Processor := do
  s.requireData "a time limiter"
  if 8 < s.shape.length then
    illegal ("cannot time-limit " ++ toString s.shape.length.toNat ++ " bytes")
  else return .time ⟨s.shape.length, .absolute, period⟩

end Signal
end SignalRoute
