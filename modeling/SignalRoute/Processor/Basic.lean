import SignalRoute.Processor.Mode

/-!
# Processors

A processor is one on-board stage: it takes a signal, and what it does with it is told by its
configuration.  There is one structure per kind of processor, and `Processor` is their sum.  Widths
are in bytes.  Nothing here restricts a field to what its encoding can hold; the route builder does
that.

The fields are those of the encoding, and not those that a user thinks in.  A low-pass and a
high-pass are one kind of processor with a flag; an accumulator that counts is one with another
flag; a reference of a comparison is a word, whatever its width on the wire.  So there are more
processors than configurations, and `Proofs.Codec.Canonical` says which processors survive being
written.

A comparison has two forms, because boards with older firmware compare against one reference only.
-/

set_option autoImplicit false

namespace SignalRoute

/-- Lets samples through, all of them or as long as its counter says. -/
structure Passthrough where
  mode : PassMode
  value : UInt16
deriving DecidableEq, Repr, Inhabited

/-- Adds up its input, or counts its samples. -/
structure Accumulator where
  counter : Bool
  output : UInt8
  input : UInt8
deriving DecidableEq, Repr, Inhabited

/-- A running average, or the deviation from it. -/
structure Average where
  size : UInt8
  samples : UInt8
  highPass : Bool
  /-- The number of channels, on boards that ask for it. -/
  channels : Option UInt8
deriving DecidableEq, Repr, Inhabited

/-- Compares with one reference. -/
structure SingleComparison where
  signed : Bool
  op : ComparisonOp
  reference : Int64
deriving DecidableEq, Repr, Inhabited

/-- Compares with several references. -/
structure MultiComparison where
  signed : Bool
  size : UInt8
  op : ComparisonOp
  mode : ComparisonMode
  references : List Int64
deriving DecidableEq, Repr, Inhabited

/-- Combines the channels of a vector into one number. -/
structure Combiner where
  output : UInt8
  input : UInt8
  channels : UInt8
  signed : Bool
  mode : CombinerMode
deriving DecidableEq, Repr, Inhabited

/-- Lets a sample through once per period. -/
structure TimeLimit where
  size : UInt8
  mode : LimitMode
  period : UInt32
deriving DecidableEq, Repr, Inhabited

/-- Applies an operation with a fixed operand. -/
structure Arithmetic where
  output : UInt8
  input : UInt8
  signed : Bool
  op : MathOp
  rhs : Int32
  /-- The number of channels, on boards that ask for it. -/
  channels : Option UInt8
deriving DecidableEq, Repr, Inhabited

/-- Emits the sample that came `samples` before. -/
structure Delay where
  size : UInt8
  samples : UInt8
  /-- Does the board delay more than four bytes? -/
  expanded : Bool
deriving DecidableEq, Repr, Inhabited

/-- Looks for samples that stay above a threshold. -/
structure Pulse where
  size : UInt8
  mode : PulseMode
  threshold : Int32
  width : UInt16
deriving DecidableEq, Repr, Inhabited

/-- Looks for samples that move by a distance. -/
structure Differential where
  size : UInt8
  signed : Bool
  mode : DifferentialMode
  distance : UInt32
deriving DecidableEq, Repr, Inhabited

/-- Looks for samples that cross a boundary. -/
structure Threshold where
  size : UInt8
  signed : Bool
  mode : ThresholdMode
  boundary : Int32
  hysteresis : UInt16
deriving DecidableEq, Repr, Inhabited

/-- Keeps the last sample, to be read or fused. -/
structure Buffer where
  size : UInt8
deriving DecidableEq, Repr, Inhabited

/-- Packs samples into one notification. -/
structure Packer where
  size : UInt8
  count : UInt8
deriving DecidableEq, Repr, Inhabited

/-- Puts a count or a time before its data. -/
structure Accounter where
  mode : AccountMode
  /-- The width of what is put before the data. -/
  size : UInt8
deriving DecidableEq, Repr, Inhabited

/-- Puts the contents of buffers behind its data. -/
structure Fuser where
  /-- The ids of the buffers. -/
  ids : List UInt8
deriving DecidableEq, Repr, Inhabited

/-- A processor, by what it does. -/
inductive Processor where
  | passthrough (c : Passthrough)
  | accumulator (c : Accumulator)
  | average (c : Average)
  | single (c : SingleComparison)
  | multi (c : MultiComparison)
  | combiner (c : Combiner)
  | time (c : TimeLimit)
  | math (c : Arithmetic)
  | delay (c : Delay)
  | pulse (c : Pulse)
  | differential (c : Differential)
  | threshold (c : Threshold)
  | buffer (c : Buffer)
  | packer (c : Packer)
  | accounter (c : Accounter)
  | fuser (c : Fuser)
deriving DecidableEq, Repr, Inhabited

namespace Processor

/-- The first byte of a configuration, which tells the kind of processor.  The two forms of a
comparison share theirs. -/
def tag : Processor → UInt8
  | passthrough _ => 0x01
  | accumulator _ => 0x02
  | average _ => 0x03
  | single _ | multi _ => 0x06
  | combiner _ => 0x07
  | time _ => 0x08
  | math _ => 0x09
  | delay _ => 0x0a
  | pulse _ => 0x0b
  | differential _ => 0x0c
  | threshold _ => 0x0d
  | buffer _ => 0x0f
  | packer _ => 0x10
  | accounter _ => 0x11
  | fuser _ => 0x1b

/-- The name of a processor in the identifiers of its signals. -/
def label : Processor → String
  | passthrough _ => "passthrough"
  | accumulator c => if c.counter then "count" else "accumulate"
  | average c => if c.highPass then "high-pass" else "low-pass"
  | single _ | multi _ => "comparison"
  | combiner c =>
    match c.mode with
    | .rms => "rms"
    | .rss => "rss"
  | time _ => "time"
  | math _ => "math"
  | delay _ => "delay"
  | pulse _ => "pulse"
  | differential _ => "differential"
  | threshold _ => "threshold"
  | buffer _ => "buffer"
  | packer _ => "packer"
  | accounter _ => "account"
  | fuser _ => "fuser"

/-- Where the operand that feedback replaces lies in the encoded configuration. -/
def operandOffset? : Processor → Option Nat
  | math _ => some 3
  | single _ => some 4
  | multi _ => some 2
  | _ => none

end Processor
end SignalRoute
