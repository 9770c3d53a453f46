import SignalRoute.Processor.Basic

/-!
# Writing configurations

A configuration is the tag of its processor and then fields of fixed width, lowest byte first, some
of them sharing a byte.  Widths and counts are written less one, so that a field of `n` bits holds 1
to `2 ^ n`.

`Processor.encode` is total: it takes a width modulo the room of its field.  The only field without
such a bound is the width of a reference, which a reference of eight bytes cannot exceed;
`Processor.payload` refuses to write one that does.

Each kind has its own `body`, in a namespace of its own, and `Processor.body` puts them together.
The layout of one kind can thus change without the others, and so can what is proved about it: the
theorems about encoding go kind by kind in the same way.
-/

set_option autoImplicit false

namespace SignalRoute

/-! ## Fields

What several kinds of configurations write in the same way.
-/

/-- A width of 1 to 4 in two bits. -/
def sizeBits (size : UInt8) : UInt8 := lessOne size &&& 0x3

/-- A flag as the bits of `mask`. -/
def flagBits (flag : Bool) (mask : UInt8) : UInt8 := if flag then mask else 0

/-- The lowest `count` bytes of a signed word. -/
def leBytes32 (n : Int32) : Bytes := leBytes 4 n.toUInt32.toUInt64

/-! ## Kind by kind

Fields that share a byte are shifted to their places and put together.  Widths and counts keep to
their bits, so none of them runs into its neighbour.  Modes are not cut, because their numbers are
small.
-/

namespace Passthrough

def body (c : Passthrough) : Bytes := toByte c.mode :: leBytes 2 c.value.toUInt64

end Passthrough

namespace Accumulator

def body (c : Accumulator) : Bytes :=
  [sizeBits c.output ||| (sizeBits c.input <<< 2) ||| flagBits c.counter 0x10]

end Accumulator

namespace Average

def body (c : Average) : Bytes :=
  [sizeBits c.size ||| (sizeBits c.size <<< 2), c.samples] ++
    match c.channels with
    | some n => [flagBits c.highPass 0x1 ||| ((lessOne n &&& 0x7) <<< 1)]
    | none => []

end Average

namespace SingleComparison

def body (c : SingleComparison) : Bytes :=
  [flagBits c.signed 0x1, toByte c.op, 0] ++ leBytes 4 c.reference.toUInt64

end SingleComparison

namespace MultiComparison

def head (c : MultiComparison) : UInt8 :=
  flagBits c.signed 0x1 ||| (sizeBits c.size <<< 1) ||| (toByte c.op <<< 3) |||
    (toByte c.mode <<< 6)

def body (c : MultiComparison) : Bytes :=
  c.head :: c.references.flatMap fun r => (leBytes 8 r.toUInt64).take c.size.toNat

/-- Does every reference have the bytes that the width asks for? -/
def fits (c : MultiComparison) : Bool := c.size ≤ 8 || c.references.isEmpty

end MultiComparison

namespace Combiner

def body (c : Combiner) : Bytes :=
  [sizeBits c.output ||| (sizeBits c.input <<< 2) ||| (sizeBits c.channels <<< 4) |||
    flagBits c.signed 0x80, toByte c.mode]

end Combiner

namespace TimeLimit

def body (c : TimeLimit) : Bytes :=
  ((lessOne c.size &&& (0x7 : UInt8)) ||| (toByte c.mode <<< 3)) :: leBytes 4 c.period.toUInt64

end TimeLimit

namespace Arithmetic

def body (c : Arithmetic) : Bytes :=
  [sizeBits c.output ||| (sizeBits c.input <<< 2) ||| flagBits c.signed 0x10, toByte c.op] ++
    leBytes32 c.rhs ++
    match c.channels with
    | some n => [lessOne n]
    | none => []

end Arithmetic

/-- The bits in which a delay's width is written. -/
def delayMask (expanded : Bool) : UInt8 := if expanded then 0xf else 0x3

namespace Delay

def body (c : Delay) : Bytes := [lessOne c.size &&& delayMask c.expanded, c.samples]

end Delay

namespace Pulse

def body (c : Pulse) : Bytes :=
  [lessOne c.size, 0, toByte c.mode] ++ leBytes32 c.threshold ++ leBytes 2 c.width.toUInt64

end Pulse

namespace Differential

def body (c : Differential) : Bytes :=
  (sizeBits c.size ||| flagBits c.signed 0x4 ||| (toByte c.mode <<< 3)) ::
    leBytes 4 c.distance.toUInt64

end Differential

namespace Threshold

def body (c : Threshold) : Bytes :=
  (sizeBits c.size ||| flagBits c.signed 0x4 ||| (toByte c.mode <<< 3)) ::
    (leBytes32 c.boundary ++ leBytes 2 c.hysteresis.toUInt64)

end Threshold

namespace Buffer

def body (c : Buffer) : Bytes := [lessOne c.size &&& 0x1f]

end Buffer

namespace Packer

def body (c : Packer) : Bytes := [lessOne c.size &&& 0x1f, lessOne c.count &&& 0x1f]

end Packer

namespace Accounter

/-- The second byte does not change. -/
def body (c : Accounter) : Bytes := [toByte c.mode ||| (lessOne c.size <<< 4), 3]

end Accounter

namespace Fuser

/-- The ids, behind their number. -/
def body (c : Fuser) : Bytes := UInt8.ofNat c.ids.length :: c.ids

end Fuser

/-! ## Configurations

`encode` writes any processor, and `payload` is what a host sends.  They differ for comparisons of
references that are too wide, which a configuration can hold but no route asks for.
-/

namespace Processor

/-- What follows the tag. -/
def body : Processor → Bytes
  | passthrough c => c.body
  | accumulator c => c.body
  | average c => c.body
  | single c => c.body
  | multi c => c.body
  | combiner c => c.body
  | time c => c.body
  | math c => c.body
  | delay c => c.body
  | pulse c => c.body
  | differential c => c.body
  | threshold c => c.body
  | buffer c => c.body
  | packer c => c.body
  | accounter c => c.body
  | fuser c => c.body

/-- A configuration as it is sent to the board. -/
def encode (p : Processor) : Bytes := p.tag :: p.body

/-- Has every field the bytes that its width asks for? -/
def fits : Processor → Bool
  | multi c => c.fits
  | _ => true

/-- The encoded configuration, if it can be written in full. -/
def payload (p : Processor) : Except Fault Bytes :=
  if p.fits then .ok p.encode else .error .overrun

theorem payload_eq_ok {p : Processor} (h : p.fits = true) : p.payload = .ok p.encode := by
  simp [payload, h]

end Processor
end SignalRoute
