import SignalRoute.Board.Device
import SignalRoute.Processor.Basic

/-!
# Reading configurations

`Processor.decode` reads a configuration that the board sent.  The same bytes mean different things
on different boards: comparisons have one form or the other, averages and arithmetic may count their
channels, and delays have a wider field on newer boards.  Bytes behind a configuration are ignored.

There is one reader per kind of processor, for what follows the tag.  A reader matches on as many
bytes as its kind has and falls through to `tooShort` otherwise, so what it does on given bytes can
be read off its equations.  Numbers that mean nothing are faults, and so are the few stored numbers
that would be 256 with one added (`widen`); all other bits are taken as they come.

Decoding does not check that a configuration makes sense, only that it has a meaning.  What becomes
of a configuration that is decoded and written again is in `Proofs.Codec.Stability`.
-/

set_option autoImplicit false

namespace SignalRoute

/-! ## Fields

`widen` and `sizeField` undo the same thing, a number that was written less one.  In some bits of a
byte it can always be undone; in a whole byte it cannot, since 256 is no byte.
-/

/-- The fault of a configuration with fewer bytes than its kind needs; `body` is what follows the
tag. -/
def tooShort {α : Type} (kind : String) (needed : Nat) (body : Bytes) : Except Fault α :=
  .error (.protocol (kind ++ " config needs " ++ toString needed ++ " bytes, got " ++
    toString (body.length + 1)))

/-- A number that is written less one in a whole byte: the largest byte stands for none. -/
def widen (stored : UInt8) (what : String) : Except Fault UInt8 :=
  if stored = 0xff then .error (.protocol (what ++ " out of range: " ++ hexLiteral stored))
  else .ok (stored + 1)

/-- Is a bit of `mask` set? -/
def hasFlag (b mask : UInt8) : Bool := b &&& mask == mask

/-- The number written less one in the bits of `mask`, `shift` bits up. -/
def sizeField (b : UInt8) (shift mask : UInt8) : UInt8 := ((b >>> shift) &&& mask) + 1

/-- The chunks of `size` bytes at the start of a list; fewer bytes at its end are left out. -/
def chunks (size : Nat) (bytes : Bytes) : List Bytes :=
  if _h : 0 < size ∧ size ≤ bytes.length then
    bytes.take size :: chunks size (bytes.drop size)
  else []
termination_by bytes.length
decreasing_by simp only [List.length_drop]; omega

/-- A reference of a comparison. -/
def readReference (signed : Bool) (chunk : Bytes) : Int64 :=
  if signed then readSigned chunk else (readUnsigned chunk).toInt64

/-! ## Kind by kind

A reader ignores what follows the fields that it knows.  So a configuration may be read from more
bytes than it is written with.
-/

namespace Processor

def decodePassthrough : Bytes → Except Fault Processor
  | mode :: v0 :: v1 :: _ => do
    let mode ← ofByte mode
    return passthrough ⟨mode, word16 v0 v1⟩
  | body => tooShort "passthrough" 4 body

def decodeAccumulator : Bytes → Except Fault Processor
  | b :: _ => .ok (accumulator ⟨hasFlag b 0x10, sizeField b 0 0x3, sizeField b 2 0x3⟩)
  | body => tooShort "accumulator" 2 body

/-- The channel count is read only from boards that know high-pass averages. -/
def decodeAverage (d : Device) : Bytes → Except Fault Processor
  | b :: samples :: rest =>
    match d.highPass, rest with
    | true, x :: _ => .ok (average ⟨sizeField b 0 0x3, samples, hasFlag x 0x1, sizeField x 1 0x7⟩)
    | _, _ => .ok (average ⟨sizeField b 0 0x3, samples, false, none⟩)
  | body => tooShort "average" 3 body

def decodeSingle : Bytes → Except Fault Processor
  | sign :: op :: _ :: r0 :: r1 :: r2 :: r3 :: _ => do
    let op ← ofByte op
    return single ⟨sign == 1, op, readReference (sign == 1) [r0, r1, r2, r3]⟩
  | body => tooShort "comparison" 8 body

def decodeMulti : Bytes → Except Fault Processor
  | b :: rest => do
    let op ← ofByte ((b >>> 3) &&& 0x7)
    let mode ← ofByte ((b >>> 6) &&& 0x3)
    let signed := hasFlag b 0x1
    let size := sizeField b 1 0x3
    return multi ⟨signed, size, op, mode, (chunks size.toNat rest).map (readReference signed)⟩
  | body => tooShort "comparison" 2 body

def decodeCombiner : Bytes → Except Fault Processor
  | b :: mode :: _ => do
    let mode ← ofByte mode
    return combiner ⟨sizeField b 0 0x3, sizeField b 2 0x3, sizeField b 4 0x3, hasFlag b 0x80, mode⟩
  | body => tooShort "combiner" 3 body

def decodeTime : Bytes → Except Fault Processor
  | b :: p0 :: p1 :: p2 :: p3 :: _ => do
    let mode ← ofByte ((b >>> 3) &&& 0x7)
    return time ⟨sizeField b 0 0x7, mode, word32 p0 p1 p2 p3⟩
  | body => tooShort "time" 6 body

/-- The channel count is read only from boards that compute on several channels. -/
def decodeMath (d : Device) : Bytes → Except Fault Processor
  | b :: op :: r0 :: r1 :: r2 :: r3 :: rest => do
    let channels ← match d.multiChannelMath, rest with
      | true, n :: _ => some <$> widen n "math channel count"
      | _, _ => pure none
    let op ← ofByte op
    return math ⟨sizeField b 0 0x3, sizeField b 2 0x3, hasFlag b 0x10, op,
      (word32 r0 r1 r2 r3).toInt32, channels⟩
  | body => tooShort "math" 7 body

def decodeDelay (d : Device) : Bytes → Except Fault Processor
  | b :: samples :: _ =>
    .ok (delay ⟨sizeField b 0 (if d.expandedDelay then 0xf else 0x3), samples, d.expandedDelay⟩)
  | body => tooShort "delay" 3 body

def decodePulse : Bytes → Except Fault Processor
  | size :: _ :: mode :: t0 :: t1 :: t2 :: t3 :: w0 :: w1 :: _ => do
    let size ← widen size "pulse size"
    let mode ← ofByte mode
    return pulse ⟨size, mode, (word32 t0 t1 t2 t3).toInt32, word16 w0 w1⟩
  | body => tooShort "pulse" 10 body

def decodeDifferential : Bytes → Except Fault Processor
  | b :: d0 :: d1 :: d2 :: d3 :: _ => do
    let mode ← ofByte ((b >>> 3) &&& 0x7)
    return differential ⟨sizeField b 0 0x3, hasFlag b 0x4, mode, word32 d0 d1 d2 d3⟩
  | body => tooShort "differential" 6 body

def decodeThreshold : Bytes → Except Fault Processor
  | b :: b0 :: b1 :: b2 :: b3 :: h0 :: h1 :: _ => do
    let mode ← ofByte ((b >>> 3) &&& 0x7)
    return threshold ⟨sizeField b 0 0x3, hasFlag b 0x4, mode, (word32 b0 b1 b2 b3).toInt32,
      word16 h0 h1⟩
  | body => tooShort "threshold" 8 body

def decodeBuffer : Bytes → Except Fault Processor
  | b :: _ => .ok (buffer ⟨sizeField b 0 0x1f⟩)
  | body => tooShort "buffer" 2 body

def decodePacker : Bytes → Except Fault Processor
  | size :: count :: _ => .ok (packer ⟨sizeField size 0 0x1f, sizeField count 0 0x1f⟩)
  | body => tooShort "packer" 3 body

def decodeAccounter : Bytes → Except Fault Processor
  | b :: _ => do
    let mode ← ofByte (b &&& 0xf)
    return accounter ⟨mode, (b >>> 4) + 1⟩
  | body => tooShort "accounter" 2 body

def decodeFuser : Bytes → Except Fault Processor
  | count :: rest =>
    if count.toNat ≤ rest.length then .ok (fuser ⟨rest.take count.toNat⟩)
    else tooShort "fuser" (2 + count.toNat) (count :: rest)
  | body => tooShort "fuser" 2 body

/-- The processor that a configuration describes on a board. -/
def decode (d : Device) : Bytes → Except Fault Processor
  | [] => .error (.protocol "processor config needs 1 bytes, got 0")
  | tag :: body =>
    match tag with
    | 0x01 => decodePassthrough body
    | 0x02 => decodeAccumulator body
    | 0x03 => decodeAverage d body
    | 0x06 => if d.multiComparison then decodeMulti body else decodeSingle body
    | 0x07 => decodeCombiner body
    | 0x08 => decodeTime body
    | 0x09 => decodeMath d body
    | 0x0a => decodeDelay d body
    | 0x0b => decodePulse body
    | 0x0c => decodeDifferential body
    | 0x0d => decodeThreshold body
    | 0x0f => decodeBuffer body
    | 0x10 => decodePacker body
    | 0x11 => decodeAccounter body
    | 0x1b => decodeFuser body
    | _ => .error (.unsupportedTransform (spacedHex (tag :: body)))

end Processor
end SignalRoute
