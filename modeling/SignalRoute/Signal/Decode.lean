import SignalRoute.Reading
import SignalRoute.Signal.Node

/-!
# Decoding payloads

`Signal.decode` reads one sample from the payload that carries a signal, and `Signal.decodeAll`
reads every packed copy.  A payload that ends too early is a fault; one without data reads as
`Reading.empty`.

A signal reads its bytes where its shape says, and the parts of a fused or accounted signal read
theirs where their own shapes say: the offsets of parts count from the start of the payload and not
from the signal that they belong to.  So a signal can be moved only together with its parts
(`Signal.atOffset`), and the copies of a packed signal with parts, which move the signal alone, read
the same parts every time (`Signal.copyAt`).

The bytes that a reading depends on are those that its decoding asks for, which need not be those of
the signal's own range: nothing in a signal keeps its parts within it.  The signals for which they
do are those of `Proofs.Signal.Nesting`.
-/

set_option autoImplicit false

namespace SignalRoute

/-- The pieces of a payload with the given widths, up to the first that the payload cannot fill. -/
def pieces : List UInt8 → Bytes → List Bytes
  | [], _ => []
  | size :: rest, bytes =>
    if size.toNat ≤ bytes.length then
      bytes.take size.toNat :: pieces rest (bytes.drop size.toNat)
    else []

namespace Signal

/-- The integer in a channel. -/
def channelValue (signed : Bool) (chunk : Bytes) : Int64 :=
  if signed then readSigned chunk else (readUnsigned chunk).toInt64

/-- The bytes of the first copy of a signal. -/
def extract (shape : Shape) (raw : Bytes) : Except Fault Bytes :=
  let stop := shape.offset.toNat + shape.length.toNat
  match slice? raw shape.offset.toNat stop with
  | some bytes => .ok bytes
  | none => .error (.shortPayload stop raw.length)

/-- What an accounter put before its data. -/
def countOf (s : Signal) (raw : Bytes) : Except Fault UInt32 := do
  let bytes ← extract s.shape raw
  return (readUnsigned bytes).toUInt32

mutual

/-- The reading of the first copy of a signal. -/
def decode (raw : Bytes) : Signal → Except Fault Reading
  | ⟨_, shape, kind, _, _, parts, _⟩ =>
    if shape.isEmpty then .ok .empty
    else do
      let bytes ← extract shape raw
      match kind with
      | .integer =>
        if shape.channels ≤ 1 then
          if shape.signed then return .signed (readSigned bytes)
          else return .unsigned (readUnsigned bytes)
        else
          return .vector ((pieces shape.sizes bytes).map fun c =>
            (channelValue shape.signed c).toFloat32)
      | .float scale => return .scaled ((channelValue shape.signed bytes).toFloat32 / scale)
      | .vector scale =>
        return .vector ((pieces shape.sizes bytes).map fun c =>
          (channelValue shape.signed c).toFloat32 / scale)
      | .bytes => return .bytes bytes
      | .fused => return .fused (← decodeParts raw parts)
      | .accounted =>
        match parts with
        | lead :: inner :: _ =>
          let count ← lead.countOf raw
          return .accounted count (← decode raw inner)
        | _ => return .bytes bytes

/-- The readings of the parts of a signal. -/
def decodeParts (raw : Bytes) : List Signal → Except Fault (List Reading)
  | [] => .ok []
  | s :: rest => do
    let r ← decode raw s
    return r :: (← decodeParts raw rest)

end

/-- The signal with its shape reduced to copy `i`; its parts stay where they are. -/
def copyAt (s : Signal) (i : Nat) : Signal :=
  { s with
    shape := { s.shape with
      copies := 1, offset := s.shape.offset + UInt8.ofNat i * s.shape.length } }

/-- The readings of all packed copies.  A signal packs at least one. -/
def decodeAll (s : Signal) (raw : Bytes) : Except Fault (List Reading) :=
  if s.shape.copies ≤ 1 then do return [← decode raw s]
  else (List.range s.shape.copies.toNat).mapM fun i => decode raw (s.copyAt i)

end Signal
end SignalRoute
