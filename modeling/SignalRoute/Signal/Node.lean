import SignalRoute.Processor.Encode
import SignalRoute.Shape
import SignalRoute.Wire.Address

/-!
# Signals

A signal is one output on the board: a sensor register, or what a processor notifies, or the state
that it keeps.  A signal knows its address, its shape and how its bytes are meant; the output of a
processor also carries the processor and the signal that feeds it, back to the sensor.  A signal
with structure lists its parts: the channels of a vector, what an accounter puts before its data,
the signals that a fuser joins.

Signals are values.  `withId`, `withInput` and `atOffset` return changed copies, parts included.

The input of a signal is the whole signal and not a reference to it.  A route of many stages thus
holds its first stages many times over, but a signal explains itself: what it decodes to, what it is
called and where it came from are functions of the signal alone, and nothing has to be looked up.
The recursions go down along the inputs or into the parts, and only `same` does both.
-/

set_option autoImplicit false

namespace SignalRoute

/-- How the bytes of a signal are meant. -/
inductive SignalKind where
  /-- An integer in each channel. -/
  | integer
  /-- One integer in units of the firmware, of which `scale` make one. -/
  | float (scale : Float32)
  /-- Such an integer in each channel. -/
  | vector (scale : Float32)
  | bytes
  /-- The parts, one behind the other. -/
  | fused
  /-- What the accounter puts before the data, and the data. -/
  | accounted
deriving BEq, Inhabited

/-- One output on the board. -/
structure Signal where
  address : Address
  shape : Shape
  kind : SignalKind
  /-- The processor that produces the signal, if one does. -/
  processor : Option Processor
  /-- The signal that feeds that processor. -/
  input : Option Signal
  parts : List Signal
  /-- The position among the parts of another signal. -/
  index : Option Nat
deriving Inhabited

namespace Signal

/-! ## Making signals -/

/-- The channels of a vector, each a signal of its own. -/
def channelParts (s : Signal) : List Signal :=
  match s.kind with
  | .vector scale =>
    (List.range s.shape.channels).filterMap fun i =>
      (s.shape.channel? i).map fun shape =>
        { s with shape := shape, kind := .float scale, parts := [], index := some i }
  | _ => []

/-- The signal with the channels of a vector as its parts. -/
def withChannels (s : Signal) : Signal := { s with parts := s.channelParts }

/-- A signal that comes straight from a register. -/
def root (address : Address) (shape : Shape) (kind : SignalKind) : Signal :=
  withChannels ⟨address, shape, kind, none, none, [], none⟩

/-- What a processor fed by `input` puts out at `register`.  The id is not known yet. -/
def processed (input : Signal) (p : Processor) (register : UInt8) (shape : Shape)
    (kind : SignalKind) : Signal :=
  withChannels ⟨.unindexed Module.processor register, shape, kind, some p, some input, [], none⟩

/-! ## Changed copies

Mutual recursions over a signal and its list of parts.  An id belongs to a processor, so it changes
in the parts as well, but not in the signal that feeds it.
-/

mutual

/-- The signal of instance `id`. -/
def withId (id : UInt8) : Signal → Signal
  | ⟨address, shape, kind, p, input, parts, index⟩ =>
    ⟨address.withId id, shape, kind, p, input, withIds id parts, index⟩

def withIds (id : UInt8) : List Signal → List Signal
  | [] => []
  | s :: rest => withId id s :: withIds id rest

end

mutual

/-- The signal with another one feeding its processor.  Sensor signals have none and stay. -/
def withInput : Signal → (feed : Signal) → Signal
  | ⟨address, shape, kind, p, input, parts, index⟩, feed =>
    ⟨address, shape, kind, p, input.map fun _ => feed, withInputs parts feed, index⟩

def withInputs : List Signal → (feed : Signal) → List Signal
  | [], _ => []
  | s :: rest, feed => withInput s feed :: withInputs rest feed

end

/-- An offset moved by a distance, no further down than 0. -/
def movedOffset (offset : UInt8) (distance : Int) : UInt8 :=
  UInt8.ofNat (offset.toNat + distance).toNat

mutual

/-- The signal with its offset and those of its parts moved by a distance. -/
def shifted (distance : Int) : Signal → Signal
  | ⟨address, shape, kind, p, input, parts, index⟩ =>
    ⟨address, { shape with offset := movedOffset shape.offset distance }, kind, p, input,
      shiftedAll distance parts, index⟩

def shiftedAll (distance : Int) : List Signal → List Signal
  | [] => []
  | s :: rest => shifted distance s :: shiftedAll distance rest

end

/-- The signal with its bytes starting at `offset`. -/
def atOffset (s : Signal) (offset : UInt8) : Signal :=
  s.shifted ((offset.toNat : Int) - (s.shape.offset.toNat : Int))

/-! ## Questions

Two signals are the same signal on the board if address and shape agree (`Signal.sameSignal`),
however they came to be written down.  `Signal.same` compares every field, inputs and parts
included.
-/

/-- Do two signals have the same address and the same shape? -/
def sameSignal (a b : Signal) : Bool := a.address == b.address && a.shape == b.shape

/-- Is the signal what a processor notifies? -/
def isOutput (s : Signal) : Bool :=
  s.address.isProcessor && s.address.register == ProcessorReg.notify

/-- Is the signal the state of a processor? -/
def isState (s : Signal) : Bool :=
  s.address.isProcessor && s.address.register == ProcessorReg.state

/-- How many units of the firmware make one of the signal.  Signals without a scale have that of
the signal that feeds them. -/
def scale : Signal → Float32
  | ⟨_, _, kind, _, input, _, _⟩ =>
    match kind with
    | .float x | .vector x => x
    | .integer => 1
    | _ =>
      match input with
      | some feed => feed.scale
      | none => 1

/-- The sensor signal at the start. -/
def origin : Signal → Signal
  | s@⟨_, _, _, _, input, _, _⟩ =>
    match input with
    | some feed => feed.origin
    | none => s

/-- The signals that feed this one, nearest first. -/
def chain : Signal → List Signal
  | ⟨_, _, _, _, input, _, _⟩ =>
    match input with
    | some feed => feed :: feed.chain
    | none => []

mutual

/-- Are two signals equal in every field?  Scales are compared as numbers, so a signal with a NaN
for a scale differs from itself. -/
def same : Signal → Signal → Bool
  | ⟨address, shape, kind, p, input, parts, index⟩,
    ⟨address', shape', kind', p', input', parts', index'⟩ =>
    address == address' && shape == shape' && kind == kind' && p == p' &&
      sameInput input input' && sameParts parts parts' && index == index'

def sameInput : Option Signal → Option Signal → Bool
  | none, none => true
  | some a, some b => same a b
  | _, _ => false

def sameParts : List Signal → List Signal → Bool
  | [], [] => true
  | a :: as, b :: bs => same a b && sameParts as bs
  | _, _ => false

end

instance : BEq Signal := ⟨same⟩

end Signal
end SignalRoute
