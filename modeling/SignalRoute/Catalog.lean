import SignalRoute.Fault
import SignalRoute.Signal.Node

/-!
# The catalog of producers

A catalog names the sensor signals that routes can start from, in the order in which they were
registered.  `Catalog.findRoot` guesses the signal behind a byte range of an address: a producer
that fills the range, else a channel of one that does, else plain bytes.

What is compared is one sample of a signal.  A signal of several copies is found by the range of its
first one, and its whole range is answered by plain bytes; so the three cases of `RootMatch` are a
matter of `Shape.length`, and never of `Shape.unitLength`.

A signal's identifier is its producer's name followed by the processors that it went through, such
as `acceleration:low-pass?id=3`.  It is worked out from the signal's inputs, and fails for a signal
that comes from no known register.
-/

set_option autoImplicit false

namespace SignalRoute

/-- A named producer. -/
structure Producer where
  name : String
  signal : Signal
deriving Inhabited

/-- The known producers, oldest first. -/
structure Catalog where
  producers : List Producer
deriving Inhabited

/-- What is known about a byte range. -/
inductive RootMatch where
  /-- A producer fills it. -/
  | whole (s : Signal)
  /-- A channel of a producer fills it. -/
  | part (s : Signal)
  /-- Nothing does; its bytes can still be read. -/
  | placeholder (s : Signal)
deriving Inhabited

namespace RootMatch

def signal : RootMatch → Signal
  | whole s | part s | placeholder s => s

end RootMatch

namespace Catalog

def empty : Catalog := ⟨[]⟩

/-- Add a producer, in place of the one with its name. -/
def register (c : Catalog) (name : String) (signal : Signal) : Catalog :=
  ⟨c.producers.filter (fun p => p.name != name) ++ [⟨name, signal⟩]⟩

def get? (c : Catalog) (name : String) : Option Signal :=
  (c.producers.find? fun p => p.name == name).map Producer.signal

theorem mem_of_get? {catalog : Catalog} {name : String} {root : Signal}
    (h : catalog.get? name = some root) : root ∈ catalog.producers.map Producer.signal := by
  rw [get?, Option.map_eq_some_iff] at h
  obtain ⟨p, hp, rfl⟩ := h
  exact List.mem_map_of_mem (List.mem_of_find?_eq_some hp)

/-- The name of the first producer at a register. -/
def nameOf? (c : Catalog) (module register : UInt8) : Option String :=
  (c.producers.find? fun p =>
    p.signal.address.module == module && p.signal.address.register == register).map Producer.name

def names (c : Catalog) : List String := c.producers.map Producer.name

/-! ## The built-in sensors -/

/-- Three signed words. -/
def triple (module register : UInt8) (scale : Float32) : Signal :=
  .root (.unindexed module register) ⟨[2, 2, 2], 1, 0, true⟩ (.vector scale)

/-- The sensors of the board, in their default ranges. -/
def standard : Catalog := ⟨[
  ⟨"switch", .root (.unindexed Module.switch 0x01) (.scalar 1 false) .integer⟩,
  ⟨"acceleration", triple Module.accelerometer 0x04 16384⟩,
  ⟨"temperature", .root ⟨Module.temperature, 0x01, 0x00⟩ (.scalar 2 true) (.float 8)⟩,
  ⟨"gpio-adc", .root ⟨Module.gpio, 0x07, 0x00⟩ (.scalar 2 false) .integer⟩,
  ⟨"pressure", .root (.unindexed Module.barometer 0x01) (.scalar 4 false) (.float 256)⟩,
  ⟨"angular-velocity", triple Module.gyro 0x05 16.4⟩,
  ⟨"illuminance", .root (.unindexed Module.ambientLight 0x03) (.scalar 4 false) (.float 1000)⟩,
  ⟨"magnetic-field", triple Module.magnetometer 0x05 16⟩,
  ⟨"relative-humidity", .root (.unindexed Module.humidity 0x01) (.scalar 4 false) (.float 1024)⟩]⟩

/-! ## Guessing a root

A logger on the board tells the address and the byte range that it reads, and nothing else.  The
guess is needed to decode what was logged by somebody else, so it has to answer something in any
case: a placeholder decodes to the bytes as they are.
-/

/-- Can a producer at address `a` stand behind an address?  One without an id can stand behind any
instance. -/
def compatible (a address : Address) : Bool :=
  a.module == address.module && a.register == address.register &&
    (!a.hasId || a.id == address.id)

/-- Does one sample of a signal lie exactly in a byte range? -/
def covers (offset length : UInt8) (s : Signal) : Bool :=
  s.shape.offset == offset && s.shape.length == length

/-- The signal behind `length` bytes from `offset` on at an address. -/
def findRoot (c : Catalog) (address : Address) (offset length : UInt8) : RootMatch :=
  let candidates := (c.producers.map Producer.signal).filter fun s => compatible s.address address
  match candidates.find? (covers offset length) with
  | some s => .whole (s.withId address.id)
  | none =>
    match candidates.findSome? fun s => s.parts.find? (covers offset length) with
    | some s => .part s
    | none => .placeholder (.root address ⟨[length], 1, offset, false⟩ .bytes)

end Catalog

namespace Signal

/-- What a processor adds to the identifier of its input. -/
def stageSuffix (s : Signal) (p : Processor) : String :=
  ":" ++ p.label ++ (if s.isState then "-state" else "") ++ "?id=" ++ toString s.address.id.toNat

/-- The position of a part at the end of an identifier. -/
def indexSuffix (index : Option Nat) : String :=
  match index with
  | some i => "[" ++ toString i ++ "]"
  | none => ""

/-- The path of a signal from its producer on. -/
def identifier (catalog : Catalog) : Signal → Except Fault String
  | s@⟨address, _, _, p, input, _, index⟩ =>
    match input, p with
    | some feed, some p => do
      let path ← feed.identifier catalog
      return path ++ s.stageSuffix p ++ indexSuffix index
    | _, _ =>
      match catalog.nameOf? address.module address.register with
      | some name => .ok (name ++ indexSuffix index)
      | none => .error (.unidentifiable address.module address.register)

end Signal
end SignalRoute
