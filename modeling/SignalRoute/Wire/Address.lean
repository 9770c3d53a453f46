import SignalRoute.Bytes

/-!
# Addresses on the board

A command or a notification starts with a module and a register.  An output of which the board can
hold several carries a third byte, its id; the id `noId` stands for outputs that exist once.  A
register is read by setting its highest bit, and the answer repeats the byte.

`packRange` squeezes a length and an offset into one byte, and `unpackRange` takes them out again.
The byte has three bits for the length, which is stored as one less than itself, and five for the
offset.  A length above eight therefore cannot be told from eight, and neither function says so:
whoever packs a range has to know that it fits (`unpackRange_packRange_min` says what comes back).
-/

set_option autoImplicit false

namespace SignalRoute

/-- The id of an output that exists once. -/
def noId : UInt8 := 0xff

/-- The largest payload of one notification. -/
def maxPayload : Nat := 17

/-- The width of one log entry on the board. -/
def logEntrySize : Nat := 4

/-- How many loggers the board has room for. -/
def maxLoggers : Nat := 32

/-! ## Modules and registers

Only the modules that a signal can come from, and the three that hold processors, loggers and
events.  Of the latter the registers have names; those of sensors occur once, in the catalog.
-/

namespace Module

def switch : UInt8 := 0x01
def accelerometer : UInt8 := 0x03
def temperature : UInt8 := 0x04
def gpio : UInt8 := 0x05
def processor : UInt8 := 0x09
def event : UInt8 := 0x0a
def logging : UInt8 := 0x0b
def timer : UInt8 := 0x0c
def settings : UInt8 := 0x11
def barometer : UInt8 := 0x12
def gyro : UInt8 := 0x13
def ambientLight : UInt8 := 0x14
def magnetometer : UInt8 := 0x15
def humidity : UInt8 := 0x16
def fusion : UInt8 := 0x19

end Module

/-! Registers of the processor module. -/

namespace ProcessorReg

def add : UInt8 := 0x02
def notify : UInt8 := 0x03
def state : UInt8 := 0x04
def parameter : UInt8 := 0x05
def remove : UInt8 := 0x06
def notifyEnable : UInt8 := 0x07
def removeAll : UInt8 := 0x08

end ProcessorReg

/-! Registers of the logging module. -/

namespace LogReg

def enable : UInt8 := 0x01
def trigger : UInt8 := 0x02
def remove : UInt8 := 0x03
def time : UInt8 := 0x04
def length : UInt8 := 0x05
def readout : UInt8 := 0x06
def readoutNotify : UInt8 := 0x07
def readoutProgress : UInt8 := 0x08
def removeEntries : UInt8 := 0x09
def removeAll : UInt8 := 0x0a
def pageCompleted : UInt8 := 0x0d
def pageConfirm : UInt8 := 0x0e

end LogReg

/-! Registers of the event module. -/

namespace EventReg

def entry : UInt8 := 0x02
def parameters : UInt8 := 0x03
def remove : UInt8 := 0x04

end EventReg

/-- The register byte that reads instead of writing. -/
def readForm (register : UInt8) : UInt8 := register ||| 0x80

/-! ## Byte ranges in one byte -/

/-- A length of 1 to 8 above an offset of 0 to 31; longer lengths count as 8, and an offset loses
its high bits. -/
def packRange (length offset : UInt8) : UInt8 :=
  ((min (lessOne length) 7) <<< 5) ||| (offset &&& 0x1f)

/-- The length and the offset in a packed byte. -/
def unpackRange (packed : UInt8) : UInt8 × UInt8 :=
  (((packed >>> 5) &&& 0x7) + 1, packed &&& 0x1f)

/-! ## Addresses

An address does not say how many bytes lie there, or which of them are meant: two signals can have
the same address and lie side by side in one payload.  What tells them apart is their shape.
-/

/-- Where an output lives on the board. -/
structure Address where
  module : UInt8
  register : UInt8
  id : UInt8
deriving DecidableEq, Repr, Inhabited

namespace Address

/-- The address of an output that exists once. -/
def unindexed (module register : UInt8) : Address := ⟨module, register, noId⟩

/-- The address that processor `id` notifies from. -/
def processor (id : UInt8) : Address := ⟨Module.processor, ProcessorReg.notify, id⟩

def hasId (a : Address) : Bool := a.id != noId

def isProcessor (a : Address) : Bool := a.module == Module.processor

def withId (a : Address) (id : UInt8) : Address := { a with id := id }

/-- The three bytes of an address in a command. -/
def toBytes (a : Address) : Bytes := [a.module, a.register, a.id]

/-- An address as text, such as `[0x03, 0x04, 0xff]`. -/
def text (a : Address) : String :=
  "[" ++ hexLiteral a.module ++ ", " ++ hexLiteral a.register ++ ", " ++ hexLiteral a.id ++ "]"

end Address

end SignalRoute
