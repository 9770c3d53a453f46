import SignalRoute.Board.Firmware

/-!
# What a board can do

A board reports the version of its firmware and the revisions of its processor and logging modules.
Each capability begins at one of these.

The encodings of several processors differ between boards with a capability and boards without it.
A configuration takes what it needs of the device when it is built and keeps it as a field, such as
the number of channels that it counts, so that it can be encoded without a device at hand.  Decoding
has to ask the device again, because the bytes do not say which layout they are in.
-/

set_option autoImplicit false

namespace SignalRoute

/-- The versions that a board reports. -/
structure Device where
  firmware : Firmware
  processorRevision : UInt8
  loggingRevision : UInt8
deriving DecidableEq, Repr, Inhabited

namespace Device

/-- The board that is assumed where nothing is known. -/
def standard : Device := ⟨⟨1, 5, 0⟩, 3, 2⟩

/-- A board of the first generation. -/
def legacy : Device := ⟨⟨1, 1, 0⟩, 0, 0⟩

/-- Comparisons take several references, and a mode. -/
def multiComparison (d : Device) : Bool := d.firmware.supportsMultiComparison

/-- Averages may be high-pass, and count their channels. -/
def highPass (d : Device) : Bool := 2 ≤ d.processorRevision

/-- Delays hold up to sixteen bytes. -/
def expandedDelay (d : Device) : Bool := 2 ≤ d.processorRevision

/-- Arithmetic counts its channels. -/
def multiChannelMath (d : Device) : Bool := 2 ≤ d.processorRevision

/-- Buffers can be fused. -/
def fuser (d : Device) : Bool := 3 ≤ d.processorRevision

/-- Readout counters have four bytes, and pages are confirmed. -/
def extendedLogging (d : Device) : Bool := 2 ≤ d.loggingRevision

end Device
end SignalRoute
