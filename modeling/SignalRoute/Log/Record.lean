import SignalRoute.Fault
import SignalRoute.Wire.Address

/-!
# Log records

A record is a log entry as the board sends it: the reset and the logger in one byte, the tick, and
four bytes of data.

A notification of the readout carries up to two records.  It is cut into pieces before any of them
is parsed, so a piece that is too short costs nobody but itself.
-/

set_option autoImplicit false

namespace SignalRoute

/-- A log entry. -/
structure LogRecord where
  logId : UInt8
  reset : UInt8
  tick : UInt32
  data : Bytes
deriving DecidableEq, Repr, Inhabited

namespace LogRecord

/-- How many bytes a record takes. -/
def size : Nat := 1 + 4 + logEntrySize

/-- The record at the start of a list of bytes. -/
def parse : Bytes → Except Fault LogRecord
  | b :: t0 :: t1 :: t2 :: t3 :: d0 :: d1 :: d2 :: d3 :: _ =>
    .ok ⟨b &&& 0x1f, (b >>> 5) &&& 0x7, word32 t0 t1 t2 t3, [d0, d1, d2, d3]⟩
  | bytes => .error (.protocol ("log record needs 9 bytes, got " ++ spacedHex bytes))

/-- A payload cut into records; the last piece may be short. -/
def cut (payload : Bytes) : List Bytes :=
  match payload with
  | [] => []
  | b :: rest => (b :: rest).take size :: cut ((b :: rest).drop size)
termination_by payload.length
decreasing_by simp only [List.length_drop, List.length_cons, size, logEntrySize]; omega

/-- All records of a payload. -/
def parseAll (payload : Bytes) : Except Fault (List LogRecord) := (cut payload).mapM parse

/-- A record as the board sends it. -/
def toBytes (r : LogRecord) : Bytes :=
  ((r.reset <<< 5) ||| (r.logId &&& 0x1f)) :: (leBytes 4 r.tick.toUInt64 ++ r.data)

end LogRecord
end SignalRoute
