import SignalRoute.Bytes

/-!
# Readings

A reading is what a payload says once its signal is known.  Numbers keep the width in which they
were computed: integers have 64 bits, scaled values are single precision floats.

The numbers of a reading may come from a fused or an accounted payload, in which readings contain
readings; `Reading.toFloat?` looks through the count of an accounted one, because the count says
when something was measured, or how often, and not what.
-/

set_option autoImplicit false

namespace SignalRoute

/-- A decoded payload. -/
inductive Reading where
  /-- An event without data. -/
  | empty
  | unsigned (n : UInt64)
  | signed (n : Int64)
  | scaled (x : Float32)
  /-- One number per channel. -/
  | vector (xs : List Float32)
  | bytes (bs : Bytes)
  /-- One reading per fused signal, in their order. -/
  | fused (parts : List Reading)
  /-- A running count or a time, and the reading that came with it. -/
  | accounted (count : UInt32) (inner : Reading)
deriving Inhabited

namespace Reading

/-- The number that a reading stands for, if it is one. -/
def toFloat? : Reading → Option Float
  | unsigned n => some n.toFloat
  | signed n => some n.toFloat
  | scaled x => some x.toFloat
  | accounted _ inner => inner.toFloat?
  | _ => none

/-- The channels of a vector. -/
def vector? : Reading → Option (List Float32)
  | vector xs => some xs
  | _ => none

end Reading
end SignalRoute
