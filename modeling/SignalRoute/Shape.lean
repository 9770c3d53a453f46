import SignalRoute.Bytes

/-!
# The shape of a signal

A shape says how a signal lies in the payload that carries it: the widths of its channels, how many
samples are packed behind each other, where the first one starts, and whether the channels are
signed.  A processing stage never edits a shape; it derives a new one, which starts at offset 0,
because the output of a processor starts its own notification.

Two widths are easily mixed up.  `Shape.length` is the width of one sample, and `Shape.unitLength`
that of all copies together.  The board counts what a processor reads in the latter; the catalog
compares signals by the former.

The widths are bytes, as on the board, so `Shape.length` wraps for channels that are too wide
together and `Shape.unitLength` stops at 255.  No sensor comes near: a notification has seventeen
bytes.  Routes are checked against this limit where they are built, and nothing here assumes it.
-/

set_option autoImplicit false

namespace SignalRoute

/-- The layout of a signal in its payload. -/
structure Shape where
  /-- The width of each channel, in bytes. -/
  sizes : List UInt8
  /-- How many samples follow each other. -/
  copies : UInt8
  /-- Where the first sample starts. -/
  offset : UInt8
  /-- Are the channels two's complement? -/
  signed : Bool
deriving DecidableEq, Repr, Inhabited

namespace Shape

/-- One channel. -/
def scalar (size : UInt8) (signed : Bool) : Shape := ⟨[size], 1, 0, signed⟩

/-- No data at all. -/
def empty : Shape := ⟨[], 0, 0, false⟩

/-- The width of one sample. -/
def length (s : Shape) : UInt8 := sumBytes s.sizes

/-- The width of all packed samples, at most 255. -/
def unitLength (s : Shape) : UInt8 := satMul s.length s.copies

def channels (s : Shape) : Nat := s.sizes.length

def isEmpty (s : Shape) : Bool := s.length == 0

/-! ## Derived shapes -/

/-- The same layout, from the start of a payload. -/
def rebased (s : Shape) : Shape := { s with offset := 0 }

/-- Every channel `size` bytes wide. -/
def withSize (s : Shape) (size : UInt8) : Shape :=
  { s with sizes := s.sizes.map fun _ => size, offset := 0 }

def withSign (s : Shape) (signed : Bool) : Shape := { s with signed := signed, offset := 0 }

def withCopies (s : Shape) (copies : UInt8) : Shape := { s with copies := copies, offset := 0 }

/-- Channel `i` of one sample, where it lies in the payload. -/
def channel? (s : Shape) (i : Nat) : Option Shape :=
  match s.sizes[i]? with
  | some size => some ⟨[size], 1, s.offset + sumBytes (s.sizes.take i), s.signed⟩
  | none => none

/-- A shape as text, such as `2,2,2x1@0s`. -/
def text (s : Shape) : String :=
  ",".intercalate (s.sizes.map fun n => toString n.toNat) ++ "x" ++ toString s.copies.toNat ++ "@" ++
    toString s.offset.toNat ++ (if s.signed then "s" else "u")

end Shape
end SignalRoute
