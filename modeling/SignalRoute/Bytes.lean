/-!
# Bytes and little-endian words

Everything that crosses the link is a list of bytes.  This file holds the readers and the writer of
little-endian integers, the byte arithmetic that stays at the ends of its range instead of wrapping,
and the two hexadecimal spellings.

* `readUnsigned` and `readSigned` read the first eight bytes at most, as an unsigned and as a two's
  complement integer.
* `leBytes` writes the low bytes of a word; `value` is the number that a list of bytes stands for,
  and `toNat_readUnsigned` says that the reader computes it.
* `slice?` cuts a byte range out of a payload, and fails where the payload ends too soon.  It is the
  only place in which a payload can turn out too short.

The readers gather bits in 64-bit words, as the program does, and not in natural numbers: which bits
a shift drops, and which one is the sign, is then part of the definition.  What the words stand for
as numbers is a matter of theorems, in `Proofs.Codec.Integers`.
-/

set_option autoImplicit false

namespace SignalRoute

/-- A frame, a command, an encoded configuration: any run of bytes. -/
abbrev Bytes := List UInt8

/-! ## Reading and writing words -/

/-- The bytes of a word, lowest first, gathered from the highest down. -/
def gather : Bytes → UInt64
  | [] => 0
  | b :: rest => b.toUInt64 ||| (gather rest <<< 8)

/-- The unsigned little-endian integer in the first eight bytes. -/
def readUnsigned (bytes : Bytes) : UInt64 := gather (bytes.take 8)

/-- The two's complement little-endian integer in the first eight bytes.  The sign bit is that of
the last byte read: it is moved to the top of the word and spread back down. -/
def readSigned (bytes : Bytes) : Int64 :=
  match bytes.take 8 with
  | [] => 0
  | b :: rest =>
    let shift : UInt64 := 64 - 8 * UInt64.ofNat (rest.length + 1)
    (gather (b :: rest) <<< shift).toInt64 >>> shift.toInt64

/-- The lowest `count` bytes of a word, lowest first. -/
def leBytes : Nat → UInt64 → Bytes
  | 0, _ => []
  | count + 1, word => word.toUInt8 :: leBytes count (word >>> 8)

/-- The number that a list of bytes stands for, lowest byte first. -/
def value : Bytes → Nat
  | [] => 0
  | b :: rest => b.toNat + 256 * value rest

theorem length_leBytes (count : Nat) (word : UInt64) : (leBytes count word).length = count := by
  induction count generalizing word with
  | zero => rfl
  | succ n ih => simp [leBytes, ih]

/-- Two bytes as a number. -/
def word16 (low high : UInt8) : UInt16 := (readUnsigned [low, high]).toUInt16

/-- Four bytes as a number. -/
def word32 (b0 b1 b2 b3 : UInt8) : UInt32 := (readUnsigned [b0, b1, b2, b3]).toUInt32

/-- The bytes from `start` up to `stop`, if the list reaches that far. -/
def slice? (bytes : Bytes) (start stop : Nat) : Option Bytes :=
  if start ≤ stop ∧ stop ≤ bytes.length then some ((bytes.drop start).take (stop - start)) else none

/-! ## Sums

Two sums, because two things are added up.  The widths of channels are bytes on the board, and their
sum is one that wraps; the numbers of events and of stages are numbers of the host.
-/

/-- The sum of widths, modulo 256. -/
def sumBytes : List UInt8 → UInt8
  | [] => 0
  | n :: rest => n + sumBytes rest

/-- The sum of counts. -/
def sumCounts : List Nat → Nat
  | [] => 0
  | n :: rest => n + sumCounts rest

/-! ## Bytes that do not wrap

A length is stored as one less than itself, and a width grows by a factor that a user chooses.
Neither may wrap: a length of zero is stored like a length of one, and a width that is too large is
255.
-/

/-- One less, and zero for zero. -/
def lessOne (n : UInt8) : UInt8 := if n = 0 then 0 else n - 1

/-- The sum, at most 255. -/
def satAdd (a b : UInt8) : UInt8 := if a.toNat + b.toNat < 256 then a + b else 255

/-- The product, at most 255. -/
def satMul (a b : UInt8) : UInt8 := if a.toNat * b.toNat < 256 then a * b else 255

/-! ## Hexadecimal text -/

/-- The lower-case hexadecimal digit of a number below sixteen. -/
def hexDigit (n : Nat) : Char :=
  if n < 10 then Char.ofNat (48 + n) else Char.ofNat (87 + n)

/-- A byte as two hexadecimal digits. -/
def hexByte (b : UInt8) : String :=
  String.ofList [hexDigit (b.toNat / 16), hexDigit (b.toNat % 16)]

/-- A byte as a literal, such as `0x0a`. -/
def hexLiteral (b : UInt8) : String := "0x" ++ hexByte b

/-- A hexadecimal dump with a space between two bytes. -/
def spacedHex (bytes : Bytes) : String := " ".intercalate (bytes.map hexByte)

/-- A hexadecimal dump without separators. -/
def plainHex (bytes : Bytes) : String := String.join (bytes.map hexByte)

end SignalRoute
