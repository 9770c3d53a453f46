import SignalRoute.Fault
import SignalRoute.Text.Blank

/-!
# Firmware versions

A version is three bytes compared from the left.  `Firmware.parse` reads the text that
`Firmware.text` writes, and more: blanks around it, leading zeros and a plus sign before a number.

Settings files give the version of a board as such a text, so it is one of the places at which
reading them can fail.  Of the board's capabilities only comparisons against several references
begin at a version; the others begin at the revision of a module (`Board.Device`).
-/

set_option autoImplicit false

namespace SignalRoute

/-- The version of a board's firmware. -/
structure Firmware where
  major : UInt8
  minor : UInt8
  patch : UInt8
deriving DecidableEq, Repr, Inhabited

namespace Firmware

/-- Versions are compared number by number. -/
def order (a b : Firmware) : Ordering :=
  (compare a.major b.major).then ((compare a.minor b.minor).then (compare a.patch b.patch))

/-- The first version with comparisons against several references. -/
def multiComparison : Firmware := ⟨1, 2, 3⟩

def supportsMultiComparison (v : Firmware) : Bool := v.order multiComparison != .lt

def text (v : Firmware) : String :=
  toString v.major.toNat ++ "." ++ toString v.minor.toNat ++ "." ++ toString v.patch.toNat

/-- The number that decimal digits spell, given the one spelled before them; `none` on any other
character. -/
def digitsFrom? : Nat → List Char → Option Nat
  | n, [] => some n
  | n, c :: rest =>
    if '0' ≤ c ∧ c ≤ '9' then digitsFrom? (10 * n + (c.toNat - 48)) rest else none

/-- A byte in decimal, with an optional plus sign. -/
def byte? (cs : List Char) : Option UInt8 := do
  let digits := match cs with
    | '+' :: rest => rest
    | _ => cs
  if digits.isEmpty then none
  let n ← digitsFrom? 0 digits
  if n < 256 then some (UInt8.ofNat n) else none

/-- Three bytes between dots, blanks around them aside. -/
def parse? (s : String) : Option Firmware :=
  match (Text.splitAt '.' (Text.strip s.toList)).mapM byte? with
  | some [major, minor, patch] => some ⟨major, minor, patch⟩
  | _ => none

def parse (s : String) : Except Fault Firmware :=
  match parse? s with
  | some v => .ok v
  | none => .error (.settings ("Invalid firmware version '" ++ s ++ "'"))

end Firmware
end SignalRoute
