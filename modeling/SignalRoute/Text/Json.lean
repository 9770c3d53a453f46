import SignalRoute.Text.Datum
import SignalRoute.Text.Scan

/-!
# Reading JSON

A text is read in full before anything is made of it.  What is computed afterwards are names, by
putting the two halves of a character together, and numbers.

Numbers are computed digit by digit: an integer that fits 64 bits stays one, and every other number
is the double that `Numeral.toFloat?` arrives at.  It multiplies or divides the first digits, as
many as fit 64 bits, by a power of ten, so its last bit need not be that of the nearest double.

The grammar is followed to the letter, because which texts are refused is part of what reading a
setting means: a leading zero or a control character in a string makes a text wrong, wherever it
stands.  Half of a pair of codes does so only in a name of a record that is asked for its fields.
-/

set_option autoImplicit false

namespace SignalRoute
namespace Json

/-! ## Numbers -/

/-- A number as it is written. -/
structure Numeral where
  negative : Bool
  whole : List Char
  /-- The digits after the point; none without a point. -/
  fraction : List Char
  /-- A sign and digits. -/
  exponent : Option (Bool × List Char)

/-- The number that leading digits spell, as long as it fits 64 bits, and the digits left over. -/
def leading : Nat → List Char → Nat × List Char
  | n, [] => (n, [])
  | n, c :: rest =>
    let next := 10 * n + digitValue c
    if next < 0x10000000000000000 then leading next rest else (n, c :: rest)

/-- A power of ten as a double. -/
def floatTenTo (n : Nat) : Float := Number.nearest (Nat.pow 10 n) 1

/-- Divide by a power of ten, at most `10 ^ 308` at a time. -/
def divideDown (x : Float) : Nat → Nat → Float
  | 0, _ => 0
  | fuel + 1, n =>
    if n ≤ 308 then x / floatTenTo n
    else if x == 0 then x
    else divideDown (x / floatTenTo 308) fuel (n - 308)

/-- A number times a power of ten, unless that is beyond every double.  Dividing an integer of 64
bits by `10 ^ 308` twice leaves nothing. -/
def scale? (n : Nat) (exponent : Int) : Option Float :=
  let x := Number.nearest n 1
  if exponent < 0 then some (divideDown x 4 (-exponent).toNat)
  else if exponent ≤ 308 then
    let y := x * floatTenTo exponent.toNat
    if y.isInf then none else some y
  else if x == 0 then some x
  else none

/-- The sum of two exponents; it stays within 32 bits. -/
def addExponents (a b : Int) : Int := max (-0x80000000) (min 0x7fffffff (a + b))

/-- The number as a double, unless it is beyond every one.  Digits of the whole part that do not fit
count as zeros; digits of the fraction that do not fit are dropped. -/
def Numeral.toFloat? (n : Numeral) : Option Float :=
  let (m, skipped) := leading 0 n.whole
  let (m, dropped) := leading m n.fraction
  let places : Int := skipped.length - (n.fraction.length - dropped.length : Nat)
  let x := match n.exponent with
    | none => scale? m places
    | some (negative, digits) =>
      let e : Int := digitsValue 10 digits
      if e < 0x80000000 then scale? m (addExponents places (if negative then -e else e))
      else if m ≠ 0 ∧ !negative then none
      else some 0
  x.map (Number.signedFloat n.negative)

/-- The number: an integer if it is written as one and fits 64 bits.  A negative zero is a double,
because integers have none. -/
def Numeral.datum (n : Numeral) : Datum :=
  let asFloat := (n.toFloat?.map Datum.float).getD .other
  if !n.fraction.isEmpty || n.exponent.isSome then asFloat
  else
    match leading 0 n.whole with
    | (m, []) =>
      if !n.negative then .integer m
      else if m = 0 ∨ 0x8000000000000000 < m then asFloat
      else .integer (-(m : Int))
    | _ => asFloat

def wholePart : Scan (List Char) := do
  let c ← Scan.satisfying isDigit
  if c = '0' then return [c] else return c :: (← Scan.run isDigit)

def fractionPart : Scan (List Char) := do
  Scan.exactly '.'
  Scan.someRun isDigit

def exponentPart : Scan (Bool × List Char) := do
  discard (Scan.satisfying fun c => c == 'e' || c == 'E')
  let sign ← Scan.optional? (Scan.satisfying fun c => c == '+' || c == '-')
  return (sign == some '-', ← Scan.someRun isDigit)

def numeral : Scan Numeral := do
  let sign ← Scan.optional? (Scan.exactly '-')
  let whole ← wholePart
  let fraction ← if (← Scan.peek) == some '.' then fractionPart else pure []
  let exponent ← if (← Scan.peek).any (fun c => c == 'e' || c == 'E') then some <$> exponentPart
    else pure none
  return ⟨sign.isSome, whole, fraction, exponent⟩

/-! ## Strings -/

/-- A piece of a string. -/
inductive Piece where
  | char (c : Char)
  /-- A code of 16 bits, which may be half of a character. -/
  | code (n : Nat)

def escapedPiece : Scan Piece := do
  match ← Scan.satisfying fun _ => true with
  | 'u' => return .code (digitsValue 16 (← Scan.times (Scan.satisfying (isDigitOf 16)) 4))
  | 'b' => return .char (.ofNat 0x08)
  | 'f' => return .char (.ofNat 0x0c)
  | 'n' => return .char '\n'
  | 'r' => return .char '\r'
  | 't' => return .char '\t'
  | c => if c = '"' ∨ c = '\\' ∨ c = '/' then return .char c else failure

def piece : Scan Piece := do
  match ← Scan.satisfying fun c => c != '"' && 0x20 ≤ c.toNat with
  | '\\' => escapedPiece
  | c => return .char c

def pieces : Scan (List Piece) := do
  Scan.exactly '"'
  let ps ← Scan.many piece
  Scan.exactly '"'
  return ps

/-- The character that two halves make. -/
def paired? (n m : Nat) : Option Char :=
  if 0xd800 ≤ n ∧ n < 0xdc00 ∧ 0xdc00 ≤ m ∧ m < 0xe000 then
    charOfCode? (0x10000 + (n - 0xd800) * 0x400 + (m - 0xdc00))
  else none

/-- The text of a string, unless half of a character stands alone in it. -/
def textOf? : List Piece → Option (List Char)
  | [] => some []
  | .char c :: rest => (textOf? rest).map (c :: ·)
  | .code n :: tail@(.code m :: rest) =>
    match paired? n m with
    | some c => (textOf? rest).map (c :: ·)
    | none => do return (← charOfCode? n) :: (← textOf? tail)
  | .code n :: rest => do return (← charOfCode? n) :: (← textOf? rest)

/-! ## Values -/

def blank : Scan Unit := discard (Scan.run fun c => c == ' ' || c == '\n' || c == '\t' || c == '\r')

/-- Something with blanks around it. -/
def spaced {α : Type} (s : Scan α) : Scan α := do
  blank
  let a ← s
  blank
  return a

/-- Things between brackets. -/
def bracketed {α : Type} (left right : Char) (s : Scan α) : Scan (List α) := do
  Scan.exactly left
  blank
  let found ← Scan.optional? (Scan.between (Scan.exactly ',') (spaced s))
  Scan.exactly right
  return found.getD []

/-- A name and what it stands for. -/
def member (value : Scan Datum) : Scan (Option String × Datum) := do
  let name := (textOf? (← pieces)).map String.ofList
  blank
  Scan.exactly ':'
  blank
  return (name, ← value)

/-- A value that is nested so deep at most. -/
def value : Nat → Scan Datum
  | 0 => failure
  | depth + 1 => do
    match ← Scan.peek with
    | some '[' => return .list (← bracketed '[' ']' (value depth))
    | some '{' => return .table (← bracketed '{' '}' (member (value depth)))
    | some '"' => do discard pieces; return .other
    | some 't' => do Scan.word "true"; return .other
    | some 'f' => do Scan.word "false"; return .other
    | some 'n' => do Scan.word "null"; return .other
    | _ => return (← numeral).datum

/-- What a JSON text holds.  No value is nested deeper than its text is long. -/
def read? (text : String) : Option Datum := Scan.whole (spaced (value (text.length + 1))) text

end Json
end SignalRoute
