/-!
# Decimal numbers and floats

A double is a whole number of units of a power of two, so the questions that turn up where decimals
are read and written can be settled with whole numbers.

* `nearest` is the double nearest to a fraction, ties going to the even one.
* `Decimal.toFloat` reads a decimal that way.
* `shortest` is the decimal with the fewest digits that reads back as the same double, and among
  those the one nearest to it.
* `positional` and `scientific` spell a double with these digits.

A float has bits, and no theory here beyond them: all comparisons are made between natural numbers,
over a common denominator, and the float is put together at the end.  So nothing in this file
depends on how floats are added or multiplied.
-/

set_option autoImplicit false

namespace SignalRoute
namespace Number

/-! ## Fractions to doubles -/

/-- The whole number nearest to a fraction, ties going to the even one. -/
def roundHalfEven (num den : Nat) : Nat :=
  let q := num / den
  let twice := 2 * (num % den)
  if twice < den then q else if den < twice then q + 1 else q + q % 2

/-- A power of two.  Powers below the first are one; fractions are kept as two numbers, one of which
takes the power of an exponent and the other that of its negative. -/
def twoTo (e : Int) : Nat := Nat.pow 2 e.toNat

/-- A power of ten, likewise. -/
def tenTo (e : Int) : Nat := Nat.pow 10 e.toNat

/-- Is `2 ^ e` at most the fraction? -/
def powerFits (num den : Nat) (e : Int) : Bool := den * twoTo e ≤ num * twoTo (-e)

/-- The highest power of two that a positive fraction reaches, as its exponent. -/
def binaryExponent (num den : Nat) : Int :=
  let e : Int := (num.log2 : Int) - (den.log2 : Int)
  if powerFits num den e then e else e - 1

/-- How many units a double with its leading bit has at least. -/
def fullUnits : Nat := 0x10000000000000

/-- The bit of the sign. -/
def signBit : Nat := 0x8000000000000000

/-- The bits of infinity. -/
def infinityBits : Nat := 0x7ff0000000000000

/-- The bits of what is no number. -/
def quietBits : Nat := 0x7ff8000000000000

/-- The bits of the double nearest to a positive fraction.  A unit is `2 ^ (-shift)`: 52 places
below the leading bit, or the lowest place that a double has. -/
def nearestBits (num den : Nat) : Nat :=
  let e := max (binaryExponent num den) (-1022)
  let shift : Int := 52 - e
  let units := roundHalfEven (num * twoTo shift) (den * twoTo (-shift))
  min infinityBits ((e + 1022).toNat * fullUnits + units)

/-- The double nearest to a fraction. -/
def nearest (num den : Nat) : Float :=
  if num = 0 then 0 else .ofBits (UInt64.ofNat (nearestBits num den))

/-- A number with a sign. -/
def signedFloat (negative : Bool) (x : Float) : Float := if negative then -x else x

/-- The double nearest to an integer. -/
def floatOfInt (n : Int) : Float := signedFloat (n < 0) (nearest n.natAbs 1)

/-! ## Decimals -/

/-- The number `digits * 10 ^ exponent`. -/
structure Decimal where
  digits : Nat
  exponent : Int
deriving DecidableEq, Repr, Inhabited

/-- The nearest double.  Exponents beyond every double are settled without computing the power:
digits of `b` bits are below `10 ^ (b + 1)`. -/
def Decimal.toFloat (d : Decimal) : Float :=
  if d.digits = 0 then 0
  else if 400 < d.exponent then .ofBits (UInt64.ofNat infinityBits)
  else if d.exponent < -(400 + (d.digits.log2 : Int)) then 0
  else nearest (d.digits * tenTo d.exponent) (tenTo (-d.exponent))

/-! ## Doubles to decimals

The decimals that read as a double lie between its two neighbours.  The search goes through the
exponents from the highest down and takes the first at which such a decimal exists, so it has the
fewest digits.
-/

/-- What a positive finite double stands for: `units * 2 ^ exponent`. -/
structure Units where
  units : Nat
  exponent : Int

/-- The units of a double, its sign aside. -/
def unitsOf (x : Float) : Units :=
  let bits : Nat := x.toBits.toNat % signBit
  let e : Nat := bits / fullUnits
  if e = 0 then ⟨bits, -1074⟩ else ⟨fullUnits + bits % fullUnits, (e : Int) - 1075⟩

/-- A double among its neighbours, everything in quarters of a unit over a common denominator.
Every number from `low` to `high` reads as the double; the ends do if `closed`. -/
structure Range where
  low : Nat
  middle : Nat
  high : Nat
  den : Nat
  closed : Bool

/-- The numbers that read as a double.  Below a power of two the doubles lie twice as dense. -/
def Units.range (u : Units) : Range :=
  let down := if u.units = fullUnits ∧ -1074 < u.exponent then 1 else 2
  let scale := twoTo u.exponent
  ⟨(4 * u.units - down) * scale, 4 * u.units * scale, (4 * u.units + 2) * scale,
    4 * twoTo (-u.exponent), u.units % 2 = 0⟩

/-- Does `digits * 10 ^ exponent` read as the double? -/
def Range.holds (r : Range) (d : Decimal) : Bool :=
  let n := d.digits * tenTo d.exponent * r.den
  let scale := tenTo (-d.exponent)
  if r.closed then r.low * scale ≤ n && n ≤ r.high * scale
  else r.low * scale < n && n < r.high * scale

/-- Which of two neighbouring decimals is taken when the double lies in the middle. -/
inductive Tie where
  | even
  | up
deriving DecidableEq, Repr

/-- The decimal with this exponent that is nearest to the double among those that read as it. -/
def Range.decimal? (r : Range) (tie : Tie) (exponent : Int) : Option Decimal :=
  let num := r.middle * tenTo (-exponent)
  let den := r.den * tenTo exponent
  let below : Decimal := ⟨num / den, exponent⟩
  let above : Decimal := ⟨num / den + 1, exponent⟩
  let twice := 2 * (num % den)
  let upward := den < twice || (twice = den && (tie = .up || num / den % 2 = 1))
  if num % den = 0 then some below
  else if r.holds above && (upward || !r.holds below) then some above
  else if r.holds below then some below
  else none

/-- The first exponent, from this one down, at which a decimal reads as the double. -/
def Range.search (r : Range) (tie : Tie) : Nat → Int → Decimal
  | 0, exponent => ⟨r.middle * tenTo (-exponent) / (r.den * tenTo exponent), exponent⟩
  | fuel + 1, exponent =>
    match r.decimal? tie exponent with
    | some d => d
    | none => r.search tie fuel (exponent - 1)

/-- The shortest decimal that reads as a positive finite double.  No double reaches `10 ^ 309`, and
none has a digit that counts beyond the 324 first places. -/
def shortest (tie : Tie) (x : Float) : Decimal := (unitsOf x).range.search tie 640 309

/-! ## Spelling -/

def minus (x : Float) : String := if signBit ≤ x.toBits.toNat then "-" else ""

def zeros (n : Nat) : List Char := List.replicate n '0'

/-- Digits and a place for the point among them, counted from the left; there is always a digit on
both sides of the point. -/
def placePoint (digits : List Char) (place : Int) : List Char :=
  if place ≤ 0 then '0' :: '.' :: (zeros (-place).toNat ++ digits)
  else
    let whole := digits ++ zeros (place.toNat - digits.length)
    let fraction := whole.drop place.toNat
    whole.take place.toNat ++ '.' :: (if fraction.isEmpty then ['0'] else fraction)

/-- A double without an exponent.  It has at least one digit after the point; infinities and what is
no number have names. -/
def positional (x : Float) : String :=
  if x.isNaN then "nan"
  else if x.isInf then minus x ++ "inf"
  else if x == 0 then minus x ++ "0.0"
  else
    let d := shortest .up x
    let digits := (toString d.digits).toList
    minus x ++ String.ofList (placePoint digits (digits.length + d.exponent))

/-- A whole number with its sign, plus or minus. -/
def signedDigits (n : Int) : List Char :=
  (if n < 0 then '-' else '+') :: (toString n.natAbs).toList

/-- A finite double, with an exponent if its point lies more than five places before its digits or
more than sixteen behind the first. -/
def scientific (x : Float) : String :=
  if x == 0 then minus x ++ "0.0"
  else
    let d := shortest .even x
    let digits := (toString d.digits).toList
    let place : Int := digits.length + d.exponent
    let text :=
      if -5 < place ∧ place ≤ 16 then placePoint digits place
      else
        let power := 'e' :: signedDigits (place - 1)
        match digits with
        | first :: rest@(_ :: _) => first :: '.' :: (rest ++ power)
        | _ => digits ++ power
    minus x ++ String.ofList text

end Number
end SignalRoute
