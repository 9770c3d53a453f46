import SignalRoute.Text.Datum
import SignalRoute.Text.Scan

/-!
# Keys and plain values of TOML

What stands on the two sides of an equals sign, lists and inline tables excepted: keys, strings,
numbers, truth values, dates and times.

Strings, truth values, dates and times are read for one reason only, to tell well-formed texts from
others; no setting is made of them, so each becomes `Datum.other`.

The alternatives of a value are tried in a fixed order, with dates before numbers and floats before
integers, since each of them begins like the next.  A scanner that fails gives the text back, so the
order is all that has to be right.
-/

set_option autoImplicit false

namespace SignalRoute
namespace Toml

/-! ## Blanks, comments and ends of lines -/

/-- Characters that may stand in comments and in most strings: tabs and what is no control
character. -/
def isPlain (c : Char) : Bool := c == '\t' || (0x20 ≤ c.toNat && c.toNat != 0x7f)

def blank : Scan Unit := discard (Scan.run fun c => c == ' ' || c == '\t')

def newline : Scan Unit := Scan.exactly '\n' <|> Scan.word "\r\n"

def comment : Scan Unit := do
  Scan.exactly '#'
  discard (Scan.run isPlain)

/-- The end of a line: blanks, perhaps a comment, and a new line or the end of the text. -/
def endOfLine : Scan Unit := do
  blank
  discard (Scan.optional? comment)
  newline <|> Scan.all

/-- Blanks, comments and new lines. -/
def gap : Scan Unit := do
  discard (Scan.many (discard (Scan.someRun fun c => c == ' ' || c == '\t') <|> newline <|>
    (do comment; newline)))

/-! ## Strings

Four kinds: basic and literal ones, each on one line or on several.
-/

/-- What stands after a backslash. -/
def escape : Scan Char := do
  let hex := fun (n : Nat) => do
    let digits ← Scan.times (Scan.satisfying (isDigitOf 16)) n
    match charOfCode? (digitsValue 16 digits) with
    | some c => return c
    | none => failure
  match ← Scan.satisfying fun _ => true with
  | 'u' => hex 4
  | 'U' => hex 8
  | 'b' => return .ofNat 0x08
  | 'f' => return .ofNat 0x0c
  | 'n' => return '\n'
  | 'r' => return '\r'
  | 't' => return '\t'
  | c => if c = '"' ∨ c = '\\' then return c else failure

/-- A string on one line, with escapes. -/
def basicText : Scan (List Char) := do
  Scan.exactly '"'
  let text ← Scan.many (do
    match ← Scan.satisfying fun c => isPlain c && c != '"' with
    | '\\' => escape
    | c => return c)
  Scan.exactly '"'
  return text

/-- A string on one line, taken as it is. -/
def literalText : Scan (List Char) := do
  Scan.exactly '\''
  let text ← Scan.run fun c => isPlain c && c != '\''
  Scan.exactly '\''
  return text

/-- So many marks, and no more of them behind. -/
def marks (mark : Char) (low high : Nat) : Scan Unit := do
  let found ← Scan.run (· == mark)
  if low ≤ found.length ∧ found.length ≤ high then return () else failure

/-- A string over several lines.  Fewer than three marks in a row belong to it, and so may two
before the three that close it. -/
def longText (mark : Char) (piece : Scan Unit) : Scan Unit := do
  Scan.word (String.ofList [mark, mark, mark])
  discard (Scan.many (newline <|> piece <|> marks mark 1 2))
  marks mark 3 5

/-- A piece of a long string with escapes; a backslash may also stand at the end of a line. -/
def longPiece : Scan Unit := do
  match ← Scan.satisfying fun c => isPlain c && c != '"' with
  | '\\' => (do blank; newline) <|> discard escape
  | _ => return ()

def anyText : Scan Unit :=
  longText '"' longPiece <|> longText '\'' (discard (Scan.satisfying fun c => isPlain c && c != '\''))
    <|> discard basicText <|> discard literalText

/-! ## Keys -/

def isBare (c : Char) : Bool :=
  isDigit c || ('a' ≤ c && c ≤ 'z') || ('A' ≤ c && c ≤ 'Z') || c == '_' || c == '-'

/-- One part of a key. -/
def simpleKey : Scan String :=
  String.ofList <$> (basicText <|> literalText <|> Scan.someRun isBare)

/-- How deep keys and values may go. -/
def depthLimit : Nat := 80

/-- The parts of a key, with dots between them. -/
def key : Scan (List String) := do
  let parts ← Scan.between (Scan.exactly '.') (do
    blank
    let part ← simpleKey
    blank
    return part)
  if parts.length < depthLimit then return parts else failure

/-! ## Numbers

Underscores may stand between digits and nowhere else, and a decimal has no leading zeros.  The
other bases have their own prefixes, and no signs.
-/

/-- Digits of a base; a single underscore may stand between two of them. -/
def digits (base : Nat) : Scan (List Char) := do
  let digit := Scan.satisfying (isDigitOf base)
  return (← digit) :: (← Scan.many (digit <|> (do Scan.exactly '_'; digit)))

/-- A sign, if there is one; is it a minus? -/
def sign : Scan Bool := do
  let found ← Scan.optional? (Scan.satisfying fun c => c == '+' || c == '-')
  return found == some '-'

/-- Decimal digits without a zero in front. -/
def wholePart : Scan (List Char) := do
  if (← Scan.peek) == some '0' then return [← Scan.satisfying isDigit] else digits 10

/-- An integer of 64 bits. -/
def inRange (n : Int) : Scan Datum :=
  if -0x8000000000000000 ≤ n ∧ n < 0x8000000000000000 then pure (.integer n) else failure

def basedInteger (mark : String) (base : Nat) : Scan Datum := do
  Scan.word mark
  inRange (digitsValue base (← digits base))

def integer : Scan Datum :=
  basedInteger "0x" 16 <|> basedInteger "0o" 8 <|> basedInteger "0b" 2 <|> do
    let negative ← sign
    let n : Int := digitsValue 10 (← wholePart)
    inRange (if negative then -n else n)

/-- A number with a point or an exponent, rounded to the nearest double.  What would round to
infinity is refused, but not below zero. -/
def float : Scan Datum := do
  let negative ← sign
  let whole ← wholePart
  let fraction ← Scan.optional? (do Scan.exactly '.'; digits 10)
  let exponent ← Scan.optional? (do
    discard (Scan.satisfying fun c => c == 'e' || c == 'E')
    let negative ← sign
    let n : Int := digitsValue 10 (← digits 10)
    return if negative then -n else n)
  if fraction.isNone && exponent.isNone then failure
  let fraction := fraction.getD []
  let x := Number.Decimal.toFloat ⟨digitsValue 10 (whole ++ fraction),
    exponent.getD 0 - (fraction.length : Int)⟩
  if x.isInf && !negative then failure
  return .float (Number.signedFloat negative x)

/-- Infinities and what is no number. -/
def namedFloat : Scan Datum := do
  let negative ← sign
  let x : Float ← (do Scan.word "inf"; return .ofBits (UInt64.ofNat Number.infinityBits)) <|>
    (do Scan.word "nan"; return .ofBits (UInt64.ofNat Number.quietBits))
  return .float (Number.signedFloat negative x)

/-! ## Dates and times -/

/-- A number of exactly so many digits, within bounds. -/
def fixed (count low high : Nat) : Scan Nat := do
  let n := digitsValue 10 (← Scan.times (Scan.satisfying isDigit) count)
  if low ≤ n ∧ n ≤ high then return n else failure

/-- The number of days in a month. -/
def monthDays (year month : Nat) : Nat :=
  if month = 2 then
    if year % 4 = 0 ∧ (year % 100 ≠ 0 ∨ year % 400 = 0) then 29 else 28
  else if month = 4 ∨ month = 6 ∨ month = 9 ∨ month = 11 then 30
  else 31

def date : Scan Unit := do
  let year ← fixed 4 0 9999
  Scan.exactly '-'
  let month ← fixed 2 1 12
  Scan.exactly '-'
  discard (fixed 2 1 (monthDays year month))

def hourMinute : Scan Unit := do
  discard (fixed 2 0 23)
  Scan.exactly ':'
  discard (fixed 2 0 59)

/-- A time of day; a minute may have a leap second. -/
def time : Scan Unit := do
  hourMinute
  Scan.exactly ':'
  discard (fixed 2 0 60)
  discard (Scan.optional? (do Scan.exactly '.'; Scan.someRun isDigit))

def zone : Scan Unit :=
  discard (Scan.satisfying fun c => c == 'Z' || c == 'z') <|> do
    discard (Scan.satisfying fun c => c == '+' || c == '-')
    hourMinute

def moment : Scan Unit :=
  (do
    date
    discard (Scan.optional? (do
      discard (Scan.satisfying fun c => c == 'T' || c == 't' || c == ' ')
      time
      discard (Scan.optional? zone)))) <|> time

/-! ## Plain values -/

def plainValue : Scan Datum := do
  (do moment; return .other) <|> float <|> namedFloat <|> integer <|>
    (do Scan.word "true"; return .other) <|> (do Scan.word "false"; return .other) <|>
    (do anyText; return .other)

end Toml
end SignalRoute
