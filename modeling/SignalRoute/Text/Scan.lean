/-!
# Scanning text

A scanner takes characters off the front of a text and makes something of them, or fails.  A
scanner that fails leaves nothing behind: the text that was there is still there, for another
scanner to be tried on it.

* `Scan.satisfying`, `Scan.exactly` and `Scan.word` take what they are told to take.
* `Scan.run` takes characters as long as they fit, `Scan.many` things as long as there are some.
* `Scan.between` takes things with a separator between them.
* `Scan.all` is the end of the text, and `Scan.whole` what a scanner makes of a whole text.

Repetition is bounded by the length of the text, which every scanner worth repeating shortens.

A scanner is a state monad over `Option`, with no position and no message.  A text that cannot be
read is reported as a whole, so there is nothing to be gained from knowing where it went wrong.
-/

set_option autoImplicit false

namespace SignalRoute

/-- Takes something off the front of a text, or fails. -/
abbrev Scan (α : Type) := StateT (List Char) Option α

namespace Scan

variable {α β : Type}

/-- The next character, which stays; `none` at the end. -/
def peek : Scan (Option Char) := fun cs => some (cs.head?, cs)

/-- A character that fits. -/
def satisfying (fits : Char → Bool) : Scan Char
  | c :: rest => if fits c then some (c, rest) else none
  | [] => none

def exactly (c : Char) : Scan Unit := discard (satisfying (· == c))

def wordOf : List Char → Scan Unit
  | [] => pure ()
  | c :: rest => do exactly c; wordOf rest

def word (w : String) : Scan Unit := wordOf w.toList

/-- The characters up to the first that does not fit. -/
def run (fits : Char → Bool) : Scan (List Char) := fun cs =>
  some (cs.takeWhile fits, cs.dropWhile fits)

/-- A run of at least one character. -/
def someRun (fits : Char → Bool) : Scan (List Char) := do
  return (← satisfying fits) :: (← run fits)

/-- What a scanner finds, if it finds anything. -/
def optional? (s : Scan α) : Scan (Option α) := (some <$> s) <|> pure none

/-- Things in a row, so many at most. -/
def manyUpTo (s : Scan α) : Nat → Scan (List α)
  | 0 => pure []
  | n + 1 => do
    match ← optional? s with
    | none => pure []
    | some a => return a :: (← manyUpTo s n)

/-- Things in a row, as many as there are. -/
def many (s : Scan α) : Scan (List α) := fun cs => manyUpTo s cs.length cs

/-- A thing so many times. -/
def times (s : Scan α) : Nat → Scan (List α)
  | 0 => pure []
  | n + 1 => do return (← s) :: (← times s n)

/-- At least one thing, with separators between them. -/
def between (separator : Scan β) (s : Scan α) : Scan (List α) := do
  return (← s) :: (← many (do discard separator; s))

/-- The end of the text. -/
def all : Scan Unit
  | [] => some ((), [])
  | _ => none

/-- What a scanner makes of a whole text. -/
def whole (s : Scan α) (text : String) : Option α :=
  (do let a ← s; all; return a : Scan α).run' text.toList

end Scan

/-! ## Digits

Shared by both notations.  The value of a character is asked for only after it is known to be a
digit of the base.
-/

def isDigit (c : Char) : Bool := '0' ≤ c && c ≤ '9'

/-- The value of a digit in bases up to 16; letters may be large or small. -/
def digitValue (c : Char) : Nat :=
  if isDigit c then c.toNat - 48 else if 'a' ≤ c then c.toNat - 87 else c.toNat - 55

/-- Is a character a digit of a base up to 16? -/
def isDigitOf (base : Nat) (c : Char) : Bool :=
  (isDigit c || ('a' ≤ c && c ≤ 'f') || ('A' ≤ c && c ≤ 'F')) && digitValue c < base

/-- The number that digits spell. -/
def digitsValue (base : Nat) (cs : List Char) : Nat :=
  cs.foldl (fun n c => base * n + digitValue c) 0

/-- The character with a code, unless the code is half of a pair or beyond the last one. -/
def charOfCode? (code : Nat) : Option Char := if code.isValidChar then some (.ofNat code) else none

end SignalRoute
