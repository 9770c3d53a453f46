import SignalRoute.Number.Decimal

/-!
# What a settings text holds

Settings are kept in two notations.  Both are read into a `Datum`, and from there on they differ in
one thing only: whether a list may go on behind the last field of the record that it stands for.

A datum keeps what a setting can be made of, which is numbers, lists and tables.  Everything else is
`other`, and so is a number that no double holds: such things may stand under a name that means
nothing, but they are no setting.

A record asks for its fields by name, in an order of its own, and gets them in that order whatever
the notation was.  So a reader is a pattern match on a list of fields that may be missing.
-/

set_option autoImplicit false

namespace SignalRoute

/-- A part of a settings text. -/
inductive Datum where
  | integer (n : Int)
  | float (x : Float)
  | list (items : List Datum)
  /-- Names and what they stand for, in the order of the text.  `none` is a name with half a
  character in it. -/
  | table (entries : List (Option String × Datum))
  | other
deriving Inhabited

namespace Datum

/-- An integer below a bound. -/
def natBelow? (bound : Nat) : Datum → Option Nat
  | integer n => if 0 ≤ n ∧ n < bound then some n.toNat else none
  | _ => none

def byte? (d : Datum) : Option UInt8 := (d.natBelow? 0x100).map UInt8.ofNat

def word32? (d : Datum) : Option UInt32 := (d.natBelow? 0x100000000).map UInt32.ofNat

def word64? (d : Datum) : Option UInt64 := (d.natBelow? 0x10000000000000000).map UInt64.ofNat

/-- A number as a double. -/
def float? : Datum → Option Float
  | integer n => some (Number.floatOfInt n)
  | float x => some x
  | _ => none

/-! ## Records -/

/-- What a name stands for: nothing if it does not occur, a failure if it occurs twice. -/
def named? (entries : List (Option String × Datum)) (name : String) : Option (Option Datum) :=
  match entries.filter fun e => e.1 == some name with
  | [] => some none
  | [e] => some (some e.2)
  | _ => none

/-- The fields of a record, in the order of their names.  A table gives them by name and may hold
other names; a list gives them in order and may stop early, and it may go on behind the last one
only where notations allow it. -/
def fields? (openEnded : Bool) (names : List String) : Datum → Option (List (Option Datum))
  | table entries =>
    if entries.any fun e => e.1.isNone then none else names.mapM (named? entries)
  | list items =>
    if items.length ≤ names.length || openEnded then
      some ((List.range names.length).map fun i => items[i]?)
    else none
  | _ => none

/-- A field, or its default if it is missing. -/
def fieldOr {α : Type} (read : Datum → Option α) (default : α) : Option Datum → Option α
  | none => some default
  | some d => read d

end Datum
end SignalRoute
