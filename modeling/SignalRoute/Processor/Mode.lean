import SignalRoute.Fault

/-!
# Modes and operators of processors

Each mode travels as a small number.  `WireCode` ties a mode to its numbers: `ofByte?` inverts
`toByte`, so a number means at most one mode, and `ofByte` names the mode that a wrong number was
meant for.

The two laws of `WireCode` are fields of the class, so every instance comes with them, and the round
trips of configurations follow from the laws.  The numbers themselves matter only where a mode
shares its byte with other fields, and must not be too large for its place.
-/

set_option autoImplicit false

namespace SignalRoute

/-! ## Codes

A byte that is no mode is a fault that names the type of the mode, so the name is a field of the
class as well.
-/

/-- A type whose values travel as single bytes. -/
class WireCode (α : Type) where
  /-- The name of the type in a fault. -/
  label : String
  toByte : α → UInt8
  ofByte? : UInt8 → Option α
  /-- Reading inverts writing. -/
  ofByte?_toByte : ∀ a, ofByte? (toByte a) = some a
  /-- Only what was written can be read. -/
  toByte_of_ofByte? : ∀ {b a}, ofByte? b = some a → toByte a = b

/-- The byte of a mode. -/
def toByte {α : Type} [WireCode α] (a : α) : UInt8 := WireCode.toByte a

/-- The mode of a byte, or a fault. -/
def ofByte {α : Type} [WireCode α] (b : UInt8) : Except Fault α :=
  match WireCode.ofByte? (α := α) b with
  | some a => .ok a
  | none =>
    .error (.protocol ("Invalid " ++ WireCode.label α ++ " value " ++ toString b.toNat))

theorem ofByte_eq_ok {α : Type} [WireCode α] {b : UInt8} {a : α} :
    ofByte b = .ok a ↔ toByte a = b := by
  unfold ofByte toByte
  constructor
  · intro h
    cases hb : WireCode.ofByte? (α := α) b with
    | none => simp [hb] at h
    | some x =>
      simp only [hb, Except.ok.injEq] at h
      exact h ▸ WireCode.toByte_of_ofByte? hb
  · rintro rfl
    simp [WireCode.ofByte?_toByte]

theorem ofByte_toByte {α : Type} [WireCode α] (a : α) : ofByte (toByte a) = .ok a :=
  ofByte_eq_ok.2 rfl

/-! ## Modes

The two kinds of comparisons share their operators.  Apart from these, each kind of processor has
enumerations of its own, also where the names agree, because the board numbers them independently of
each other.
-/

/-- Which samples a passthrough lets through. -/
inductive PassMode where
  | all | conditional | count
deriving DecidableEq, Repr, Inhabited

/-- The relation that a comparison tests. -/
inductive ComparisonOp where
  | eq | neq | lt | lte | gt | gte
deriving DecidableEq, Repr, Inhabited

/-- What a comparison against several references emits. -/
inductive ComparisonMode where
  | absolute | reference | zone | binary
deriving DecidableEq, Repr, Inhabited

/-- The root of the mean square, or of the sum of the squares. -/
inductive CombinerMode where
  | rms | rss
deriving DecidableEq, Repr, Inhabited

/-- What a time limiter emits. -/
inductive LimitMode where
  | absolute | differential
deriving DecidableEq, Repr, Inhabited

/-- An arithmetic operation. -/
inductive MathOp where
  | add | multiply | divide | modulus | exponent | sqrt | leftShift | rightShift | subtract
  | absValue | constant
deriving DecidableEq, Repr, Inhabited

/-- What a pulse detector reports. -/
inductive PulseMode where
  | width | area | peak | onDetect
deriving DecidableEq, Repr, Inhabited

/-- What a differential detector emits. -/
inductive DifferentialMode where
  | absolute | differential | binary
deriving DecidableEq, Repr, Inhabited

/-- What a threshold detector emits. -/
inductive ThresholdMode where
  | absolute | binary
deriving DecidableEq, Repr, Inhabited

/-- What an accounter puts before its data. -/
inductive AccountMode where
  | count | time
deriving DecidableEq, Repr, Inhabited

/-! ## Their numbers

These are the numbers of the board.  They ascend from 0, and from 1 for arithmetic, where no
operation has the number 0.
-/

instance : WireCode PassMode where
  label := "PassthroughMode"
  toByte
    | .all => 0
    | .conditional => 1
    | .count => 2
  ofByte?
    | 0 => some .all
    | 1 => some .conditional
    | 2 => some .count
    | _ => none
  ofByte?_toByte a := by cases a <;> rfl
  toByte_of_ofByte? {b a} h := by
    revert h
    split <;> intro h <;> cases h <;> rfl

instance : WireCode ComparisonOp where
  label := "ComparisonOp"
  toByte
    | .eq => 0
    | .neq => 1
    | .lt => 2
    | .lte => 3
    | .gt => 4
    | .gte => 5
  ofByte?
    | 0 => some .eq
    | 1 => some .neq
    | 2 => some .lt
    | 3 => some .lte
    | 4 => some .gt
    | 5 => some .gte
    | _ => none
  ofByte?_toByte a := by cases a <;> rfl
  toByte_of_ofByte? {b a} h := by
    revert h
    split <;> intro h <;> cases h <;> rfl

instance : WireCode ComparisonMode where
  label := "ComparisonMode"
  toByte
    | .absolute => 0
    | .reference => 1
    | .zone => 2
    | .binary => 3
  ofByte?
    | 0 => some .absolute
    | 1 => some .reference
    | 2 => some .zone
    | 3 => some .binary
    | _ => none
  ofByte?_toByte a := by cases a <;> rfl
  toByte_of_ofByte? {b a} h := by
    revert h
    split <;> intro h <;> cases h <;> rfl

instance : WireCode CombinerMode where
  label := "CombinerMode"
  toByte
    | .rms => 0
    | .rss => 1
  ofByte?
    | 0 => some .rms
    | 1 => some .rss
    | _ => none
  ofByte?_toByte a := by cases a <;> rfl
  toByte_of_ofByte? {b a} h := by
    revert h
    split <;> intro h <;> cases h <;> rfl

instance : WireCode LimitMode where
  label := "TimeMode"
  toByte
    | .absolute => 0
    | .differential => 1
  ofByte?
    | 0 => some .absolute
    | 1 => some .differential
    | _ => none
  ofByte?_toByte a := by cases a <;> rfl
  toByte_of_ofByte? {b a} h := by
    revert h
    split <;> intro h <;> cases h <;> rfl

instance : WireCode MathOp where
  label := "MathOp"
  toByte
    | .add => 1
    | .multiply => 2
    | .divide => 3
    | .modulus => 4
    | .exponent => 5
    | .sqrt => 6
    | .leftShift => 7
    | .rightShift => 8
    | .subtract => 9
    | .absValue => 10
    | .constant => 11
  ofByte?
    | 1 => some .add
    | 2 => some .multiply
    | 3 => some .divide
    | 4 => some .modulus
    | 5 => some .exponent
    | 6 => some .sqrt
    | 7 => some .leftShift
    | 8 => some .rightShift
    | 9 => some .subtract
    | 10 => some .absValue
    | 11 => some .constant
    | _ => none
  ofByte?_toByte a := by cases a <;> rfl
  toByte_of_ofByte? {b a} h := by
    revert h
    split <;> intro h <;> cases h <;> rfl

instance : WireCode PulseMode where
  label := "PulseMode"
  toByte
    | .width => 0
    | .area => 1
    | .peak => 2
    | .onDetect => 3
  ofByte?
    | 0 => some .width
    | 1 => some .area
    | 2 => some .peak
    | 3 => some .onDetect
    | _ => none
  ofByte?_toByte a := by cases a <;> rfl
  toByte_of_ofByte? {b a} h := by
    revert h
    split <;> intro h <;> cases h <;> rfl

instance : WireCode DifferentialMode where
  label := "DifferentialMode"
  toByte
    | .absolute => 0
    | .differential => 1
    | .binary => 2
  ofByte?
    | 0 => some .absolute
    | 1 => some .differential
    | 2 => some .binary
    | _ => none
  ofByte?_toByte a := by cases a <;> rfl
  toByte_of_ofByte? {b a} h := by
    revert h
    split <;> intro h <;> cases h <;> rfl

instance : WireCode ThresholdMode where
  label := "ThresholdMode"
  toByte
    | .absolute => 0
    | .binary => 1
  ofByte?
    | 0 => some .absolute
    | 1 => some .binary
    | _ => none
  ofByte?_toByte a := by cases a <;> rfl
  toByte_of_ofByte? {b a} h := by
    revert h
    split <;> intro h <;> cases h <;> rfl

instance : WireCode AccountMode where
  label := "AccountMode"
  toByte
    | .count => 0
    | .time => 1
  ofByte?
    | 0 => some .count
    | 1 => some .time
    | _ => none
  ofByte?_toByte a := by cases a <;> rfl
  toByte_of_ofByte? {b a} h := by
    revert h
    split <;> intro h <;> cases h <;> rfl

end SignalRoute
