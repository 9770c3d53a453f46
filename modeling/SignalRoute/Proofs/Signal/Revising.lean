import SignalRoute.Proofs.Signal.Output

/-!
# Revised processors

Two processors that differ in nothing but what editors change have the same `Processor.core`.  What
a processor puts out and keeps follows from its core, with one exception: whether the result of an
arithmetic operation is signed can depend on the sign of its operand (`MathOp.showsSign`).  So
revised processors have outputs of one shape exactly if the exception makes no difference
(`Processor.outputShape_eq_iff`).

An editor changes a stage of a route that stands, and nothing behind that stage is told.  That is
right as long as the stage puts out what it put out before, in shape and kind, since the stages
behind it were planned for that.  The core makes this a question about one stage: all processors
that an editor can make of `p` have the core of `p`, and everything about outputs is a function of
the core and of one more bit.

The bit is the sign of the operand of arithmetic.  It counts for constants, and for the operations
whose result is signed if the input or the operand is, as long as the input is not.
-/

set_option autoImplicit false

namespace SignalRoute

namespace MathOp

/-- Can the sign of the operand be told from the shape of the result, by the sign of the input? -/
def showsSign (op : MathOp) (signed : Bool) : Bool :=
  match op with
  | .subtract | .absValue | .sqrt => false
  | .constant => true
  | _ => !signed

theorem outputSigned_eq_iff (op : MathOp) (signed : Bool) (a b : Int32) :
    op.outputSigned signed a = op.outputSigned signed b ↔
      (op.showsSign signed = true → (a < 0 ↔ b < 0)) := by
  cases op <;> cases signed <;> simp [outputSigned, showsSign]

end MathOp

namespace Processor

/-- The processor without what editors change. -/
def core : Processor → Processor
  | passthrough _ => passthrough default
  | average c => average { c with samples := 0 }
  | single c => single { c with op := default, reference := 0 }
  | multi c => multi { c with op := default, references := [] }
  | math c => math { c with rhs := 0 }
  | delay c => delay { c with samples := 0 }
  | time c => time { c with period := 0 }
  | pulse c => pulse { c with threshold := 0, width := 0 }
  | threshold c => threshold { c with boundary := 0, hysteresis := 0 }
  | differential c => differential { c with distance := 0 }
  | p => p

/-- The shape of the state, by that of the input. -/
def stateShape? (p : Processor) (shape : Shape) : Option Shape :=
  match p with
  | passthrough _ => some (.scalar 2 false)
  | accumulator _ => some (p.outputShape shape)
  | buffer _ => some shape.rebased
  | _ => none

/-- The kind of the state, by that of the input. -/
def stateKind? (p : Processor) (kind : SignalKind) : Option SignalKind :=
  match p with
  | passthrough _ => some .integer
  | accumulator _ => some (p.outputKind kind)
  | buffer _ => some kind
  | _ => none

/-- Is the result signed, if it is one of arithmetic? -/
def resultSigned? (p : Processor) (shape : Shape) : Option Bool :=
  match p with
  | math c => some (c.op.outputSigned shape.signed c.rhs)
  | _ => none

/-! ## What follows from the core

Each function of a processor is computed from its core, by cases that all close by `rfl`.
`outputShape_eq_core` is the exception written as an equation: the shape of the core, with the sign
of the processor itself.
-/

theorem isFuser_core (p : Processor) : p.core.isFuser = p.isFuser := by
  cases p <;> rfl

theorem outputKind_core (p : Processor) (kind : SignalKind) :
    p.core.outputKind kind = p.outputKind kind := by
  cases p <;> rfl

theorem stateShape?_core (p : Processor) (shape : Shape) :
    p.core.stateShape? shape = p.stateShape? shape := by
  cases p <;> rfl

theorem stateKind?_core (p : Processor) (kind : SignalKind) :
    p.core.stateKind? kind = p.stateKind? kind := by
  cases p <;> rfl

theorem isSome_resultSigned?_core (p : Processor) (shape : Shape) :
    (p.core.resultSigned? shape).isSome = (p.resultSigned? shape).isSome := by
  cases p <;> rfl

/-- The shape of the output follows from the core but for the sign of results. -/
theorem outputShape_eq_core (p : Processor) (shape : Shape) :
    p.outputShape shape = { p.core.outputShape shape with
      signed := (p.resultSigned? shape).getD (p.core.outputShape shape).signed } := by
  cases p <;> rfl

variable {p q : Processor}

theorem eq_of_core_of_isFuser (h : q.core = p.core) (hp : p.isFuser = true) : q = p := by
  cases p with
  | fuser c =>
    cases q with
    | fuser c' => exact h
    | _ => cases h
  | _ => cases hp

/-- The operands of two processors have the same sign if it can be told. -/
def SameSign (signed : Bool) (p q : Processor) : Prop :=
  ∀ c c', p = math c → q = math c' → c.op.showsSign signed = true → (c'.rhs < 0 ↔ c.rhs < 0)

theorem sameSign_math {c c' : Arithmetic} {signed : Bool} :
    SameSign signed (math c) (math c') ↔
      (c.op.showsSign signed = true → (c'.rhs < 0 ↔ c.rhs < 0)) := by
  refine ⟨fun h => h c c' rfl rfl, fun h a a' ha ha' => ?_⟩
  cases ha
  cases ha'
  exact h

theorem resultSigned?_eq_iff (h : q.core = p.core) (shape : Shape) :
    q.resultSigned? shape = p.resultSigned? shape ↔ SameSign shape.signed p q := by
  cases p with
  | math c =>
    cases q with
    | math c' =>
      have hcore : math { c' with rhs := 0 } = math { c with rhs := 0 } := h
      obtain ⟨-, -, -, hop, -⟩ := Arithmetic.mk.inj (math.inj hcore)
      rw [sameSign_math, ← MathOp.outputSigned_eq_iff, resultSigned?, resultSigned?, hop,
        Option.some.injEq]
    | _ => cases h
  | _ =>
    have hnone := q.isSome_resultSigned?_core shape
    rw [h] at hnone
    have hnone : q.resultSigned? shape = none :=
      Option.not_isSome_iff_eq_none.1 (hnone ▸ Bool.false_ne_true)
    exact ⟨fun _ c c' hc => (nomatch hc), fun _ => hnone⟩

/-- **Revised processors have outputs of one shape** exactly if their operands have the same sign,
or if it cannot be told. -/
theorem outputShape_eq_iff (h : q.core = p.core) (shape : Shape) :
    q.outputShape shape = p.outputShape shape ↔ SameSign shape.signed p q := by
  have hsome : (q.resultSigned? shape).isSome = (p.resultSigned? shape).isSome := by
    rw [← isSome_resultSigned?_core, h, isSome_resultSigned?_core]
  rw [← resultSigned?_eq_iff h, q.outputShape_eq_core, p.outputShape_eq_core, h]
  simp only [Shape.mk.injEq, true_and]
  cases hq : q.resultSigned? shape with
  | none =>
    cases hp : p.resultSigned? shape with
    | none => exact iff_of_true rfl rfl
    | some b =>
      rw [hq, hp] at hsome
      cases hsome
  | some a =>
    cases hp : p.resultSigned? shape with
    | none =>
      rw [hq, hp] at hsome
      cases hsome
    | some b => exact Option.some_inj.symm

end Processor

/-- What a processor keeps, by its input. -/
theorem infer_state {s : Signal} {p : Processor} {fused : List Signal} {i : Inferred}
    (h : infer s p fused = .ok i) :
    i.state.map Signal.shape = p.stateShape? s.shape ∧
      i.state.map Signal.kind = p.stateKind? s.kind := by
  cases p with
  | multi c =>
    obtain ⟨signed, size, op, mode, references⟩ := c
    cases mode <;> cases h <;> exact ⟨rfl, rfl⟩
  | math c =>
    obtain ⟨output, input, signed, op, rhs, channels⟩ := c
    cases op <;> cases h <;> exact ⟨rfl, rfl⟩
  | pulse c =>
    obtain ⟨size, mode, threshold, width⟩ := c
    cases mode <;> cases h <;> exact ⟨rfl, rfl⟩
  | differential c =>
    obtain ⟨size, signed, mode, distance⟩ := c
    cases mode <;> cases h <;> exact ⟨rfl, rfl⟩
  | threshold c =>
    obtain ⟨size, signed, mode, boundary, hysteresis⟩ := c
    cases mode <;> cases h <;> exact ⟨rfl, rfl⟩
  | fuser c =>
    rw [infer] at h
    split at h
    · cases h
    · cases h
      exact ⟨rfl, rfl⟩
  | _ =>
    cases h
    exact ⟨rfl, rfl⟩

/-- **What a revised processor puts out and keeps.**  It takes what the processor takes.  Kinds and
state are the same, and the shape of the output is exactly if the sign of the operand is, where it
can be told. -/
theorem infer_of_core {s : Signal} {p q : Processor} {fused : List Signal} {i : Inferred}
    (h : q.core = p.core) (hi : infer s p fused = .ok i) :
    ∃ j, infer s q fused = .ok j ∧ j.output.kind = i.output.kind ∧
      j.state.map Signal.shape = i.state.map Signal.shape ∧
      j.state.map Signal.kind = i.state.map Signal.kind ∧
      (j.output.shape = i.output.shape ↔ Processor.SameSign s.shape.signed p q) := by
  cases hp : p.isFuser with
  | true =>
    obtain rfl := Processor.eq_of_core_of_isFuser h hp
    exact ⟨i, hi, rfl, rfl, rfl, iff_of_true rfl fun c c' hc hc' => by
      cases hc.symm.trans hc'
      exact fun _ => Iff.rfl⟩
  | false =>
    have hq : q.isFuser = false := by rw [← q.isFuser_core, h, p.isFuser_core, hp]
    obtain ⟨j, hj, hout⟩ := infer_eq_ok hq s fused
    have hin := infer_isOutput hp hi
    obtain ⟨hshape, hkind⟩ := infer_state hi
    obtain ⟨hshape', hkind'⟩ := infer_state hj
    refine ⟨j, hj, ?_, ?_, ?_, ?_⟩
    · rw [hout.kind, hin.kind, ← q.outputKind_core, h, p.outputKind_core]
    · rw [hshape, hshape', ← q.stateShape?_core, h, p.stateShape?_core]
    · rw [hkind, hkind', ← q.stateKind?_core, h, p.stateKind?_core]
    · rw [hout.shape, hin.shape]
      exact Processor.outputShape_eq_iff h s.shape

end SignalRoute
