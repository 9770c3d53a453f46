import SignalRoute.Proofs.Codec.Canonical
import SignalRoute.Proofs.Signal.Parts
import SignalRoute.Signal.Infer

/-!
# What a processor puts out, in general

`infer` makes the output of a processor by kind.  Seen from outside, every kind but the fuser does
the same: the output notifies from the processor module, remembers the processor and its input, and
has a shape and a kind that depend on those of the input alone (`infer_eq_ok`).

What a processor puts out can be told from what comes back of its configuration, as long as the few
fields fit that the output depends on (`Processor.KeepsOutput`).

`outputShape` and `outputKind` are the two functions that `infer` computes, without the signals
around them.  They follow it case by case, so that the proof that they agree with it is one case
split.  All theorems about shapes go through them, and look at shapes only.

Two descriptions are given because two questions are asked.  `Signal.IsOutput` lists what an output
has and is all that is needed to say that two outputs agree.  `Inferred.Made` says how it was made,
its parts included, and is what an induction on nested, enclosed or regular signals splits on: four
cases in place of the sixteen kinds of processors with their modes.
-/

set_option autoImplicit false

namespace SignalRoute
namespace Processor

/-- The shape of the output, by that of the input. -/
def outputShape (p : Processor) (shape : Shape) : Shape :=
  match p with
  | accumulator c => .scalar c.output (!c.counter && shape.signed)
  | multi c =>
    match c.mode with
    | .absolute | .reference => shape.rebased
    | .zone | .binary => (shape.withSize 1).withSign false
  | combiner _ => .scalar (shape.sizes.head?.getD 0) false
  | math c =>
    ⟨List.replicate (max shape.channels 1) c.output, shape.copies, 0,
      c.op.outputSigned shape.signed c.rhs⟩
  | pulse c =>
    match c.mode with
    | .width => .scalar 2 false
    | .area => shape.withSize 4
    | .peak => shape.rebased
    | .onDetect => .scalar 1 false
  | differential c =>
    match c.mode with
    | .absolute => shape.rebased
    | .differential => shape.withSign true
    | .binary => .scalar 1 true
  | threshold c =>
    match c.mode with
    | .absolute => shape.rebased
    | .binary => .scalar 1 true
  | buffer _ => .empty
  | packer c => shape.withCopies c.count
  | accounter c => ⟨[c.size, shape.length], 1, 0, false⟩
  | _ => shape.rebased

/-- The kind of the output, by that of the input. -/
def outputKind (p : Processor) (kind : SignalKind) : SignalKind :=
  match p with
  | accumulator c => if c.counter then .integer else kind
  | multi c =>
    match c.mode with
    | .absolute | .reference => kind
    | .zone | .binary => .integer
  | combiner _ => kind.scalar
  | math c =>
    match c.op with
    | .exponent => .bytes
    | _ => kind
  | pulse c =>
    match c.mode with
    | .width | .onDetect => .integer
    | .area | .peak => kind
  | differential c =>
    match c.mode with
    | .absolute | .differential => kind
    | .binary => .integer
  | threshold c =>
    match c.mode with
    | .absolute => kind
    | .binary => .integer
  | buffer _ => .integer
  | accounter _ => .accounted
  | _ => kind

def isFuser : Processor → Bool
  | fuser _ => true
  | _ => false

end Processor

/-- The signal `o` is what the processor `p`, fed by `s`, puts out while it has no id. -/
structure Signal.IsOutput (o s : Signal) (p : Processor) : Prop where
  address : o.address = .unindexed Module.processor ProcessorReg.notify
  shape : o.shape = p.outputShape s.shape
  kind : o.kind = p.outputKind s.kind
  processor : o.processor = some p
  input : o.input = some s
  index : o.index = none
  parts : o.kind.isVector = true → o.parts = o.channelParts
  /-- What an accounter puts before its data is a number of the same output. -/
  lead : o.kind = .accounted → ∀ u, o.parts.head? = some u →
    u.address = o.address ∧ u.kind = .integer

namespace Inferred

theorem notifies_isOutput {s : Signal} {p : Processor} {shape : Shape} {kind : SignalKind}
    (hshape : shape = p.outputShape s.shape) (hkind : kind = p.outputKind s.kind) :
    (notifies s p shape kind).IsOutput s p where
  address := rfl
  shape := hshape
  kind := hkind
  processor := rfl
  input := rfl
  index := rfl
  parts := fun _ => by cases kind <;> rfl
  lead := fun hk u hu => by
    -- what is no vector has no parts
    subst hk
    cases hu

theorem unchanged_isOutput {s : Signal} {p : Processor}
    (hshape : s.shape.rebased = p.outputShape s.shape) (hkind : s.kind = p.outputKind s.kind) :
    (unchanged s p).output.IsOutput s p :=
  notifies_isOutput hshape hkind

end Inferred

open Inferred in
/-- **Every processor but a fuser has an output**, told by its configuration and its input. -/
theorem infer_eq_ok {p : Processor} (hp : p.isFuser = false) (s : Signal) (fused : List Signal) :
    ∃ i, infer s p fused = .ok i ∧ i.output.IsOutput s p := by
  cases p with
  | passthrough c => exact ⟨_, rfl, notifies_isOutput rfl rfl⟩
  | accumulator c => exact ⟨_, rfl, notifies_isOutput rfl rfl⟩
  | average c => exact ⟨_, rfl, unchanged_isOutput rfl rfl⟩
  | single c => exact ⟨_, rfl, unchanged_isOutput rfl rfl⟩
  | multi c =>
    obtain ⟨signed, size, op, mode, references⟩ := c
    cases mode <;> exact ⟨_, rfl, notifies_isOutput rfl rfl⟩
  | combiner c => exact ⟨_, rfl, notifies_isOutput rfl rfl⟩
  | time c => exact ⟨_, rfl, unchanged_isOutput rfl rfl⟩
  | math c =>
    obtain ⟨output, input, signed, op, rhs, channels⟩ := c
    cases op <;> exact ⟨_, rfl, notifies_isOutput rfl rfl⟩
  | delay c => exact ⟨_, rfl, unchanged_isOutput rfl rfl⟩
  | pulse c =>
    obtain ⟨size, mode, threshold, width⟩ := c
    cases mode <;> exact ⟨_, rfl, notifies_isOutput rfl rfl⟩
  | differential c =>
    obtain ⟨size, signed, mode, distance⟩ := c
    cases mode <;> exact ⟨_, rfl, notifies_isOutput rfl rfl⟩
  | threshold c =>
    obtain ⟨size, signed, mode, boundary, hysteresis⟩ := c
    cases mode <;> exact ⟨_, rfl, notifies_isOutput rfl rfl⟩
  | buffer c => exact ⟨_, rfl, notifies_isOutput rfl rfl⟩
  | packer c => exact ⟨_, rfl, notifies_isOutput rfl rfl⟩
  | accounter c =>
    refine ⟨_, rfl, rfl, rfl, rfl, rfl, rfl, rfl, fun hv => ?_, fun _ u hu => ?_⟩
    · cases hv
    · cases hu
      exact ⟨rfl, rfl⟩
  | fuser c => cases hp

theorem infer_isOutput {p : Processor} (hp : p.isFuser = false) {s : Signal}
    {fused : List Signal} {i : Inferred} (h : infer s p fused = .ok i) :
    i.output.IsOutput s p := by
  obtain ⟨j, hj, houtput⟩ := infer_eq_ok hp s fused
  rw [hj] at h
  cases h
  exact houtput

/-! ## The ways in which outputs are made

The state of a processor is one of three: the counter of a passthrough, the sum of an accumulator,
which is what it puts out as well, and the data of a buffer, which are what it got.
-/

/-- The signal is put out or kept. -/
def Inferred.Yields (i : Inferred) (t : Signal) : Prop := t = i.output ∨ i.state = some t

/-- What a processor behind `s` puts out and keeps.  Most have an output like any other; the
accounter and the fuser say what their parts are. -/
inductive Inferred.Made (s : Signal) : Processor → List Signal → Inferred → Prop
  /-- Nothing is kept. -/
  | emitting {p : Processor} {fused : List Signal} (hp : p.isFuser = false) :
      Made s p fused (emitting s p (p.outputShape s.shape) (p.outputKind s.kind))
  /-- What is kept is a counter, the output, or the input. -/
  | keeping {p : Processor} {fused : List Signal} {shape : Shape} {kind : SignalKind}
      (hp : p.isFuser = false)
      (hshape : shape = .scalar 2 false ∨ shape = p.outputShape s.shape ∨ shape = s.shape.rebased) :
      Made s p fused ⟨notifies s p (p.outputShape s.shape) (p.outputKind s.kind),
        some (keeps s p shape kind)⟩
  | accounted {c : Accounter} {fused : List Signal} :
      Made s (.accounter c) fused
        ⟨{ notifies s (.accounter c) ⟨[c.size, s.shape.length], 1, 0, false⟩ .accounted with
            parts := [notifies s (.accounter c) (.scalar c.size false) .integer,
              s.atOffset c.size] }, none⟩
  | fused {c : Fuser} {fused : List Signal} :
      Made s (.fuser c) fused
        ⟨{ notifies s (.fuser c) ⟨[(stacked s.shape.length fused).2], 1, 0, false⟩ .fused with
            parts := s.atOffset 0 :: (stacked s.shape.length fused).1 }, none⟩

/-- Signals that lie behind each other are moved copies. -/
theorem exists_of_mem_stacked {fused : List Signal} {offset : UInt8} {t : Signal}
    (ht : t ∈ (stacked offset fused).1) : ∃ s ∈ fused, ∃ start, t = s.atOffset start := by
  induction fused generalizing offset with
  | nil => cases ht
  | cons s rest ih =>
    rcases List.mem_cons.1 ht with rfl | ht
    · exact ⟨s, List.mem_cons_self, offset, rfl⟩
    · obtain ⟨u, hu, hcopy⟩ := ih ht
      exact ⟨u, List.mem_cons_of_mem _ hu, hcopy⟩

/-- Every output is made in one of these ways. -/
theorem infer_made {s : Signal} {p : Processor} {fused : List Signal} {i : Inferred}
    (h : infer s p fused = .ok i) : Inferred.Made s p fused i := by
  cases p with
  | passthrough c =>
    cases h
    exact .keeping rfl (.inl rfl)
  | accumulator c =>
    cases h
    exact .keeping rfl (.inr (.inl rfl))
  | multi c =>
    obtain ⟨signed, size, op, mode, references⟩ := c
    cases mode <;> cases h <;> exact .emitting rfl
  | math c =>
    obtain ⟨output, input, signed, op, rhs, channels⟩ := c
    cases op <;> cases h <;> exact .emitting rfl
  | pulse c =>
    obtain ⟨size, mode, threshold, width⟩ := c
    cases mode <;> cases h <;> exact .emitting rfl
  | differential c =>
    obtain ⟨size, signed, mode, distance⟩ := c
    cases mode <;> cases h <;> exact .emitting rfl
  | threshold c =>
    obtain ⟨size, signed, mode, boundary, hysteresis⟩ := c
    cases mode <;> cases h <;> exact .emitting rfl
  | buffer c =>
    cases h
    exact .keeping rfl (.inr (.inr rfl))
  | accounter c =>
    cases h
    exact .accounted
  | fuser c =>
    rw [infer] at h
    split at h
    · cases h
    · cases h
      exact .fused
  | _ =>
    cases h
    exact .emitting rfl

/-! ## What is told by a truncated configuration

Between the host that built a route and the one that reads it back lies an encoding with narrow
fields.  What comes back is `Processor.truncated`; its references may differ from what was asked
for, but the output depends on widths, counts and modes alone.  The fields for these have limits of
their own, and those are what `KeepsOutput` asks for.  A fuser is left out since its output depends
on the buffers that it names by id.
-/

namespace Processor

/-- Do the fields fit that the output depends on?  A fuser's output depends on more than fields. -/
def KeepsOutput : Processor → Prop
  | accumulator c => Between 1 4 c.output
  | average c => c.channels = none → c.highPass = false
  | math c => Between 1 4 c.output
  | packer c => Between 1 32 c.count
  | accounter c => Between 1 16 c.size
  | fuser _ => False
  | _ => True

variable {p : Processor}

theorem KeepsOutput.isFuser (h : p.KeepsOutput) : p.isFuser = false := by
  cases p with
  | fuser c => exact h.elim
  | _ => rfl

theorem isFuser_truncated : p.truncated.isFuser = p.isFuser := by
  cases p <;> rfl

theorem KeepsOutput.outputShape_truncated (h : p.KeepsOutput) (shape : Shape) :
    p.truncated.outputShape shape = p.outputShape shape := by
  cases p with
  | accumulator c =>
    have hsize : wrapSize 0x3 c.output = c.output := (wrapSize_eq_self_iff rfl _).2 h
    simp only [truncated, outputShape, Accumulator.truncated, hsize]
  | math c =>
    have hsize : wrapSize 0x3 c.output = c.output := (wrapSize_eq_self_iff rfl _).2 h
    simp only [truncated, outputShape, Arithmetic.truncated, hsize]
  | packer c =>
    have hcount : wrapSize 0x1f c.count = c.count := (wrapSize_eq_self_iff rfl _).2 h
    simp only [truncated, outputShape, Packer.truncated, hcount]
  | accounter c =>
    have hsize : wrapSize 0xf c.size = c.size := (wrapSize_eq_self_iff rfl _).2 h
    simp only [truncated, outputShape, Accounter.truncated, hsize]
  | _ => rfl

theorem outputKind_truncated (kind : SignalKind) :
    p.truncated.outputKind kind = p.outputKind kind := by
  cases p <;> rfl

theorem KeepsOutput.label_truncated (h : p.KeepsOutput) : p.truncated.label = p.label := by
  cases p with
  | average c =>
    have hhighPass : (c.channels.isSome && c.highPass) = c.highPass := by
      cases hc : c.channels with
      | none => rw [show c.highPass = false from h hc]; rfl
      | some n => rfl
    simp only [truncated, label, Average.truncated, hhighPass]
  | _ => rfl

end Processor
end SignalRoute
