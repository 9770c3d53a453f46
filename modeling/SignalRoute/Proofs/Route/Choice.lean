import SignalRoute.Proofs.Outcome
import SignalRoute.Proofs.Signal.Output
import SignalRoute.Route.Step

/-!
# Stages that a board can tell

Most steps of a route put one processor behind the signal, chosen from the board and the signal
alone (`Step.choice`).  A processor suits its signal if the board reads it back as what it is, up to
operands, and if its output is tame again.  `Step.suits`: on signals of up to eight bytes, whatever
a step chooses suits.

The bound is needed for the steps that widen channels to four bytes.

`Step.apply_of_choice` takes a step to its choice once, and everything behind it is about functions
that answer a processor or refuse.  So a new kind of stage adds one lemma here, and what is
concluded for routes stays as it is.
-/

set_option autoImplicit false

namespace SignalRoute

/-- The processor of a step that puts one behind the signal and does nothing else. -/
def Step.choice : Step → Option (Device → Signal → Except Fault Processor)
  | average n | lowPass n => some fun d s => s.averaging d n false
  | highPass n => some fun d s => s.highPassing d n
  | accumulate => some fun _ s => s.accumulating
  | count => some fun _ s => .ok s.counting
  | filter op references =>
    some fun d s =>
      s.comparing d op .absolute (references.map fun x => (toUnits s.scale x).toInt64)
  | filterMode op mode references =>
    some fun d s => s.comparing d op mode (references.map fun x => (toUnits s.scale x).toInt64)
  | map op rhs =>
    some fun d s =>
      s.computing d (mathOperand s.scale op rhs).1 (mathOperand s.scale op rhs).2
  | rms => some fun _ s => s.combining .rms
  | rss => some fun _ s => s.combining .rss
  | delay n => some fun d s => s.delaying d n
  | pulse mode level width => some fun _ s => s.findingPulse mode level width
  | threshold mode boundary hysteresis =>
    some fun _ s => s.findingThreshold mode boundary hysteresis
  | differential mode distance => some fun _ s => s.findingDifferential mode distance
  | pack n => some fun _ s => s.packing n
  | account mode => some fun _ s => s.accounting mode
  | limit mode value => some fun _ _ => .ok (.passthrough ⟨mode, value⟩)
  | limitPeriod ms => some fun _ s => s.limitingPeriod ms
  | _ => none

theorem Step.apply_of_choice {step : Step} {choice : Device → Signal → Except Fault Processor}
    (h : step.choice = some choice) (c : Cursor) : step.apply c = Drafting.stage c choice := by
  cases step <;> cases h <;> rfl

/-! ## What a stage asks of its input

What a check says about the signal once it was passed.  What stages refuse is not looked at.
-/

namespace Signal

variable {s : Signal} {what : String} {size : UInt8}

theorem requireScalar_ok (h : s.requireScalar what = .ok size) :
    s.shape.channels = 1 ∧ size = s.shape.length := by
  rw [requireScalar] at h
  obtain ⟨-, -, h⟩ := bind_eq_ok.1 h
  split at h
  · cases h
  · rename_i hscalar
    rw [not_or, not_not] at hscalar
    exact ⟨hscalar.1, (Except.ok.inj h).symm⟩

theorem Tame.not_isVector (hs : s.Tame) (h : s.shape.channels = 1) : s.kind.isVector = false := by
  rw [← Bool.not_eq_true]
  intro hv
  have := (hs.vector hv).1
  omega

/-- The first channel of a tame signal. -/
theorem Tame.firstSize_mem (hs : s.Tame) : s.firstSize ∈ s.shape.sizes := by
  rw [firstSize]
  cases hsizes : s.shape.sizes with
  | nil => exact absurd hsizes hs.shape.nonempty
  | cons n rest => exact List.mem_cons_self

theorem Tame.firstSize_pos (hs : s.Tame) : 1 ≤ s.firstSize.toNat :=
  hs.shape.sizes _ hs.firstSize_mem

theorem Tame.firstSize_le (hs : s.Tame) : s.firstSize.toNat ≤ s.shape.width :=
  List.single_le_sum (fun _ _ => Nat.zero_le _) _ (List.mem_map_of_mem hs.firstSize_mem)

theorem firstSize_le_of_isUniform (h : s.isUniform = true) : s.firstSize.toNat ≤ 4 := by
  rw [isUniform, Bool.and_eq_true, decide_eq_true_iff] at h
  exact h.1

end Signal

/-- The result of an operation on small channels is small. -/
theorem MathOp.between_outputSize (op : MathOp) {size : UInt8} (h : Between 1 4 size)
    (rhs : Int32) : Between 1 4 (op.outputSize size rhs) := by
  have hfour : Between 1 4 4 := by decide
  have hshifted (width : Int) : Between 1 4 (shiftedWidth width) := by
    have hcases : (max 1 (min width 4)).toNat = 1 ∨ (max 1 (min width 4)).toNat = 2 ∨
        (max 1 (min width 4)).toNat = 3 ∨ (max 1 (min width 4)).toNat = 4 := by omega
    rw [shiftedWidth]
    rcases hcases with h | h | h | h <;> rw [h] <;> decide
  cases op with
  | multiply =>
    rw [outputSize]
    split <;> assumption
  | divide =>
    rw [outputSize]
    split <;> assumption
  | leftShift => exact hshifted _
  | rightShift => exact hshifted _
  | add => exact hfour
  | exponent => exact hfour
  | constant => exact hfour
  | modulus => exact h
  | sqrt => exact h
  | subtract => exact h
  | absValue => exact h

/-! ## Processors that suit a signal

A processor suits a signal for reasons that are the same for many kinds.  What emits its input needs
nothing but a configuration that comes back, and what emits a small number nothing but its width.
-/

/-- The board reads the processor back with its output, and the output is tame. -/
structure Suits (d : Device) (s : Signal) (p : Processor) : Prop where
  layout : p.HasLayout d
  keeps : p.KeepsOutput
  shape : (p.outputShape s.shape).Tame
  vector : (p.outputKind s.kind).isVector = true → 2 ≤ (p.outputShape s.shape).channels

namespace Suits

variable {d : Device} {s : Signal} {p : Processor}

/-- Of a processor that emits what it gets, only the configuration matters. -/
theorem of_rebased (hs : s.Tame) (hlayout : p.HasLayout d) (hkeeps : p.KeepsOutput)
    (hshape : p.outputShape s.shape = s.shape.rebased) (hkind : p.outputKind s.kind = s.kind) :
    Suits d s p where
  layout := hlayout
  keeps := hkeeps
  shape := hshape ▸ hs.shape.rebased
  vector := fun hv => by
    rw [hkind] at hv
    rw [hshape]
    exact (hs.vector hv).1

/-- A small number is tame. -/
theorem of_scalar {size : UInt8} {signed : Bool} (hlayout : p.HasLayout d)
    (hkeeps : p.KeepsOutput) (hshape : p.outputShape s.shape = .scalar size signed)
    (hkind : (p.outputKind s.kind).isVector = false) (hlow : 1 ≤ size.toNat)
    (hhigh : size.toNat ≤ 32) : Suits d s p where
  layout := hlayout
  keeps := hkeeps
  shape := hshape ▸ .scalar hlow hhigh signed
  vector := fun hv => by
    rw [hkind] at hv
    cases hv

end Suits

namespace Signal

variable {d : Device} {s : Signal} {p : Processor}

theorem averaging_suits (hs : s.Tame) {samples : UInt8} {highPass : Bool}
    (h : s.averaging d samples highPass = .ok p) : Suits d s p := by
  obtain ⟨-, -, h⟩ := bind_eq_ok.1 h
  split at h
  · rename_i hd
    split at h
    · cases h
    · cases h
      exact .of_rebased hs (fun _ => hd) (fun hnone => by cases hnone) rfl rfl
  · split at h
    · cases h
    · cases h
      exact .of_rebased hs (fun hsome => by cases hsome) (fun _ => rfl) rfl rfl

theorem highPassing_suits (hs : s.Tame) {samples : UInt8}
    (h : s.highPassing d samples = .ok p) : Suits d s p := by
  rw [highPassing] at h
  split at h
  · exact averaging_suits hs h
  · cases h

theorem accumulating_suits (hs : s.Tame) (h : s.accumulating = .ok p) : Suits d s p := by
  obtain ⟨size, hsize, h⟩ := bind_eq_ok.1 h
  cases h
  have hfour : Between 1 4 4 := by decide
  exact .of_scalar trivial hfour rfl (hs.not_isVector (requireScalar_ok hsize).1) hfour.1
    (Nat.le_trans hfour.2 (by decide))

theorem counting_suits : Suits d s s.counting := by
  have hfour : Between 1 4 4 := by decide
  exact .of_scalar trivial hfour rfl rfl hfour.1 (Nat.le_trans hfour.2 (by decide))

theorem comparing_suits (hs : s.Tame) (hread : s.shape.bytes ≤ 8) {op : ComparisonOp}
    {mode : ComparisonMode} {references : List Int64}
    (h : s.comparing d op mode references = .ok p) : Suits d s p := by
  obtain ⟨size, -, h⟩ := bind_eq_ok.1 h
  cases references with
  | nil => cases h
  | cons first others =>
    simp only at h
    split at h
    · rename_i hd
      cases h
      have hsmall : ((s.shape.withSize 1).withSign false).Tame :=
        (hs.shape.withSize (by decide) (by decide) hread).withSign false
      cases mode with
      | absolute => exact .of_rebased hs hd trivial rfl rfl
      | reference => exact .of_rebased hs hd trivial rfl rfl
      | zone => exact ⟨hd, trivial, hsmall, fun hv => by cases hv⟩
      | binary => exact ⟨hd, trivial, hsmall, fun hv => by cases hv⟩
    · rename_i hd
      split at h
      · cases h
      · cases h
        exact .of_rebased hs ((Bool.not_eq_true _).mp hd) trivial rfl rfl

/-- An arithmetic operation is one, whatever its sizes are. -/
theorem computing_eq_math {op : MathOp} {rhs : Int32} (h : s.computing d op rhs = .ok p) :
    ∃ c, p = .math c := by
  obtain ⟨-, -, h⟩ := bind_eq_ok.1 h
  split at h
  · cases h
  · split at h
    · cases h
    · cases h
      exact ⟨_, rfl⟩

theorem computing_suits (hs : s.Tame) (hread : s.shape.bytes ≤ 8) {op : MathOp} {rhs : Int32}
    (h : s.computing d op rhs = .ok p) : Suits d s p := by
  obtain ⟨-, -, h⟩ := bind_eq_ok.1 h
  split at h
  · cases h
  · split at h
    · cases h
    · rename_i huniform
      rw [Bool.not_eq_true', Bool.not_eq_false] at huniform
      cases h
      have hsize := op.between_outputSize ⟨hs.firstSize_pos, firstSize_le_of_isUniform huniform⟩ rhs
      have hmax : max s.shape.channels 1 = s.shape.channels := max_eq_left hs.shape.channels_pos
      have hshape : ∀ signed, (⟨List.replicate (max s.shape.channels 1)
          (op.outputSize s.firstSize rhs), s.shape.copies, 0, signed⟩ : Shape).Tame := by
        rw [hmax]
        exact hs.shape.uniform hsize.1 hsize.2 hread
      refine ⟨?_, hsize, hshape _, fun hv => ?_⟩
      · intro hsome
        by_contra hd
        rw [if_neg hd] at hsome
        cases hsome
      · have hvector : s.kind.isVector = true := by
          cases op <;> first | exact hv | cases hv
        show 2 ≤ (List.replicate (max s.shape.channels 1) _).length
        rw [List.length_replicate, hmax]
        exact (hs.vector hvector).1

theorem combining_suits (hs : s.Tame) {mode : CombinerMode}
    (h : s.combining mode = .ok p) : Suits d s p := by
  obtain ⟨-, -, h⟩ := bind_eq_ok.1 h
  split at h
  · cases h
  · cases h
    have hscalar : s.kind.scalar.isVector = false := by cases s.kind <;> rfl
    have hsize : s.firstSize.toNat ≤ 32 :=
      Nat.le_trans hs.firstSize_le (Nat.le_trans hs.shape.width_le_bytes hs.shape.bytes_le)
    exact .of_scalar trivial trivial rfl hscalar hs.firstSize_pos hsize

theorem delaying_suits (hs : s.Tame) {samples : UInt8} (h : s.delaying d samples = .ok p) :
    Suits d s p := by
  obtain ⟨-, -, h⟩ := bind_eq_ok.1 h
  simp only at h
  split at h <;> split at h <;> cases h <;> exact .of_rebased hs rfl trivial rfl rfl

theorem findingPulse_suits (hs : s.Tame) (hread : s.shape.bytes ≤ 8) {mode : PulseMode}
    {level : Float32} {width : UInt16} (h : s.findingPulse mode level width = .ok p) :
    Suits d s p := by
  obtain ⟨size, hsize, h⟩ := bind_eq_ok.1 h
  cases h
  have hkind := hs.not_isVector (requireScalar_ok hsize).1
  cases mode with
  | width => exact .of_scalar trivial trivial rfl rfl (by decide) (by decide)
  | area =>
    refine ⟨trivial, trivial, hs.shape.withSize (by decide) (by decide) hread, fun hv => ?_⟩
    have hvector : s.kind.isVector = true := hv
    rw [hkind] at hvector
    cases hvector
  | peak => exact .of_rebased hs trivial trivial rfl rfl
  | onDetect => exact .of_scalar trivial trivial rfl rfl (by decide) (by decide)

theorem findingThreshold_suits (hs : s.Tame) {mode : ThresholdMode}
    {boundary hysteresis : Float32} (h : s.findingThreshold mode boundary hysteresis = .ok p) :
    Suits d s p := by
  obtain ⟨size, -, h⟩ := bind_eq_ok.1 h
  cases h
  cases mode with
  | absolute => exact .of_rebased hs trivial trivial rfl rfl
  | binary => exact .of_scalar trivial trivial rfl rfl (by decide) (by decide)

theorem findingDifferential_suits (hs : s.Tame) {mode : DifferentialMode} {distance : Float32}
    (h : s.findingDifferential mode distance = .ok p) : Suits d s p := by
  obtain ⟨-, -, h⟩ := bind_eq_ok.1 h
  split at h
  · cases h
  · cases h
    cases mode with
    | absolute => exact .of_rebased hs trivial trivial rfl rfl
    | differential => exact ⟨trivial, trivial, hs.shape.withSign true, fun hv => (hs.vector hv).1⟩
    | binary => exact .of_scalar trivial trivial rfl rfl (by decide) (by decide)

theorem packing_suits (hs : s.Tame) {count : UInt8} (h : s.packing count = .ok p) :
    Suits d s p := by
  obtain ⟨-, -, h⟩ := bind_eq_ok.1 h
  simp only at h
  split at h
  · cases h
  · rename_i hcount
    rw [not_or, hs.shape.toNat_unitLength, maxPayload, not_lt] at hcount
    obtain ⟨hzero, hfits⟩ := hcount
    cases h
    have hpos : 1 ≤ count.toNat := by
      rw [← UInt8.toNat_inj] at hzero
      exact Nat.pos_of_ne_zero hzero
    have hbytes := hs.shape.bytes_pos
    have hwidth : s.shape.width * count.toNat ≤ s.shape.bytes * count.toNat :=
      Nat.mul_le_mul_right _ hs.shape.width_le_bytes
    have hcount : 1 * count.toNat ≤ s.shape.bytes * count.toNat := Nat.mul_le_mul_right _ hbytes
    have htotal : s.shape.width * count.toNat ≤ 32 := by omega
    refine ⟨trivial, ⟨hpos, ?_⟩, hs.shape.withCopies hpos htotal, fun hv => (hs.vector hv).1⟩
    show count.toNat ≤ 32
    omega

theorem accounting_suits (hs : s.Tame) (hread : s.shape.bytes ≤ 8) {mode : AccountMode}
    (h : s.accounting mode = .ok p) : Suits d s p := by
  obtain ⟨-, -, h⟩ := bind_eq_ok.1 h
  split at h
  · cases h
  · cases h
    have hlength := hs.shape.toNat_length
    have hlow := hs.shape.width_pos
    have hhigh := hs.shape.width_le_bytes
    have hfour : Between 1 16 4 := by decide
    refine ⟨trivial, hfour, ⟨List.cons_ne_nil _ _, ?_, Nat.le_refl _, ?_⟩, fun hv => by cases hv⟩
    · intro n hn
      rcases List.mem_cons.1 hn with rfl | hn
      · exact hfour.1
      · rw [List.mem_singleton.1 hn, hlength]
        exact hlow
    · show 0 + (4 + (s.shape.length.toNat + 0)) * 1 ≤ 32
      omega

theorem limitingPeriod_suits (hs : s.Tame) {period : UInt32}
    (h : s.limitingPeriod period = .ok p) : Suits d s p := by
  obtain ⟨-, -, h⟩ := bind_eq_ok.1 h
  split at h
  · cases h
  · cases h
    exact .of_rebased hs trivial trivial rfl rfl

end Signal

/-- **Whatever a step chooses for a tame signal of up to eight bytes suits it.** -/
theorem Step.suits {step : Step} {choice : Device → Signal → Except Fault Processor} {d : Device}
    {s : Signal} {p : Processor} (hchoice : step.choice = some choice) (hp : choice d s = .ok p)
    (hs : s.Tame) (hread : s.shape.bytes ≤ 8) : Suits d s p := by
  cases step <;> cases hchoice
  case average => exact s.averaging_suits hs hp
  case lowPass => exact s.averaging_suits hs hp
  case highPass => exact s.highPassing_suits hs hp
  case accumulate => exact s.accumulating_suits hs hp
  case count =>
    cases hp
    exact s.counting_suits
  case filter => exact s.comparing_suits hs hread hp
  case filterMode => exact s.comparing_suits hs hread hp
  case map => exact s.computing_suits hs hread hp
  case rms => exact s.combining_suits hs hp
  case rss => exact s.combining_suits hs hp
  case delay => exact s.delaying_suits hs hp
  case pulse => exact s.findingPulse_suits hs hread hp
  case threshold => exact s.findingThreshold_suits hs hp
  case differential => exact s.findingDifferential_suits hs hp
  case pack => exact s.packing_suits hs hp
  case account => exact s.accounting_suits hs hread hp
  case limit =>
    cases hp
    exact .of_rebased hs trivial trivial rfl rfl
  case limitPeriod => exact s.limitingPeriod_suits hs hp

end SignalRoute
