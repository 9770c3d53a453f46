import SignalRoute.Proofs.Codec.RoundTrip

/-!
# Configurations that survive the codec

A configuration is canonical for a board if it has the layout of the board and every field lies in
the range that its encoding holds.  `decode_encode_eq_self_iff` says that these are exactly the
configurations that come back as they were sent.

What is lost of a field that does not fit is told by the `truncated_eq_self_iff` of each kind.  That
a configuration without the layout of the board does not come back is
`hasLayout_of_decode_encode`: the reader never produces the fields that the configuration has.  The
two forms of a comparison share their tag, so there it is the kind of the configuration that
differs.

The ranges are written out, kind by kind, so that they can be compared with what a board's manual
says; the proof does not use them beyond `wrapSize_eq_self_iff` and its like.
-/

set_option autoImplicit false

namespace SignalRoute

/-- Does a width lie between two others? -/
def Between (low high n : UInt8) : Prop := low ≤ n ∧ n ≤ high

instance (low high n : UInt8) : Decidable (Between low high n) := by
  unfold Between
  infer_instance

/-! ## Fields that fit

One lemma for each kind that loses anything at all.  A configuration is its own truncation exactly
if each of its fields is.
-/

theorem Accumulator.truncated_eq_self_iff (c : Accumulator) :
    c.truncated = c ↔ Between 1 4 c.output ∧ Between 1 4 c.input := by
  obtain ⟨counter, output, input⟩ := c
  simp only [truncated, Accumulator.mk.injEq, true_and]
  exact and_congr (wrapSize_eq_self_iff rfl output) (wrapSize_eq_self_iff rfl input)

theorem Average.truncated_eq_self_iff (c : Average) :
    c.truncated = c ↔ Between 1 4 c.size ∧
      match c.channels with
      | none => c.highPass = false
      | some n => Between 1 8 n := by
  obtain ⟨size, samples, highPass, channels⟩ := c
  simp only [truncated, Average.mk.injEq, true_and]
  refine and_congr (wrapSize_eq_self_iff rfl size) ?_
  cases channels with
  | none => simp [eq_comm]
  | some n =>
    simp only [Option.isSome_some, Bool.true_and, Option.map_some, Option.some.injEq, true_and]
    exact wrapSize_eq_self_iff rfl n

theorem SingleComparison.truncated_eq_self_iff (c : SingleComparison) :
    c.truncated = c ↔ FitsBytes c.signed 4 c.reference.toInt := by
  obtain ⟨signed, op, reference⟩ := c
  simp only [truncated, SingleComparison.mk.injEq, true_and]
  exact readReference_leBytes_iff signed reference (by omega)

theorem MultiComparison.truncated_eq_self_iff (c : MultiComparison) :
    c.truncated = c ↔
      Between 1 4 c.size ∧ ∀ r ∈ c.references, FitsBytes c.signed c.size.toNat r.toInt := by
  have hsplit : c.truncated = c ↔
      wrapSize 0x3 c.size = c.size ∧ c.truncated.references = c.references := by
    obtain ⟨signed, size, op, mode, references⟩ := c
    simp only [truncated, MultiComparison.mk.injEq, true_and]
  rw [hsplit, wrapSize_eq_self_iff rfl]
  refine and_congr_right fun hsize => ?_
  have hlt : c.size.toNat < 8 := Nat.lt_of_le_of_lt hsize.2 (by decide)
  have hself := List.map_eq_map_iff (g := id) (l := c.references)
    (f := fun r => readReference c.signed (leBytes c.size.toNat r.toUInt64))
  rw [List.map_id] at hself
  rw [c.truncated_references hsize, hself]
  exact forall₂_congr fun r _ => readReference_leBytes_iff c.signed r hlt

theorem Combiner.truncated_eq_self_iff (c : Combiner) :
    c.truncated = c ↔ Between 1 4 c.output ∧ Between 1 4 c.input ∧ Between 1 4 c.channels := by
  obtain ⟨output, input, channels, signed, mode⟩ := c
  simp only [truncated, Combiner.mk.injEq, and_true]
  exact and_congr (wrapSize_eq_self_iff rfl output)
    (and_congr (wrapSize_eq_self_iff rfl input) (wrapSize_eq_self_iff rfl channels))

theorem TimeLimit.truncated_eq_self_iff (c : TimeLimit) :
    c.truncated = c ↔ Between 1 8 c.size := by
  obtain ⟨size, mode, period⟩ := c
  simp only [truncated, TimeLimit.mk.injEq, and_true]
  exact wrapSize_eq_self_iff rfl size

theorem Arithmetic.truncated_eq_self_iff (c : Arithmetic) :
    c.truncated = c ↔ Between 1 4 c.output ∧ Between 1 4 c.input ∧
      ∀ n, c.channels = some n → Between 1 255 n := by
  obtain ⟨output, input, signed, op, rhs, channels⟩ := c
  simp only [truncated, Arithmetic.mk.injEq, true_and]
  refine and_congr (wrapSize_eq_self_iff rfl output) (and_congr (wrapSize_eq_self_iff rfl input) ?_)
  cases channels with
  | none => simp
  | some n =>
    have hmax : n ≤ 255 := Nat.le_of_lt_succ n.toNat_lt
    simp [lessOne_add_one_eq_self_iff, Between, hmax]

theorem Delay.truncated_eq_self_iff (c : Delay) :
    c.truncated = c ↔ if c.expanded then Between 1 16 c.size else Between 1 4 c.size := by
  obtain ⟨size, samples, expanded⟩ := c
  simp only [truncated, Delay.mk.injEq, and_true]
  cases expanded <;> exact wrapSize_eq_self_iff rfl size

theorem Pulse.truncated_eq_self_iff (c : Pulse) : c.truncated = c ↔ Between 1 255 c.size := by
  obtain ⟨size, mode, threshold, width⟩ := c
  have hmax : size ≤ 255 := Nat.le_of_lt_succ size.toNat_lt
  simp [truncated, lessOne_add_one_eq_self_iff, Between, hmax]

theorem Differential.truncated_eq_self_iff (c : Differential) :
    c.truncated = c ↔ Between 1 4 c.size := by
  obtain ⟨size, signed, mode, distance⟩ := c
  simp only [truncated, Differential.mk.injEq, and_true]
  exact wrapSize_eq_self_iff rfl size

theorem Threshold.truncated_eq_self_iff (c : Threshold) :
    c.truncated = c ↔ Between 1 4 c.size := by
  obtain ⟨size, signed, mode, boundary, hysteresis⟩ := c
  simp only [truncated, Threshold.mk.injEq, and_true]
  exact wrapSize_eq_self_iff rfl size

theorem Buffer.truncated_eq_self_iff (c : Buffer) : c.truncated = c ↔ Between 1 32 c.size := by
  obtain ⟨size⟩ := c
  rw [truncated, Buffer.mk.injEq]
  exact wrapSize_eq_self_iff rfl size

theorem Packer.truncated_eq_self_iff (c : Packer) :
    c.truncated = c ↔ Between 1 32 c.size ∧ Between 1 32 c.count := by
  obtain ⟨size, count⟩ := c
  rw [truncated, Packer.mk.injEq]
  exact and_congr (wrapSize_eq_self_iff rfl size) (wrapSize_eq_self_iff rfl count)

theorem Accounter.truncated_eq_self_iff (c : Accounter) :
    c.truncated = c ↔ Between 1 16 c.size := by
  obtain ⟨mode, size⟩ := c
  simp only [truncated, Accounter.mk.injEq, true_and]
  exact wrapSize_eq_self_iff rfl size

namespace Processor

/-- **The configurations that a board carries**: those with its layout whose fields fit. -/
def Canonical (d : Device) : Processor → Prop
  | passthrough _ => True
  | accumulator c => Between 1 4 c.output ∧ Between 1 4 c.input
  | average c =>
    Between 1 4 c.size ∧
      match c.channels with
      | none => c.highPass = false
      | some n => d.highPass = true ∧ Between 1 8 n
  | single c => d.multiComparison = false ∧ FitsBytes c.signed 4 c.reference.toInt
  | multi c =>
    d.multiComparison = true ∧ Between 1 4 c.size ∧
      ∀ r ∈ c.references, FitsBytes c.signed c.size.toNat r.toInt
  | combiner c => Between 1 4 c.output ∧ Between 1 4 c.input ∧ Between 1 4 c.channels
  | time c => Between 1 8 c.size
  | math c =>
    Between 1 4 c.output ∧ Between 1 4 c.input ∧
      ∀ n, c.channels = some n → d.multiChannelMath = true ∧ Between 1 255 n
  | delay c =>
    c.expanded = d.expandedDelay ∧ if c.expanded then Between 1 16 c.size else Between 1 4 c.size
  | pulse c => Between 1 255 c.size
  | differential c => Between 1 4 c.size
  | threshold c => Between 1 4 c.size
  | buffer c => Between 1 32 c.size
  | packer c => Between 1 32 c.size ∧ Between 1 32 c.count
  | accounter c => Between 1 16 c.size
  | fuser c => c.ids.length ≤ 255

/-- To be canonical is to have the layout of the board and to lose nothing. -/
theorem canonical_iff {d : Device} {p : Processor} :
    p.Canonical d ↔ p.HasLayout d ∧ p.truncated = p := by
  cases p with
  | passthrough c => simp [Canonical, HasLayout, truncated]
  | accumulator c => simp [Canonical, HasLayout, truncated, c.truncated_eq_self_iff]
  | average c =>
    simp only [Canonical, HasLayout, truncated, average.injEq, c.truncated_eq_self_iff]
    cases c.channels with
    | none => simp
    | some n =>
      simp only [Option.isSome_some, true_implies]
      exact and_left_comm
  | single c => simp [Canonical, HasLayout, truncated, c.truncated_eq_self_iff]
  | multi c => simp [Canonical, HasLayout, truncated, c.truncated_eq_self_iff]
  | combiner c => simp [Canonical, HasLayout, truncated, c.truncated_eq_self_iff]
  | time c => simp [Canonical, HasLayout, truncated, c.truncated_eq_self_iff]
  | math c =>
    simp only [Canonical, HasLayout, truncated, math.injEq, c.truncated_eq_self_iff]
    cases c.channels with
    | none => simp
    | some n =>
      simp only [Option.isSome_some, true_implies, Option.some.injEq, forall_eq']
      tauto
  | delay c => simp [Canonical, HasLayout, truncated, c.truncated_eq_self_iff]
  | pulse c => simp [Canonical, HasLayout, truncated, c.truncated_eq_self_iff]
  | differential c => simp [Canonical, HasLayout, truncated, c.truncated_eq_self_iff]
  | threshold c => simp [Canonical, HasLayout, truncated, c.truncated_eq_self_iff]
  | buffer c => simp [Canonical, HasLayout, truncated, c.truncated_eq_self_iff]
  | packer c => simp [Canonical, HasLayout, truncated, c.truncated_eq_self_iff]
  | accounter c => simp [Canonical, HasLayout, truncated, c.truncated_eq_self_iff]
  | fuser c => simp [Canonical, HasLayout, truncated]

/-! ## Fields that a board does not read -/

theorem decodeMulti_ne_single (body : Bytes) (c : SingleComparison) :
    decodeMulti body ≠ .ok (single c) := by
  intro h
  cases body with
  | nil => cases h
  | cons b rest =>
    rw [decodeMulti] at h
    cases hop : ofByte (α := ComparisonOp) ((b >>> 3) &&& 0x7) with
    | error fault =>
      rw [hop] at h
      cases h
    | ok op =>
      rw [hop] at h
      cases hmode : ofByte (α := ComparisonMode) ((b >>> 6) &&& 0x3) <;> rw [hmode] at h <;> cases h

theorem decodeSingle_ne_multi (body : Bytes) (c : MultiComparison) :
    decodeSingle body ≠ .ok (multi c) := by
  intro h
  unfold decodeSingle at h
  split at h
  · rename_i op _ _ _ _ _ _
    cases hop : ofByte (α := ComparisonOp) op <;> rw [hop] at h <;> cases h
  · cases h

/-- What comes back as it was has the layout of the board. -/
theorem hasLayout_of_decode_encode {d : Device} {p : Processor} (h : decode d p.encode = .ok p) :
    p.HasLayout d := by
  cases p with
  | average c =>
    intro hsome
    by_contra hd
    obtain ⟨size, samples, highPass, channels⟩ := c
    obtain ⟨n, rfl⟩ := Option.isSome_iff_exists.1 hsome
    have hread : decodeAverage d (Average.body ⟨size, samples, highPass, some n⟩)
        = .ok (average ⟨size, samples, highPass, some n⟩) := h
    simp [Average.body, decodeAverage, hd] at hread
  | single c =>
    by_contra hd
    have hread : (if d.multiComparison then decodeMulti c.body else decodeSingle c.body)
        = .ok (single c) := h
    rw [if_pos (by simpa [HasLayout] using hd)] at hread
    exact decodeMulti_ne_single c.body c hread
  | multi c =>
    by_contra hd
    have hread : (if d.multiComparison then decodeMulti c.body else decodeSingle c.body)
        = .ok (multi c) := h
    rw [if_neg (by simpa [HasLayout] using hd)] at hread
    exact decodeSingle_ne_multi c.body c hread
  | math c =>
    intro hsome
    by_contra hd
    obtain ⟨output, input, signed, op, rhs, channels⟩ := c
    obtain ⟨n, rfl⟩ := Option.isSome_iff_exists.1 hsome
    have hread : decodeMath d (Arithmetic.body ⟨output, input, signed, op, rhs, some n⟩)
        = .ok (math ⟨output, input, signed, op, rhs, some n⟩) := h
    obtain ⟨b0, b1, b2, b3, hbytes, -⟩ := leBytes_signed rhs
    simp only [Arithmetic.body, hbytes, List.cons_append, List.nil_append, decodeMath,
      ofByte_toByte, Bool.not_eq_true _ ▸ hd] at hread
    simp [pure, Except.pure, bind, Except.bind] at hread
  | delay c =>
    have hread : decodeDelay d c.body = .ok (delay c) := h
    simp only [Delay.body, decodeDelay, Except.ok.injEq, delay.injEq] at hread
    exact (congrArg Delay.expanded hread).symm
  | fuser c =>
    have hread : decodeFuser (UInt8.ofNat c.ids.length :: c.ids) = .ok (fuser c) := h
    rw [decodeFuser] at hread
    split at hread
    · simp only [Except.ok.injEq, fuser.injEq] at hread
      have hlen := congrArg (fun c => c.ids.length) hread
      simp only [List.length_take] at hlen
      have := (UInt8.ofNat c.ids.length).toNat_lt
      show c.ids.length ≤ 255
      omega
    · cases hread
  | _ => trivial

/-- **Exactly the canonical configurations come back as they were sent.** -/
theorem decode_encode_eq_self_iff (d : Device) (p : Processor) :
    decode d p.encode = .ok p ↔ p.Canonical d := by
  rw [canonical_iff]
  constructor
  · intro h
    have hlayout := hasLayout_of_decode_encode h
    rw [decode_encode hlayout, Except.ok.injEq] at h
    exact ⟨hlayout, h⟩
  · rintro ⟨hlayout, htruncated⟩
    rw [decode_encode hlayout, htruncated]

end Processor
end SignalRoute
