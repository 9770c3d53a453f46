import SignalRoute.Proofs.Route.Emission

/-!
# What a board compares with

A filter scales its references to 32-bit integers, whatever the width of its signal.  They are sent
in as many bytes as the signal has, or in four on boards that know only one reference, and nothing
checks that they fit.

`Drafting.filter_carried` says what becomes of them: the board compares with what remains of each in
these bytes, which is what was asked for exactly if it lies in their range (`FitsBytes`).  So it
does for signed numbers of four bytes (`fitsBytes_four`), and may not for others
(`Signal.not_carried_narrow`).

What is said of a filter is about the stage in the plan and about the board at once, because the
host never learns of the difference: it goes on with the references that were asked for, in the
plan, in the graph and in every editor.
-/

set_option autoImplicit false

namespace SignalRoute

/-! ## References of a processor -/

namespace Processor

def references : Processor → List Int64
  | single c => [c.reference]
  | multi c => c.references
  | _ => []

/-- The processor with each reference replaced. -/
def mapReferences (f : Int64 → Int64) : Processor → Processor
  | single c => single { c with reference := f c.reference }
  | multi c => multi { c with references := c.references.map f }
  | p => p

theorem references_mapReferences (f : Int64 → Int64) (p : Processor) :
    (p.mapReferences f).references = p.references.map f := by
  cases p <;> rfl

/-- Nothing is lost of references that come back one by one. -/
theorem references_mapReferences_eq_iff {f : Int64 → Int64} {p : Processor} :
    (p.mapReferences f).references = p.references ↔ ∀ r ∈ p.references, f r = r := by
  have hself := List.map_eq_map_iff (g := id) (f := f) (l := p.references)
  rw [List.map_id] at hself
  rw [references_mapReferences]
  exact hself

/-! ## What comes back from a board -/

variable {d : Device}

theorem decode_payload_multi {c : MultiComparison} (hd : d.multiComparison = true)
    (hsize : Between 1 4 c.size) :
    (multi c).payload >>= decode d =
      .ok ((multi c).mapReferences fun r =>
        readReference c.signed (leBytes c.size.toNat r.toUInt64)) := by
  have hfits : (multi c).fits = true := HasNarrowReferences.fits hsize.2
  have hlayout : (multi c).HasLayout d := hd
  have hwidth : c.truncated.size = c.size := (wrapSize_eq_self_iff rfl c.size).2 hsize
  rw [payload_eq_ok hfits]
  refine (decode_encode hlayout).trans ?_
  have hback : c.truncated = { c with references := c.truncated.references } := by
    show { c with size := c.truncated.size, references := c.truncated.references } = _
    rw [hwidth]
  rw [mapReferences, ← c.truncated_references hsize, ← hback]
  rfl

theorem decode_payload_single {c : SingleComparison} (hd : d.multiComparison = false) :
    (single c).payload >>= decode d =
      .ok ((single c).mapReferences fun r => readReference c.signed (leBytes 4 r.toUInt64)) :=
  decode_encode (p := single c) hd

end Processor

/-! ## What remains of a number

The low bytes of a number are another number (`foldBytes`), and `FitsBytes` says when it is the same
one.  Which of the two the board means is decided by the sign of the signal.
-/

/-- The number that the low bytes of a number stand for. -/
def foldBytes (signed : Bool) (count : Nat) (n : Int) : Int :=
  if signed then n.bmod (256 ^ count) else n % 256 ^ count

/-- All numbers of 32 bits lie in the signed range of four bytes. -/
theorem fitsBytes_four (n : Int32) : FitsBytes true 4 n.toInt := by
  have hlow := n.le_toInt
  have hhigh := n.toInt_lt
  rw [FitsBytes, if_pos rfl]
  omega

namespace Signal

variable {d : Device} {s : Signal} {p : Processor}

/-- How many bytes a board reads of a reference. -/
def referenceWidth (d : Device) (s : Signal) : Nat :=
  if d.multiComparison then s.shape.length.toNat else 4

/-- A reference as it comes out of these bytes. -/
def carried (d : Device) (s : Signal) (r : Int64) : Int64 :=
  readReference s.shape.signed (leBytes (s.referenceWidth d) r.toUInt64)

theorem referenceWidth_le (h : s.shape.length ≤ 4) : s.referenceWidth d ≤ 4 := by
  rw [referenceWidth]
  split
  · exact h
  · exact Nat.le_refl 4

theorem toInt_carried (h : s.shape.length ≤ 4) (r : Int64) :
    (s.carried d r).toInt = foldBytes s.shape.signed (s.referenceWidth d) r.toInt :=
  toInt_readReference s.shape.signed r (Nat.lt_of_le_of_lt (referenceWidth_le h) (by decide))

theorem carried_eq_self_iff (h : s.shape.length ≤ 4) (r : Int64) :
    s.carried d r = r ↔ FitsBytes s.shape.signed (s.referenceWidth d) r.toInt :=
  readReference_leBytes_iff s.shape.signed r
    (Nat.lt_of_le_of_lt (referenceWidth_le h) (by decide))

/-- The two forms of a comparison, by what the board knows. -/
theorem comparing_cases {op : ComparisonOp} {mode : ComparisonMode} {references : List Int64}
    (h : s.comparing d op mode references = .ok p) :
    Between 1 4 s.shape.length ∧
      (d.multiComparison = true ∧
          p = .multi ⟨s.shape.signed, s.shape.length, op, mode, references⟩ ∨
        d.multiComparison = false ∧
          ∃ r, references = [r] ∧ p = .single ⟨s.shape.signed, op, r⟩) := by
  obtain ⟨size, hscalar, hp⟩ := bind_eq_ok.1 h
  obtain ⟨-, hsize⟩ := between_of_requireScalar hscalar
  obtain ⟨-, rfl⟩ := requireScalar_ok hscalar
  refine ⟨hsize, ?_⟩
  cases references with
  | nil => cases hp
  | cons first others =>
    dsimp only at hp
    split at hp
    · rename_i hd
      cases hp
      exact .inl ⟨hd, rfl⟩
    · rename_i hd
      split at hp
      · cases hp
      · rename_i hplain
        rw [not_or, not_not] at hplain
        obtain ⟨rfl, -⟩ := hplain
        exact .inr ⟨Bool.eq_false_iff.2 hd, first, rfl, (Except.ok.inj hp).symm⟩

/-- A comparison is made of what was asked for, and comes back with what remains of its
references. -/
theorem comparing_carried {op : ComparisonOp} {mode : ComparisonMode} {references : List Int64}
    (h : s.comparing d op mode references = .ok p) :
    s.shape.length ≤ 4 ∧ p.references = references ∧
      p.payload >>= Processor.decode d = .ok (p.mapReferences (s.carried d)) := by
  have hcarried : s.carried d = fun r => readReference s.shape.signed
      (leBytes (if d.multiComparison then s.shape.length.toNat else 4) r.toUInt64) := rfl
  obtain ⟨hsize, ⟨hd, rfl⟩ | ⟨hd, r, rfl, rfl⟩⟩ := comparing_cases h
  · refine ⟨hsize.2, rfl, (Processor.decode_payload_multi hd hsize).trans ?_⟩
    rw [hcarried, if_pos hd]
  · refine ⟨hsize.2, rfl, (Processor.decode_payload_single hd).trans ?_⟩
    rw [hcarried, hd, if_neg Bool.false_ne_true]

end Signal

namespace Drafting

variable {c next : Cursor} {d d' : Draft}

/-- **What a board compares with.**  A filter that is accepted adds one stage to the plan, with the
references that were asked for, in units of the firmware.  The board reads the stage back as it is
but for them: of each it has what remains in the bytes that it reads.  So it compares with what was
asked for exactly if all references lie in the range of these bytes. -/
theorem filter_carried {op : ComparisonOp} {mode : ComparisonMode} {xs : List Float32}
    (h : filter c op mode xs d = (.ok next, d')) :
    ∃ stage q, d'.plan.stages = d.plan.stages ++ [stage] ∧ stage.source = c ∧
      stage.processor.references = xs.map (fun x => (toUnits c.signal.scale x).toInt64) ∧
      stage.processor.payload >>= Processor.decode d.device = .ok q ∧
      q = stage.processor.mapReferences (c.signal.carried d.device) ∧
      q.references.map Int64.toInt = xs.map (fun x => foldBytes c.signal.shape.signed
        (c.signal.referenceWidth d.device) (toUnits c.signal.scale x).toInt) ∧
      (q.references = stage.processor.references ↔
        ∀ x ∈ xs, FitsBytes c.signal.shape.signed (c.signal.referenceWidth d.device)
          (toUnits c.signal.scale x).toInt) := by
  obtain ⟨p, i, hp, -, -, rfl⟩ := stage_ok h
  obtain ⟨hwidth, hasked, hback⟩ := Signal.comparing_carried hp
  refine ⟨_, _, rfl, rfl, hasked, hback, rfl, ?_, ?_⟩
  · rw [Processor.references_mapReferences, hasked, List.map_map, List.map_map]
    refine List.map_congr_left fun x _ => ?_
    rw [Function.comp_apply, Function.comp_apply, Signal.toInt_carried hwidth,
      Int32.toInt_toInt64]
  · rw [Processor.references_mapReferences_eq_iff, hasked, List.forall_mem_map]
    refine forall₂_congr fun x _ => ?_
    rw [Signal.carried_eq_self_iff hwidth, Int32.toInt_toInt64]

/-- The sum of temperatures, which has four bytes and a sign. -/
def summing : Except Fault Cursor × Draft :=
  Step.run ⟨.root ⟨Module.temperature, 0x01, 0x00⟩ (.scalar 2 true) (.float 8), none⟩ [.accumulate]
    (.start .standard [])

theorem filter_carried_summing :
    ∃ c next d' stage q, summing.1 = .ok c ∧
      filter c .gt .absolute [20, -20] summing.2 = (.ok next, d') ∧
      d'.plan.stages = summing.2.plan.stages ++ [stage] ∧
      stage.processor.payload >>= Processor.decode .standard = .ok q ∧
      q.references.length = 2 ∧ q.references = stage.processor.references := by
  obtain ⟨c, hc, hwidth, hsigned⟩ : ∃ c, summing.1 = .ok c ∧
      c.signal.referenceWidth .standard = 4 ∧ c.signal.shape.signed = true := ⟨_, rfl, rfl, rfl⟩
  obtain ⟨next, d', haccepted⟩ : ∃ next d',
      filter c .gt .absolute [20, -20] summing.2 = (.ok next, d') := by
    cases hc
    exact ⟨_, _, rfl⟩
  obtain ⟨stage, q, hstages, -, -, hback, -, hleft, hsame⟩ := filter_carried haccepted
  have hdevice : summing.2.device = .standard := rfl
  rw [hdevice] at hback hsame
  have hcount := congrArg List.length hleft
  rw [List.length_map, List.length_map] at hcount
  refine ⟨c, next, d', stage, q, hc, haccepted, hstages, hback, hcount, hsame.2 fun x _ => ?_⟩
  rw [hwidth, hsigned]
  exact fitsBytes_four _

end Drafting

/-- The switch has one byte, and so 300 comes back as 44. -/
theorem Signal.not_carried_narrow :
    ∃ p q, comparing .standard (.root (.unindexed Module.switch 0x01) (.scalar 1 false) .integer)
        .gt .absolute [300] = .ok p ∧
      p.references = [300] ∧ p.payload >>= Processor.decode .standard = .ok q ∧
      q.references = [44] := by
  obtain ⟨p, hp⟩ : ∃ p, comparing .standard (.root (.unindexed Module.switch 0x01)
    (.scalar 1 false) .integer) .gt .absolute [300] = .ok p := ⟨_, rfl⟩
  obtain ⟨-, hasked, hback⟩ := comparing_carried hp
  refine ⟨p, _, hp, hasked, hback, ?_⟩
  rw [Processor.references_mapReferences, hasked]
  decide +kernel

end SignalRoute
