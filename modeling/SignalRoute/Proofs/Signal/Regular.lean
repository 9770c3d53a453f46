import SignalRoute.Proofs.Signal.Output

/-!
# Signals that stages can follow

Stages check most of what they ask of a signal themselves.  What they take for granted is little: no
more than four channels, a first channel of one to four bytes if there are others, and at least one
sample if there are data.  A signal is regular if its shape is like that, and so are the shapes of
all its parts.

The built-in sensors are regular (`Catalog.regular_standard`), so are changed copies, and
`infer_regular` says that what a processor puts out is regular if its output has a regular shape.
The parts of an accounter and of a fuser are copies of signals that were regular before.

Nothing is said of room, so no check of a stage is needed to keep a signal regular.  What is ruled
out are the inputs on which a stage would go wrong without noticing: data without a sample have no
length; five channels are more than the field of a configuration can say; and a vector is combined,
or led by a count, in channels of the width of its first, for which a configuration has two bits.
-/

set_option autoImplicit false

namespace SignalRoute

/-! ## Shapes

The last condition is for shapes with data only.  The output of a buffer has neither data nor
samples.
-/

/-- Few channels, the first of them small if there are others, and samples if there are data. -/
structure Shape.Regular (s : Shape) : Prop where
  channels : s.channels ≤ 4
  first : 2 ≤ s.channels → Between 1 4 (s.sizes.head?.getD 0)
  copies : s.isEmpty = false → 1 ≤ s.copies

namespace Shape

variable {s : Shape}

theorem length_pos (hdata : s.isEmpty = false) : 1 ≤ s.length := by
  rw [isEmpty, beq_eq_false_iff_ne] at hdata
  exact Nat.pos_of_ne_zero fun hzero => hdata (UInt8.toNat_inj.1 hzero)

/-- One channel, of whatever width. -/
theorem Regular.scalar (size : UInt8) (signed : Bool) : (Shape.scalar size signed).Regular where
  channels := Nat.le_of_ble_eq_true rfl
  first := fun h => absurd h (Nat.not_succ_le_self 1)
  copies := fun _ => UInt8.le_refl 1

theorem Regular.empty : Shape.empty.Regular where
  channels := by decide
  first := fun h => absurd h (by decide)
  copies := fun h => by cases h

namespace Regular

theorem withOffset (h : s.Regular) (offset : UInt8) : Regular { s with offset := offset } :=
  ⟨h.channels, h.first, h.copies⟩

theorem rebased (h : s.Regular) : s.rebased.Regular := h.withOffset 0

theorem withSign (h : s.Regular) (signed : Bool) : (s.withSign signed).Regular :=
  ⟨h.channels, h.first, h.copies⟩

theorem withCopies (h : s.Regular) {copies : UInt8} (hcopies : 1 ≤ copies) :
    (s.withCopies copies).Regular :=
  ⟨h.channels, h.first, fun _ => hcopies⟩

/-- Channels of one width. -/
theorem uniform {channels : Nat} {size copies offset : UInt8} {signed : Bool}
    (hchannels : channels ≤ 4) (hsize : Between 1 4 size) (hcopies : 1 ≤ copies) :
    Regular ⟨List.replicate channels size, copies, offset, signed⟩ where
  channels := by rwa [Shape.channels, List.length_replicate]
  first := fun h => by
    rw [Shape.channels, List.length_replicate] at h
    obtain ⟨n, rfl⟩ := Nat.exists_eq_add_of_le h
    rwa [Nat.add_comm, List.replicate_succ]
  copies := fun _ => hcopies

theorem withSize (h : s.Regular) (hdata : s.isEmpty = false) {size : UInt8}
    (hsize : Between 1 4 size) : (s.withSize size).Regular := by
  rw [Shape.withSize, List.map_const']
  exact uniform h.channels hsize (h.copies hdata)

theorem channel {shape : Shape} {k : Nat} (h : s.channel? k = some shape) : shape.Regular := by
  obtain ⟨size, -, rfl⟩ := channel?_eq_some h
  exact (scalar size s.signed).withOffset _

/-- Packed samples are no shorter than one of them. -/
theorem length_le_unitLength (h : s.Regular) (hdata : s.isEmpty = false) :
    s.length.toNat ≤ s.unitLength.toNat := by
  have hcopies : 1 ≤ s.copies.toNat := h.copies hdata
  rw [unitLength, satMul]
  split
  · rename_i hsmall
    rw [UInt8.toNat_mul, Nat.mod_eq_of_lt hsmall]
    exact Nat.le_mul_of_pos_right _ hcopies
  · exact Nat.le_of_lt_succ s.length.toNat_lt

/-- Some bytes are logged of a signal that has any. -/
theorem unitLength_pos (h : s.Regular) (hdata : s.isEmpty = false) : 0 < s.unitLength.toNat :=
  Nat.lt_of_lt_of_le (length_pos hdata) (h.length_le_unitLength hdata)

end Regular
end Shape

/-! ## Signals

Nothing is asked of offsets, so copies may be moved anywhere.
-/

namespace Signal

/-- A signal of a regular shape, with regular parts. -/
inductive Regular : Signal → Prop
  | intro {s : Signal} (shape : s.shape.Regular) (parts : ∀ t ∈ s.parts, Regular t) : Regular s

namespace Regular

variable {s t : Signal}

theorem shape (h : s.Regular) : s.shape.Regular := by
  cases h
  assumption

theorem part (h : s.Regular) (ht : t ∈ s.parts) : t.Regular := by
  cases h with
  | intro _ parts => exact parts t ht

/-- A change that goes down to the parts and keeps shapes regular keeps signals regular. -/
theorem map {f : Signal → Signal} (hshape : ∀ s, s.shape.Regular → (f s).shape.Regular)
    (hparts : ∀ s, (f s).parts = s.parts.map f) (h : s.Regular) : (f s).Regular := by
  induction h with
  | @intro s shape _ ih =>
    refine .intro (hshape s shape) fun t ht => ?_
    rw [hparts] at ht
    obtain ⟨u, hu, rfl⟩ := List.mem_map.1 ht
    exact ih u hu

theorem withId (h : s.Regular) (id : UInt8) : (s.withId id).Regular :=
  h.map (fun s hs => by rwa [s.shape_withId]) fun s => s.parts_withId id

theorem withInput (h : s.Regular) (feed : Signal) : (s.withInput feed).Regular :=
  h.map (f := fun t => t.withInput feed) (fun s hs => by rwa [s.shape_withInput])
    fun s => s.parts_withInput feed

theorem atOffset (h : s.Regular) (offset : UInt8) : (s.atOffset offset).Regular :=
  h.map (f := shifted _) (fun s hs => by
    rw [s.shape_shifted]
    exact hs.withOffset _) fun s => s.parts_shifted _

/-- A signal whose parts are the channels of a vector, or that has none. -/
theorem withChannels (h : s.shape.Regular) : s.withChannels.Regular := by
  refine .intro h fun t ht => ?_
  obtain ⟨scale, shape, k, -, hshape, rfl⟩ := mem_channelParts.1 ht
  exact .intro (.channel hshape) fun u hu => nomatch hu

end Regular
end Signal

theorem Catalog.regular_standard {root : Signal}
    (h : root ∈ standard.producers.map Producer.signal) : root.Regular := by
  obtain ⟨address, shape, kind, rfl, rfl | ⟨size, signed, -, -, rfl, -⟩⟩ := standard_cases h
  · exact .withChannels (.uniform (by decide) (by decide) (by decide))
  · exact .withChannels (.scalar size signed)

/-! ## What processors put out -/

/-- An output and a state that are regular. -/
structure Inferred.Regular (i : Inferred) : Prop where
  output : i.output.Regular
  state : ∀ s, i.state = some s → s.Regular

namespace Inferred

variable {s : Signal} {p : Processor} {shape : Shape} {kind : SignalKind}

theorem regular_emitting (h : shape.Regular) : (emitting s p shape kind).Regular :=
  ⟨.withChannels h, fun _ hs => nomatch hs⟩

theorem regular_keeping {shape' : Shape} {kind' : SignalKind} (h : shape.Regular)
    (h' : shape'.Regular) :
    Inferred.Regular ⟨notifies s p shape kind, some (keeps s p shape' kind')⟩ := by
  refine ⟨.withChannels h, fun t ht => ?_⟩
  cases ht
  exact .withChannels h'

end Inferred

/-- **What a processor puts out is regular**, if it comes from regular signals and if the shape of
the output is. -/
theorem infer_regular {s : Signal} {p : Processor} {fused : List Signal} {i : Inferred}
    (h : infer s p fused = .ok i) (hs : s.Regular) (hfused : ∀ t ∈ fused, t.Regular)
    (hshape : p.isFuser = false → (p.outputShape s.shape).Regular) : i.Regular := by
  cases infer_made h with
  | emitting hp => exact Inferred.regular_emitting (hshape hp)
  | keeping hp hstate =>
    refine Inferred.regular_keeping (hshape hp) ?_
    rcases hstate with rfl | rfl | rfl
    · exact .scalar 2 false
    · exact hshape hp
    · exact hs.shape.rebased
  | @accounted c =>
    refine ⟨.intro (hshape rfl) fun t ht => ?_, fun t ht => nomatch ht⟩
    rcases List.mem_cons.1 ht with rfl | ht
    · exact .withChannels (.scalar c.size false)
    · rw [List.mem_singleton.1 ht]
      exact hs.atOffset c.size
  | fused =>
    refine ⟨.intro (.scalar _ false) fun t ht => ?_, fun t ht => nomatch ht⟩
    rcases List.mem_cons.1 ht with rfl | ht
    · exact hs.atOffset 0
    · obtain ⟨u, hu, start, rfl⟩ := exists_of_mem_stacked ht
      exact (hfused u hu).atOffset start

end SignalRoute
