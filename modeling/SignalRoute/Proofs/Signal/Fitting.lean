import SignalRoute.Proofs.Signal.Enclosing

/-!
# Signals that fit in a notification

A signal fits if all its samples together have room in one notification, and if so do those of each
of its parts.  That is more than to be compact: the sample of a compact signal has room there, but
with the channels widened that were packed there may be too many.

Only the output of a processor can fail to fit when what it reads fits (`infer_fits`): what it keeps
and what the parts are is either read or small.

The limit is one of the wire, and nothing in a signal enforces it.  Packers, accounters and fusers
check it when they are planned; a stage that widens channels behind a packer does not.  So
`infer_fits` takes the room of the output as a hypothesis, and where it holds and where it does not
is said of whole routes in `Proofs.Host.Fitting`.

That the parts fit too is needed for what is behind.  A fused or accounted signal can be split, and
then each part feeds a stage on its own, with its own number of samples.
-/

set_option autoImplicit false

namespace SignalRoute

/-- All samples of the signal have room in one notification, and so have those of its parts. -/
inductive Signal.Fits : Signal → Prop
  | intro {s : Signal} (samples : s.shape.unitLength.toNat ≤ maxPayload)
      (parts : ∀ t ∈ s.parts, Fits t) : Fits s

namespace Signal.Fits

variable {s t : Signal}

theorem samples (h : s.Fits) : s.shape.unitLength.toNat ≤ maxPayload := by
  cases h
  assumption

theorem part (h : s.Fits) (ht : t ∈ s.parts) : t.Fits := by
  cases h with
  | intro _ parts => exact parts t ht

/-- Where a signal lies makes no difference. -/
theorem shifted (h : s.Fits) (distance : Int) : (s.shifted distance).Fits := by
  induction h with
  | @intro s samples _ ih =>
    refine .intro ?_ fun t ht => ?_
    · rw [shape_shifted]
      exact samples
    · rw [parts_shifted] at ht
      obtain ⟨u, hu, rfl⟩ := List.mem_map.1 ht
      exact ih u hu

theorem atOffset (h : s.Fits) (offset : UInt8) : (s.atOffset offset).Fits := h.shifted _

/-- Channels fit if the sample does. -/
theorem withChannels (h : s.shape.Compact) (hsamples : s.shape.unitLength.toNat ≤ maxPayload) :
    s.withChannels.Fits := by
  refine .intro hsamples fun t ht => ?_
  obtain ⟨scale, shape, k, -, hshape, rfl⟩ := mem_channelParts.1 ht
  obtain ⟨hcompact, -, hbehind⟩ := h.channel hshape
  obtain ⟨size, -, rfl⟩ := Shape.channel?_eq_some hshape
  exact .intro (hcompact.unitLength_le (UInt8.le_refl 1)) fun u hu => nomatch hu

theorem single (h : s.shape.Compact) (hcopies : s.shape.copies ≤ 1) : s.withChannels.Fits :=
  .withChannels h (h.unitLength_le hcopies)

end Signal.Fits

theorem Catalog.fits_standard {root : Signal}
    (h : root ∈ standard.producers.map Producer.signal) : root.Fits := by
  have hone : (1 : UInt8) ≤ 1 := UInt8.le_refl 1
  obtain ⟨address, shape, kind, rfl, rfl | ⟨size, signed, hlow, hhigh, rfl, -⟩⟩ := standard_cases h
  · exact .single (.uniform (by decide) (by decide) (by decide) (by decide)) hone
  · exact .single (.number ⟨hlow, hhigh⟩ signed) hone

/-- **What a processor puts out and keeps fits in a notification** if all that it reads does, and if
the output does by itself. -/
theorem infer_fits {s : Signal} {p : Processor} {fused : List Signal} {i : Inferred}
    (h : infer s p fused = .ok i) (hs : s.Fits) (hfused : ∀ t ∈ fused, t.Fits)
    (hcompact : s.shape.Compact) (hroom : p.HasRoom s fused)
    (hshape : p.isFuser = false → (p.outputShape s.shape).Compact)
    (hfits : i.output.shape.unitLength.toNat ≤ maxPayload) {t : Signal} (ht : i.Yields t) :
    t.Fits := by
  cases infer_made h with
  | emitting hp =>
    rcases ht with rfl | hstate
    · exact .withChannels (hshape hp) hfits
    · cases hstate
  | keeping hp hkept =>
    rcases ht with rfl | hstate
    · exact .withChannels (hshape hp) hfits
    · cases hstate
      rcases hkept with rfl | rfl | rfl
      · exact .single (.number (by decide) false) (UInt8.le_refl 1)
      · exact .withChannels (hshape hp) hfits
      · exact .withChannels hcompact.rebased hs.samples
  | @accounted c =>
    rcases ht with rfl | hstate
    · refine .intro hfits fun t ht => ?_
      rcases List.mem_cons.1 ht with rfl | ht
      · have hsize : c.size.toNat ≤ maxPayload := Nat.le_trans (Nat.le_add_right _ _) hroom
        have hlead : (Shape.scalar c.size false).Compact :=
          .scalar ((hshape rfl).sizes _ List.mem_cons_self) hsize false
        exact .single hlead (UInt8.le_refl 1)
      · rw [List.mem_singleton.1 ht]
        exact hs.atOffset _
    · cases hstate
  | @fused c =>
    rcases ht with rfl | hstate
    · refine .intro hfits fun t ht => ?_
      rcases List.mem_cons.1 ht with rfl | ht
      · exact hs.atOffset _
      · obtain ⟨u, hu, start, rfl⟩ := exists_of_mem_stacked ht
        exact (hfused u hu).atOffset start
    · cases hstate

end SignalRoute
