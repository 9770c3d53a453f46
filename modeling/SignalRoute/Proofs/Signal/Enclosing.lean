import Mathlib.Algebra.Order.BigOperators.Group.List
import SignalRoute.Proofs.Signal.Nesting

/-!
# Signals that enclose their parts

The places of parts are found by adding up widths, in bytes that may wrap.  They do not: a shape is
compact if its sample lies within one notification and if its samples are few enough, and then every
place of it is exact (`Shape.Compact.exact`), with all samples counted.

A stage may widen the channels of a packed signal, so the samples together can be longer than a
notification.  But a channel that is widened has no more than four bytes, and there were no more
channels than bytes when they were packed.

`infer_encloses`: what a processor puts out encloses its parts, and these theirs, if it comes from
signals that do.

The predicate has the property of shapes as a parameter, since the same tree of parts is asked three
questions: whether shapes are compact, whether they are exact, and whether they are well-formed.
`Encloses.mono` goes from a stronger property to a weaker one.

Compact shapes are closed under what stages do, and exact ones are not: a stage can widen every
channel to four bytes, and what a byte could count may be too long then.  So the induction along a
route carries compactness, and exactness is read off where it is used.
-/

set_option autoImplicit false

namespace SignalRoute

/-! ## Shapes

Two of the fields look odd.  `samples` counts channels, not bytes, since that number survives a
change of width.  `packed` is a disjunction because the two ways to have several samples differ: a
packer has checked the room for them as they are, and a stage behind it may have widened them since.
-/

namespace Shape

/-- All samples end where a byte can count them, so that no sum of widths and offsets wraps. -/
def Exact (s : Shape) : Prop := s.offset.toNat + s.width * max s.copies.toNat 1 < 256

theorem Exact.toNat_length {s : Shape} (h : s.Exact) : s.length.toNat = s.width := by
  have hone : s.width * 1 ≤ s.width * max s.copies.toNat 1 :=
    Nat.mul_le_mul_left _ (Nat.le_max_right _ _)
  have hall : s.offset.toNat + s.width * max s.copies.toNat 1 < 256 := h
  exact toNat_sumBytes (by rw [← width]; omega)

/-- A shape that comes from within one notification. -/
structure Compact (s : Shape) : Prop extends s.Regular where
  sizes : ∀ n ∈ s.sizes, 1 ≤ n.toNat
  fits : s.offset.toNat + s.width ≤ maxPayload
  /-- The channels of all samples are no more than the bytes of a notification. -/
  samples : s.channels * s.copies.toNat ≤ maxPayload
  /-- If samples are longer than when they were packed then their channels were widened. -/
  packed : s.width * s.copies.toNat ≤ maxPayload ∨ ∀ n ∈ s.sizes, n.toNat ≤ 4

theorem width_le_mul {s : Shape} (h : ∀ n ∈ s.sizes, n.toNat ≤ 4) : s.width ≤ s.channels * 4 := by
  have hsum := List.sum_le_card_nsmul (s.sizes.map UInt8.toNat) 4 (List.forall_mem_map.2 h)
  rw [List.length_map] at hsum
  exact hsum

namespace Compact

variable {s : Shape}

theorem width_le (h : s.Compact) : s.width ≤ maxPayload := Nat.le_trans (Nat.le_add_left _ _) h.fits

/-- All samples together are no longer than four notifications. -/
theorem bytes_le (h : s.Compact) : s.bytes ≤ 4 * maxPayload := by
  rcases h.packed with hpacked | hsizes
  · exact Nat.le_trans hpacked (by decide)
  · calc s.width * s.copies.toNat ≤ s.channels * 4 * s.copies.toNat :=
        Nat.mul_le_mul_right _ (width_le_mul hsizes)
      _ = 4 * (s.channels * s.copies.toNat) := by rw [Nat.mul_right_comm, Nat.mul_comm]
      _ ≤ 4 * maxPayload := Nat.mul_le_mul_left _ h.samples

theorem exact (h : s.Compact) : s.Exact := by
  have hfits := h.fits
  have hall : s.width * s.copies.toNat ≤ 4 * maxPayload := h.bytes_le
  have hmax : s.width * max s.copies.toNat 1 ≤ 4 * maxPayload := by
    rcases Nat.le_total s.copies.toNat 1 with hle | hle
    · rw [Nat.max_eq_right hle, Nat.mul_one]
      exact Nat.le_trans h.width_le (by decide)
    · rwa [Nat.max_eq_left hle]
  rw [maxPayload] at hfits hmax
  rw [Exact]
  omega

theorem toNat_length (h : s.Compact) : s.length.toNat = s.width := h.exact.toNat_length

theorem toNat_unitLength (h : s.Compact) : s.unitLength.toNat = s.bytes := by
  have hproduct : s.length.toNat * s.copies.toNat = s.bytes := by rw [h.toNat_length, bytes]
  have hbytes : s.bytes ≤ 68 := h.bytes_le
  rw [unitLength, toNat_satMul (by omega), hproduct]

/-- One sample has room in a notification. -/
theorem unitLength_le (h : s.Compact) (hcopies : s.copies ≤ 1) :
    s.unitLength.toNat ≤ maxPayload := by
  rw [h.toNat_unitLength, bytes]
  calc s.width * s.copies.toNat ≤ s.width * 1 := Nat.mul_le_mul_left _ hcopies
    _ = s.width := Nat.mul_one _
    _ ≤ maxPayload := h.width_le

theorem channels_le_width (h : s.Compact) : s.channels ≤ s.width := length_le_sum h.sizes

theorem withOffset (h : s.Compact) {offset : UInt8} (hfits : offset.toNat + s.width ≤ maxPayload) :
    Compact { s with offset := offset } :=
  { h with fits := hfits }

/-! ### Derived shapes -/

theorem scalar {size : UInt8} (hlow : 1 ≤ size.toNat) (hhigh : size.toNat ≤ maxPayload)
    (signed : Bool) : (Shape.scalar size signed).Compact where
  toRegular := .scalar size signed
  sizes := fun n hn => by rwa [List.mem_singleton.1 hn]
  fits := by
    show 0 + (size.toNat + 0) ≤ maxPayload
    omega
  samples := Nat.le_of_ble_eq_true rfl
  packed := .inl (by
    show (size.toNat + 0) * 1 ≤ maxPayload
    omega)

theorem number {size : UInt8} (hsize : Between 1 4 size) (signed : Bool) :
    (Shape.scalar size signed).Compact :=
  scalar hsize.1 (Nat.le_trans hsize.2 (by decide)) signed

/-- The first channel. -/
theorem head (h : s.Compact) (hdata : s.isEmpty = false) (signed : Bool) :
    (Shape.scalar (s.sizes.head?.getD 0) signed).Compact := by
  cases hsizes : s.sizes with
  | nil =>
    rw [isEmpty, length, hsizes] at hdata
    cases hdata
  | cons n rest =>
    have hwidth := h.width_le
    rw [width, hsizes, List.map_cons, List.sum_cons] at hwidth
    refine scalar (h.sizes n (hsizes ▸ List.mem_cons_self)) ?_ signed
    show n.toNat ≤ maxPayload
    omega

theorem empty : Shape.empty.Compact where
  toRegular := .empty
  sizes := fun n hn => nomatch hn
  fits := by decide
  samples := by decide
  packed := .inl (by decide)

theorem rebased (h : s.Compact) : s.rebased.Compact :=
  h.withOffset (by
    show 0 + s.width ≤ maxPayload
    rw [Nat.zero_add]
    exact h.width_le)

theorem withSign (h : s.Compact) (signed : Bool) : (s.withSign signed).Compact :=
  { h.rebased with toRegular := h.toRegular.withSign signed }

/-- Small channels of one width. -/
theorem uniform {channels : Nat} {size copies : UInt8} {signed : Bool} (hchannels : channels ≤ 4)
    (hsize : Between 1 4 size) (hcopies : 1 ≤ copies)
    (hsamples : channels * copies.toNat ≤ maxPayload) :
    Compact ⟨List.replicate channels size, copies, 0, signed⟩ where
  toRegular := .uniform hchannels hsize hcopies
  sizes := fun n hn => by
    rw [List.eq_of_mem_replicate hn]
    exact hsize.1
  fits := by
    have hwidth : channels * size.toNat ≤ 4 * 4 := Nat.mul_le_mul hchannels hsize.2
    rw [width, List.map_replicate, List.sum_replicate_nat, maxPayload]
    show 0 + channels * size.toNat ≤ 17
    omega
  samples := by rwa [Shape.channels, List.length_replicate]
  packed := .inr fun n hn => by
    rw [List.eq_of_mem_replicate hn]
    exact hsize.2

theorem withSize (h : s.Compact) (hdata : s.isEmpty = false) {size : UInt8}
    (hsize : Between 1 4 size) : (s.withSize size).Compact := by
  rw [Shape.withSize, List.map_const']
  exact uniform h.channels hsize (h.copies hdata) h.samples

theorem withCopies (h : s.Compact) {copies : UInt8} (hcopies : 1 ≤ copies)
    (hfits : s.width * copies.toNat ≤ maxPayload) : (s.withCopies copies).Compact :=
  { h.rebased with
    toRegular := h.toRegular.withCopies hcopies
    samples := Nat.le_trans (Nat.mul_le_mul_right _ h.channels_le_width) hfits
    packed := .inl hfits }

/-- A lead and the data behind it. -/
theorem accounted {lead length : UInt8} (hlead : Between 1 4 lead) (hlength : 1 ≤ length.toNat)
    (hfits : lead.toNat + length.toNat ≤ maxPayload) : Compact ⟨[lead, length], 1, 0, false⟩ where
  channels := Nat.le_of_ble_eq_true rfl
  first := fun _ => hlead
  copies := fun _ => UInt8.le_refl 1
  sizes := by
    rintro n (_ | ⟨_, _ | ⟨_, hn⟩⟩)
    · exact hlead.1
    · exact hlength
    · cases hn
  fits := by
    show 0 + (lead.toNat + (length.toNat + 0)) ≤ maxPayload
    omega
  samples := Nat.le_of_ble_eq_true rfl
  packed := .inl (by
    show (lead.toNat + (length.toNat + 0)) * 1 ≤ maxPayload
    omega)

/-- One sample lies within what an offset of five bits reaches. -/
theorem tame (h : s.Compact) (hsizes : s.sizes ≠ []) : Tame { s with copies := 1 } where
  nonempty := hsizes
  sizes := h.sizes
  copies := Nat.le_refl 1
  fits := by
    show s.offset.toNat + s.width * 1 ≤ 32
    have hfits := h.fits
    rw [maxPayload] at hfits
    omega

/-- A channel lies within the sample. -/
theorem channel (h : s.Compact) {k : Nat} {shape : Shape} (hk : s.channel? k = some shape) :
    shape.Compact ∧ s.offset.toNat ≤ shape.offset.toNat ∧
      shape.offset.toNat + shape.width ≤ s.offset.toNat + s.width := by
  obtain ⟨size, hsize, rfl⟩ := channel?_eq_some hk
  have hoffset : (s.offset + sumBytes (s.sizes.take k)).toNat =
      s.offset.toNat + ((s.sizes.take k).map UInt8.toNat).sum :=
    (h.tame (List.ne_nil_of_mem (List.mem_of_getElem? hsize))).toNat_offset_channel hk
  have hwidth := Tame.width_eq_of_getElem? hsize
  have hfits := h.fits
  have hbefore : s.offset.toNat ≤ (s.offset + sumBytes (s.sizes.take k)).toNat := by omega
  have hbehind : (s.offset + sumBytes (s.sizes.take k)).toNat + (size.toNat + 0) ≤
      s.offset.toNat + s.width := by omega
  have hsmall : size.toNat ≤ maxPayload := by omega
  have hscalar := scalar (h.sizes size (List.mem_of_getElem? hsize)) hsmall s.signed
  exact ⟨hscalar.withOffset (Nat.le_trans hbehind hfits), hbefore, hbehind⟩

end Compact
end Shape

/-! ## Signals

That a part lies within is said of the first sample.  Where there are several, each of the others
has its parts at the same distance.
-/

namespace Signal

/-- The shapes of a signal and of all its parts, down to the parts of parts, are good, and no part
reaches out of the signal that it is a part of. -/
inductive Encloses (good : Shape → Prop) : Signal → Prop
  | intro {s : Signal} (shape : good s.shape) (within : ∀ t ∈ s.parts, t.Within s)
      (parts : ∀ t ∈ s.parts, Encloses good t) : Encloses good s

namespace Encloses

variable {good good' : Shape → Prop} {s t : Signal}

theorem shape (h : s.Encloses good) : good s.shape := by
  cases h
  assumption

theorem within (h : s.Encloses good) (ht : t ∈ s.parts) : t.Within s := by
  cases h with
  | intro _ within _ => exact within t ht

theorem part (h : s.Encloses good) (ht : t ∈ s.parts) : t.Encloses good := by
  cases h with
  | intro _ _ parts => exact parts t ht

theorem mono (hgood : ∀ shape, good shape → good' shape) (h : s.Encloses good) :
    s.Encloses good' := by
  induction h with
  | intro shape within _ ih => exact .intro (hgood _ shape) within ih

/-- A change that goes down to the parts and leaves shapes alone. -/
theorem map {f : Signal → Signal} (hshape : ∀ s, (f s).shape = s.shape)
    (hparts : ∀ s, (f s).parts = s.parts.map f) (h : s.Encloses good) : (f s).Encloses good := by
  induction h with
  | @intro s shape within _ ih =>
    refine .intro (hshape s ▸ shape) (fun t ht => ?_) fun t ht => ?_
    all_goals
      rw [hparts] at ht
      obtain ⟨u, hu, rfl⟩ := List.mem_map.1 ht
    · exact (within u hu).map hshape
    · exact ih u hu

theorem withId (h : s.Encloses good) (id : UInt8) : (s.withId id).Encloses good :=
  h.map (shape_withId · id) (parts_withId · id)

theorem withInput (h : s.Encloses good) (feed : Signal) : (s.withInput feed).Encloses good :=
  h.map (f := fun t => t.withInput feed) (shape_withInput · feed) (parts_withInput · feed)

/-- All of a signal moves with it, up to a limit that a byte counts, if its shapes stay good on the
way. -/
theorem moves {limit : Nat} (hlimit : limit ≤ 255)
    (hgood : ∀ (shape : Shape) (distance : Int), good shape →
      0 ≤ (shape.offset.toNat : Int) + distance →
      (shape.offset.toNat : Int) + distance + shape.length.toNat ≤ limit →
      good { shape with offset := movedOffset shape.offset distance })
    (h : s.Encloses good) {distance : Int} (hlow : 0 ≤ (s.shape.offset.toNat : Int) + distance)
    (hhigh : (s.shape.offset.toNat : Int) + distance + s.shape.length.toNat ≤ limit) :
    (s.shifted distance).Encloses good := by
  induction h with
  | @intro s shape within _ ih =>
    refine .intro ?_ (fun t ht => ?_) fun t ht => ?_
    · rw [shape_shifted]
      exact hgood _ _ shape hlow hhigh
    all_goals
      rw [parts_shifted] at ht
      obtain ⟨u, hu, rfl⟩ := List.mem_map.1 ht
      obtain ⟨hstart, hstop⟩ := within u hu
    · exact (within u hu).moved hlow (by omega)
    · exact ih u hu (by omega) (by omega)

theorem shifted (h : s.Encloses Shape.Compact) {distance : Int}
    (hlow : 0 ≤ (s.shape.offset.toNat : Int) + distance)
    (hhigh : (s.shape.offset.toNat : Int) + distance + s.shape.length.toNat ≤ maxPayload) :
    (s.shifted distance).Encloses Shape.Compact := by
  have hpayload : maxPayload ≤ 255 := by decide
  refine h.moves hpayload (fun shape distance hcompact hlow hhigh => ?_) hlow hhigh
  have hmoved := toNat_movedOffset hlow (by omega)
  rw [hcompact.toNat_length] at hhigh
  exact hcompact.withOffset (by omega)

theorem atOffset (h : s.Encloses Shape.Compact) {offset : UInt8}
    (hfits : offset.toNat + s.shape.length.toNat ≤ maxPayload) :
    (s.atOffset offset).Encloses Shape.Compact :=
  h.shifted (by omega) (by omega)

/-- A signal whose parts are the channels of a vector, or that has none. -/
theorem withChannels (h : s.shape.Compact) : s.withChannels.Encloses Shape.Compact := by
  refine .intro h (fun t ht => ?_) fun t ht => ?_
  all_goals
    obtain ⟨scale, shape, k, -, hshape, rfl⟩ := mem_channelParts.1 ht
    obtain ⟨hcompact, hbefore, hbehind⟩ := h.channel hshape
  · rw [← hcompact.toNat_length, ← h.toNat_length] at hbehind
    exact ⟨hbefore, hbehind⟩
  · exact .intro hcompact (fun u hu => nomatch hu) fun u hu => nomatch hu

end Encloses
end Signal

theorem Catalog.encloses_standard {root : Signal}
    (h : root ∈ standard.producers.map Producer.signal) : root.Encloses Shape.Compact := by
  obtain ⟨address, shape, kind, rfl, rfl | ⟨size, signed, hlow, hhigh, rfl, -⟩⟩ := standard_cases h
  · exact .withChannels (.uniform (by decide) (by decide) (by decide) (by decide))
  · exact .withChannels (.number ⟨hlow, hhigh⟩ signed)

/-! ## What processors put out

What accounters and fusers join has to fit in a notification (`Processor.HasRoom`).  All other
outputs have channels for parts or none, and channels of a compact shape lie within it by
themselves.
-/

/-- **What a processor puts out and keeps encloses its parts**, if it comes from signals that do and
that it has room for, and if the shape of the output is compact. -/
theorem infer_encloses {s : Signal} {p : Processor} {fused : List Signal} {i : Inferred}
    (h : infer s p fused = .ok i) (hs : s.Encloses Shape.Compact)
    (hfused : ∀ t ∈ fused, t.Encloses Shape.Compact) (hroom : p.HasRoom s fused)
    (hshape : p.isFuser = false → (p.outputShape s.shape).Compact)
    (hdata : p.isFuser = true → s.shape.isEmpty = false) {t : Signal} (ht : i.Yields t) :
    t.Encloses Shape.Compact := by
  cases infer_made h with
  | emitting hp =>
    rcases ht with rfl | hstate
    · exact .withChannels (hshape hp)
    · cases hstate
  | keeping hp hkept =>
    rcases ht with rfl | hstate
    · exact .withChannels (hshape hp)
    · cases hstate
      refine .withChannels ?_
      rcases hkept with rfl | rfl | rfl
      · exact .number (by decide) false
      · exact hshape hp
      · exact hs.shape.rebased
  | @accounted c =>
    have hcompact := hshape rfl
    rcases ht with rfl | hstate
    · refine .intro hcompact
        (Signal.within_accounted rfl rfl (Nat.le_trans hroom (by decide))) fun t ht => ?_
      rcases List.mem_cons.1 ht with rfl | ht
      · have hsize : c.size.toNat ≤ maxPayload := Nat.le_trans (Nat.le_add_right _ _) hroom
        exact .withChannels (.scalar (hcompact.sizes _ List.mem_cons_self) hsize false)
      · rw [List.mem_singleton.1 ht]
        exact hs.atOffset hroom
    · cases hstate
  | @fused c =>
    have hfits : Drafting.fusedWidth s fused ≤ maxPayload := hroom
    have hstop : (stacked s.shape.length fused).2.toNat = Drafting.fusedWidth s fused :=
      toNat_stacked (Nat.le_trans hfits (by decide))
    have hlength : s.shape.length.toNat ≤ Drafting.fusedWidth s fused := Nat.le_add_right _ _
    have hpos : 1 ≤ s.shape.length.toNat := Shape.length_pos (hdata rfl)
    rcases ht with rfl | hstate
    · refine .intro (.scalar (by omega) (by omega) false)
        (Signal.within_fused rfl (Nat.le_trans hfits (by decide))) fun t ht => ?_
      rcases List.mem_cons.1 ht with rfl | ht
      · refine hs.atOffset ?_
        show 0 + s.shape.length.toNat ≤ maxPayload
        omega
      · exact stacked_keeps (by decide) (fun u hu _ => hu.atOffset) hfused hfits t ht
    · cases hstate

end SignalRoute
