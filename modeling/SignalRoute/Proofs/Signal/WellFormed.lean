import SignalRoute.Proofs.Route.Emission
import SignalRoute.Proofs.Signal.Enclosing

/-!
# What a processor puts out, from the start of a payload

Reading a board back, a host infers outputs from configurations that need not match the signals
they are behind: an accumulator may be narrower than its input, arithmetic may count other channels.
A signal is well-formed if all channels of it and of its parts have bytes, if there is a sample of
each, and if no part reaches out of the signal that it is a part of.  Whatever a board can carry,
`infer` makes well-formed signals of well-formed ones (`infer_wellFormed`).

* `Shape.Fresh` is the shape of an output: well-formed, at the start of a payload, with a sample
  whose bytes a byte can count, so that no sum of widths wraps.  `Processor.outputShape_fresh` goes
  through the processors.
* A fuser saturates where its parts would reach past 255 bytes.  Then the last part sticks out, and
  only then (`exists_past_end`), so the output of a fuser is well-formed exactly if the input and
  the buffers have at most 255 bytes together.

Less is known here than when a route is built.  A builder makes a configuration for the signal that
it has at hand; on a board that somebody else set up, all that is known of a configuration is that
it was decoded.  So the proofs ask for `Processor.Canonical`, which holds of whatever decoding
returns, and the conclusion is weaker than to be compact: the output may be longer than a
notification, as long as a byte can count it.
-/

set_option autoImplicit false

namespace SignalRoute

/-! ## Shapes

`Shape.Fresh` says more than well-formed, and it is what makes the parts come out right: at offset 0
and with a width that does not wrap, each channel ends before the sample does.
-/

namespace Shape

/-- All channels have bytes, and there is a sample of them. -/
structure WellFormed (s : Shape) : Prop where
  sizes : ∀ n ∈ s.sizes, 1 ≤ n.toNat
  copies : 1 ≤ s.copies.toNat

/-- Samples from the start of a payload, with bytes, but no more than a byte counts. -/
structure Fresh (s : Shape) : Prop extends s.WellFormed where
  start : s.offset = 0
  nonempty : 1 ≤ s.width
  exact : s.width ≤ 255

/-- Where a channel begins, if the sample ends where a byte can count it. -/
theorem toNat_offset_channel {s shape : Shape} {k : Nat}
    (hfits : s.offset.toNat + s.width ≤ 255) (hk : s.channel? k = some shape) :
    shape.offset.toNat = s.offset.toNat + ((s.sizes.take k).map UInt8.toNat).sum := by
  obtain ⟨size, hsize, rfl⟩ := channel?_eq_some hk
  have hwidth := Tame.width_eq_of_getElem? hsize
  rw [UInt8.toNat_add, toNat_sumBytes (by omega), Nat.mod_eq_of_lt (by omega)]

namespace WellFormed

variable {s : Shape}

theorem withOffset (h : s.WellFormed) (offset : UInt8) : WellFormed { s with offset := offset } :=
  ⟨h.sizes, h.copies⟩

theorem scalar {size : UInt8} (hsize : 1 ≤ size.toNat) (signed : Bool) :
    (Shape.scalar size signed).WellFormed where
  sizes := fun n hn => by rwa [List.mem_singleton.1 hn]
  copies := Nat.le_refl 1

theorem channel (h : s.WellFormed) {k : Nat} {shape : Shape} (hk : s.channel? k = some shape) :
    shape.WellFormed := by
  obtain ⟨size, hsize, rfl⟩ := channel?_eq_some hk
  exact (scalar (h.sizes size (List.mem_of_getElem? hsize)) s.signed).withOffset _

end WellFormed

namespace Fresh

variable {s : Shape}

theorem toNat_length (h : s.Fresh) : s.length.toNat = s.width :=
  toNat_sumBytes (Nat.lt_succ_of_le h.exact)

theorem length_pos (h : s.Fresh) : 0 < s.length.toNat := by
  rw [h.toNat_length]
  exact h.nonempty

/-- A shape of its own, from the start. -/
theorem rebased (h : s.WellFormed) (hpos : 1 ≤ s.width) (hexact : s.width ≤ 255) :
    s.rebased.Fresh :=
  ⟨h.withOffset 0, rfl, hpos, hexact⟩

theorem withSign (h : s.Fresh) (signed : Bool) : (s.withSign signed).Fresh :=
  ⟨⟨h.sizes, h.copies⟩, rfl, h.nonempty, h.exact⟩

theorem withCopies (h : s.Fresh) {copies : UInt8} (hcopies : 1 ≤ copies.toNat) :
    (s.withCopies copies).Fresh :=
  ⟨⟨h.sizes, hcopies⟩, rfl, h.nonempty, h.exact⟩

theorem scalar {size : UInt8} (hsize : 1 ≤ size.toNat) (signed : Bool) :
    (Shape.scalar size signed).Fresh where
  toWellFormed := .scalar hsize signed
  start := rfl
  nonempty := hsize
  exact := Nat.le_of_lt_succ size.toNat_lt

/-- Channels of one small width. -/
theorem uniform {channels : Nat} {size copies : UInt8} {signed : Bool} (hpos : 1 ≤ channels)
    (hchannels : channels ≤ 63) (hsize : Between 1 4 size) (hcopies : 1 ≤ copies.toNat) :
    Fresh ⟨List.replicate channels size, copies, 0, signed⟩ := by
  have hwidth :
      width ⟨List.replicate channels size, copies, 0, signed⟩ = channels * size.toNat := by
    rw [width, List.map_replicate, List.sum_replicate_nat]
  have hlow : 1 * 1 ≤ channels * size.toNat := Nat.mul_le_mul hpos hsize.1
  have hhigh : channels * size.toNat ≤ 63 * 4 := Nat.mul_le_mul hchannels hsize.2
  refine ⟨⟨fun n hn => ?_, hcopies⟩, rfl, by omega, by omega⟩
  rw [List.eq_of_mem_replicate hn]
  exact hsize.1

/-- A lead and the data behind it. -/
theorem accounted {lead length : UInt8} (hlead : 1 ≤ lead.toNat) (hlength : 1 ≤ length.toNat)
    (hfits : lead.toNat + length.toNat ≤ 255) : Fresh ⟨[lead, length], 1, 0, false⟩ where
  sizes := by
    rintro n (_ | ⟨_, _ | ⟨_, hn⟩⟩)
    · exact hlead
    · exact hlength
    · cases hn
  copies := Nat.le_refl 1
  start := rfl
  nonempty := Nat.le_add_right_of_le hlead
  exact := hfits

/-- A channel lies within the sample. -/
theorem channel_stop_le (h : s.Fresh) {k : Nat} {shape : Shape} (hk : s.channel? k = some shape) :
    shape.offset.toNat + shape.length.toNat ≤ s.length.toNat := by
  have hstart : s.offset.toNat = 0 := by
    rw [h.start]
    rfl
  have hexact := h.exact
  have hoffset := toNat_offset_channel (by omega) hk
  obtain ⟨size, hsize, rfl⟩ := channel?_eq_some hk
  have hwidth := Tame.width_eq_of_getElem? hsize
  rw [hoffset, h.toNat_length]
  show _ + (size + 0).toNat ≤ _
  rw [UInt8.add_zero]
  omega

end Fresh
end Shape

/-- **The shape of an output is fresh**, whatever a board can carry behind a well-formed signal of a
notification, unless nothing is put out at all. -/
theorem Processor.outputShape_fresh {d : Device} {p : Processor} (hp : p.Canonical d)
    (hfuser : p.isFuser = false) (hbuffer : p.isBuffer = false) {s : Shape} (hs : s.WellFormed)
    (hlow : 1 ≤ s.width) (hhigh : s.width ≤ maxPayload) : (p.outputShape s).Fresh := by
  have hsmall : s.width ≤ 17 := hhigh
  have hrebased : s.rebased.Fresh := .rebased hs hlow (by omega)
  have hcount : s.channels ≤ 17 := Nat.le_trans (length_le_sum hs.sizes) hsmall
  have hlength := hrebased.toNat_length
  have hchannels : 1 ≤ s.channels := by
    rcases hsizes : s.sizes with _ | ⟨n, rest⟩
    · rw [Shape.width, hsizes] at hlow
      exact absurd hlow (by decide)
    · rw [Shape.channels, hsizes]
      exact Nat.le_add_left 1 _
  have hsized {size : UInt8} (hsize : Between 1 4 size) : (s.withSize size).Fresh := by
    rw [Shape.withSize, List.map_const']
    exact .uniform hchannels (Nat.le_trans hcount (by decide)) hsize hs.copies
  cases p with
  | accumulator c => exact .scalar hp.1.1 _
  | multi c =>
    obtain ⟨signed, size, op, mode, references⟩ := c
    cases mode with
    | absolute | reference => exact hrebased
    | zone | binary => exact (hsized (by decide)).withSign false
  | combiner c =>
    refine .scalar ?_ false
    rcases hsizes : s.sizes with _ | ⟨n, rest⟩
    · rw [Shape.channels, hsizes] at hchannels
      exact absurd hchannels (by decide)
    · exact hs.sizes n (hsizes ▸ List.mem_cons_self)
  | math c =>
    exact .uniform (Nat.le_max_right _ _)
      (Nat.max_le.2 ⟨Nat.le_trans hcount (by decide), by decide⟩) hp.1 hs.copies
  | pulse c =>
    obtain ⟨size, mode, threshold, width⟩ := c
    cases mode with
    | width => exact .scalar (by decide) _
    | area => exact hsized (by decide)
    | peak => exact hrebased
    | onDetect => exact .scalar (by decide) _
  | differential c =>
    obtain ⟨size, signed, mode, distance⟩ := c
    cases mode with
    | absolute => exact hrebased
    | differential => exact hrebased.withSign true
    | binary => exact .scalar (by decide) _
  | threshold c =>
    obtain ⟨size, signed, mode, boundary, hysteresis⟩ := c
    cases mode with
    | absolute => exact hrebased
    | binary => exact .scalar (by decide) _
  | buffer c => cases hbuffer
  | packer c => exact hrebased.withCopies hp.2.1
  | accounter c =>
    have hsize : c.size.toNat ≤ 16 := hp.2
    have hdata : s.length.toNat = s.width := hlength
    exact .accounted hp.1 (by omega) (by omega)
  | fuser c => cases hfuser
  | _ => exact hrebased

/-! ## Signals

The limit is that of a byte here, and not that of a notification: the channels of a fresh signal lie
within it, and well-formed signals move as far as a byte counts (`Encloses.moves`).
-/

namespace Signal

/-- The channels of a fresh signal are well-formed and lie within it. -/
theorem Encloses.withChannels_of_fresh {s : Signal} (h : s.shape.Fresh) :
    s.withChannels.Encloses Shape.WellFormed := by
  refine .intro h.toWellFormed (fun t ht => ?_) fun t ht => ?_
  all_goals obtain ⟨scale, shape, k, -, hshape, rfl⟩ := mem_channelParts.1 ht
  · constructor
    · show s.shape.offset.toNat ≤ shape.offset.toNat
      rw [h.start]
      exact Nat.zero_le _
    · show shape.offset.toNat + shape.length.toNat ≤ s.shape.offset.toNat + s.shape.length.toNat
      exact Nat.le_trans (h.channel_stop_le hshape) (Nat.le_add_left _ _)
  · exact .intro (h.channel hshape) (fun u hu => nomatch hu) fun u hu => nomatch hu

/-- All of a signal moves with it, as long as it ends where a byte can count it. -/
theorem Encloses.moved_to {s : Signal} (h : s.Encloses Shape.WellFormed) {offset : UInt8}
    (hfits : offset.toNat + s.shape.length.toNat ≤ 255) :
    (s.atOffset offset).Encloses Shape.WellFormed :=
  h.moves (Nat.le_refl 255) (fun _ _ hshape _ _ => hshape.withOffset _) (by omega) (by omega)

end Signal

/-! ## Signals behind each other

The addition saturates, and its result is the smaller one of the sum and 255, without a hypothesis.
So both cases of a fuser can be told from one number, `Drafting.fusedWidth`.
-/

theorem toNat_satAdd_eq_min (a b : UInt8) : (satAdd a b).toNat = min (a.toNat + b.toNat) 255 := by
  by_cases hfits : a.toNat + b.toNat < 256
  · rw [toNat_satAdd hfits, Nat.min_eq_left (by omega)]
  · rw [satAdd, if_neg hfits, Nat.min_eq_right (by omega)]
    rfl

/-- Where the signals behind each other end, or where a byte stops to count. -/
theorem toNat_stacked_eq_min (fused : List Signal) (offset : UInt8) :
    (stacked offset fused).2.toNat =
      min (offset.toNat + sumCounts (fused.map fun t => t.shape.length.toNat)) 255 := by
  induction fused generalizing offset with
  | nil =>
    have := offset.toNat_lt
    show offset.toNat = min (offset.toNat + 0) 255
    omega
  | cons t rest ih =>
    rw [List.map_cons, sumCounts]
    show (stacked (satAdd offset t.shape.length) rest).2.toNat = _
    rw [ih, toNat_satAdd_eq_min]
    omega

/-- Signals that are too long together have one that ends where no byte counts. -/
theorem exists_past_end {fused : List Signal} {offset : UInt8}
    (h : 255 < offset.toNat + sumCounts (fused.map fun t => t.shape.length.toNat)) :
    ∃ t ∈ (stacked offset fused).1, 255 < t.shape.offset.toNat + t.shape.length.toNat := by
  induction fused generalizing offset with
  | nil =>
    have := offset.toNat_lt
    exact absurd h (by show ¬255 < offset.toNat + 0; omega)
  | cons t rest ih =>
    rw [List.map_cons, sumCounts] at h
    by_cases hfits : offset.toNat + t.shape.length.toNat ≤ 255
    · have hnext := toNat_satAdd (a := offset) (b := t.shape.length) (by omega)
      obtain ⟨u, hu, hpast⟩ := @ih (satAdd offset t.shape.length) (by omega)
      exact ⟨u, List.mem_cons_of_mem _ hu, hpast⟩
    · refine ⟨t.atOffset offset, List.mem_cons_self, ?_⟩
      rw [t.shape_atOffset]
      exact Nat.lt_of_not_le hfits

/-! ## What processors put out

Buffers and fusers are split off first.  A buffer puts out no data, so its output is not fresh, but
its state is.  A fuser can be refused, and can be overfull; what remains delivers in every case.
-/

/-- A signal of a processor that has no id yet, with the bytes of the channels that it names, from
the start of a payload. -/
structure Signal.Begins (t : Signal) (register : UInt8) : Prop where
  address : t.address = .unindexed Module.processor register
  start : t.shape.offset = 0
  nonempty : 0 < t.shape.length.toNat

theorem Signal.begins_processed {shape : Shape} (h : shape.Fresh) (s : Signal) (p : Processor)
    (register : UInt8) (kind : SignalKind) :
    (Signal.processed s p register shape kind).Begins register :=
  ⟨rfl, h.start, h.length_pos⟩

section

variable {d : Device} {p : Processor} {s : Signal} {fused : List Signal} {i : Inferred}

/-- A buffer keeps what it gets and puts out nothing. -/
theorem infer_buffer (hbuffer : p.isBuffer = true) (s : Signal) (fused : List Signal) :
    infer s p fused = .ok ⟨.processed s p ProcessorReg.notify .empty .integer,
      some (.processed s p ProcessorReg.state s.shape.rebased s.kind)⟩ := by
  cases p with
  | buffer c => rfl
  | _ => cases hbuffer

/-- What is promised of a signal that is put out or kept. -/
def Signal.Delivers (t : Signal) (register : UInt8) : Prop :=
  t.Begins register ∧ t.Encloses Shape.WellFormed

theorem Signal.delivers_processed {shape : Shape} (h : shape.Fresh) (s : Signal) (p : Processor)
    (register : UInt8) (kind : SignalKind) :
    (Signal.processed s p register shape kind).Delivers register :=
  ⟨begins_processed h s p register kind, .withChannels_of_fresh h⟩

/-- Every processor but buffers and fusers puts out and keeps well-formed signals. -/
theorem infer_delivers (hp : p.Canonical d) (hfuser : p.isFuser = false)
    (hbuffer : p.isBuffer = false) (hs : s.Encloses Shape.WellFormed) (hlow : 1 ≤ s.shape.width)
    (hhigh : s.shape.width ≤ maxPayload) (h : infer s p fused = .ok i) :
    i.output.Delivers ProcessorReg.notify ∧
      ∀ t, i.state = some t → t.Delivers ProcessorReg.state := by
  have hshape := Processor.outputShape_fresh hp hfuser hbuffer hs.shape hlow hhigh
  have hrebased : s.shape.rebased.Fresh :=
    .rebased hs.shape hlow (Nat.le_trans hhigh (by decide))
  cases infer_made h with
  | emitting => exact ⟨Signal.delivers_processed hshape _ _ _ _, fun t ht => (nomatch ht)⟩
  | keeping _ hkept =>
    refine ⟨Signal.delivers_processed hshape _ _ _ _, fun t ht => ?_⟩
    cases ht
    refine Signal.delivers_processed ?_ _ _ _ _
    rcases hkept with rfl | rfl | rfl
    · exact .scalar (by decide) false
    · exact hshape
    · exact hrebased
  | @accounted c =>
    have hsize : c.size.toNat ≤ 16 := hp.2
    have hdata := hrebased.toNat_length
    have hwidth : s.shape.width ≤ 17 := hhigh
    have hfits : c.size.toNat + s.shape.length.toNat ≤ 255 := by
      show c.size.toNat + s.shape.rebased.length.toNat ≤ 255
      rw [hdata]
      show c.size.toNat + s.shape.width ≤ 255
      omega
    refine ⟨⟨⟨rfl, rfl, hshape.length_pos⟩, .intro hshape.toWellFormed
      (Signal.within_accounted rfl rfl hfits) fun t ht => ?_⟩, fun t ht => nomatch ht⟩
    rcases List.mem_cons.1 ht with rfl | ht
    · exact .withChannels_of_fresh (.scalar hp.1 false)
    · rw [List.mem_singleton.1 ht]
      exact hs.moved_to hfits
  | fused => cases hfuser

/-- A fuser puts out a signal, and a well-formed one exactly if all that it joins has room. -/
theorem infer_fuser {c : Fuser} (hcount : fused.length = c.ids.length)
    (hs : s.Encloses Shape.WellFormed) (hpos : 0 < s.shape.length.toNat)
    (hfused : ∀ t ∈ fused, t.Encloses Shape.WellFormed) :
    ∃ o, infer s (.fuser c) fused = .ok ⟨o, none⟩ ∧ o.Begins ProcessorReg.notify ∧
      (o.Encloses Shape.WellFormed ↔ Drafting.fusedWidth s fused ≤ 255) := by
  have hstop := toNat_stacked_eq_min fused s.shape.length
  have hsize : 1 ≤ (stacked s.shape.length fused).2.toNat := by omega
  refine ⟨_, by rw [infer, if_neg (not_not_intro hcount)], ⟨rfl, rfl, ?_⟩, ?_, fun hfits => ?_⟩
  · exact (Shape.Fresh.scalar hsize false).length_pos
  · intro h
    by_contra hpast
    obtain ⟨t, ht, hend⟩ := exists_past_end (Nat.lt_of_not_le hpast)
    have hwithin := (h.within (List.mem_cons_of_mem _ ht)).stop
    have hlength := (Shape.scalar (stacked s.shape.length fused).2 false).length.toNat_lt
    have hstart : t.shape.offset.toNat + t.shape.length.toNat ≤
      0 + (Shape.scalar (stacked s.shape.length fused).2 false).length.toNat := hwithin
    omega
  · refine .intro (.scalar hsize false) (Signal.within_fused rfl hfits) fun t ht => ?_
    rcases List.mem_cons.1 ht with rfl | ht
    · refine hs.moved_to ?_
      show 0 + s.shape.length.toNat ≤ 255
      have hlength := s.shape.length.toNat_lt
      omega
    · exact stacked_keeps (Nat.le_refl _) (fun u hu _ => hu.moved_to) hfused hfits t ht

/-- **Inference is total on what boards carry**, behind a well-formed signal of a notification.  It
refuses a fuser with another number of buffers than it lists; everything else has an output from
the start of a payload, with bytes unless it is a buffer, and maybe a state.  Both are well-formed,
except for what a fuser joins: that is well-formed exactly if it has at most 255 bytes. -/
theorem infer_wellFormed {bytes : Bytes} (hp : Processor.decode d bytes = .ok p)
    (hs : s.Encloses Shape.WellFormed) (hlow : 1 ≤ s.shape.width)
    (hhigh : s.shape.width ≤ maxPayload) (fused : List Signal) :
    (∀ c, p = .fuser c → fused.length ≠ c.ids.length →
      ∃ text, infer s p fused = .error (.unsupportedTransform text)) ∧
    ((∀ c, p = .fuser c →
        fused.length = c.ids.length ∧ ∀ t ∈ fused, t.Encloses Shape.WellFormed) →
      ∃ i, infer s p fused = .ok i ∧
        i.output.address = .unindexed Module.processor ProcessorReg.notify ∧
        i.output.shape.offset = 0 ∧
        (p.isBuffer = true → i.output.shape.length = 0) ∧
        (p.isBuffer = false → 0 < i.output.shape.length.toNat ∧
          (i.output.Encloses Shape.WellFormed ↔
            (p.isFuser = true → Drafting.fusedWidth s fused ≤ 255))) ∧
        ∀ t, i.state = some t →
          t.Begins ProcessorReg.state ∧ t.Encloses Shape.WellFormed) := by
  have hcanonical := Processor.canonical_of_decode hp
  have hrebased : s.shape.rebased.Fresh :=
    .rebased hs.shape hlow (Nat.le_trans hhigh (by decide))
  refine ⟨fun c hc hcount => ?_, fun hfused => ?_⟩
  · subst hc
    exact ⟨_, by rw [infer, if_pos hcount]⟩
  · cases hbuffer : p.isBuffer with
    | true =>
      refine ⟨_, infer_buffer hbuffer s fused, rfl, rfl, fun _ => rfl,
        fun h => absurd h (by decide), ?_⟩
      intro t ht
      cases ht
      exact Signal.delivers_processed hrebased _ _ _ _
    | false =>
      cases hfuser : p.isFuser with
      | true =>
        obtain ⟨c, rfl⟩ : ∃ c, p = .fuser c := by
          cases p with
          | fuser c => exact ⟨c, rfl⟩
          | _ => cases hfuser
        obtain ⟨hcount, hall⟩ := hfused c rfl
        obtain ⟨o, ho, hbegins, hroom⟩ := infer_fuser hcount hs hrebased.length_pos hall
        exact ⟨_, ho, hbegins.address, hbegins.start, fun h => absurd h (by decide),
          fun _ => ⟨hbegins.nonempty, hroom.trans ⟨fun h _ => h, fun h => h rfl⟩⟩,
          fun t ht => absurd ht.symm (Option.some_ne_none t)⟩
      | false =>
        obtain ⟨i, hi, -⟩ := infer_eq_ok hfuser s fused
        obtain ⟨⟨hbegins, hparts⟩, hstate⟩ :=
          infer_delivers hcanonical hfuser hbuffer hs hlow hhigh hi
        exact ⟨i, hi, hbegins.address, hbegins.start, fun h => absurd h (by decide),
          fun _ => ⟨hbegins.nonempty, fun _ h => absurd h (by decide), fun _ => hparts⟩, hstate⟩

end

/-! ## Signals with and without room

That each signal is well-formed is not enough.  A fuser has to be asked how much it joins, which no
field of its configuration says, and the input has to fit in a notification by the sum of its
channels, not by its length, which is that sum as a byte counts it.
-/

/-- A signal of one channel and one sample. -/
def plainSignal (address : Address) (size : UInt8) : Signal :=
  .root address (.scalar size false) .bytes

theorem plainSignal_encloses {size : UInt8} (hsize : 1 ≤ size.toNat) (address : Address) :
    (plainSignal address size).Encloses Shape.WellFormed :=
  .withChannels_of_fresh (.scalar hsize false)

theorem decode_fuser_zero :
    Processor.decode default (Processor.fuser ⟨[0]⟩).encode = .ok (.fuser ⟨[0]⟩) := by
  decide +kernel

/-- A byte and a buffer of three bytes have room in a fuser. -/
theorem infer_wellFormed_of_room :
    ∃ i, infer (plainSignal ⟨1, 1, noId⟩ 1) (.fuser ⟨[0]⟩) [plainSignal ⟨9, 4, 0⟩ 3] = .ok i ∧
      i.output.Encloses Shape.WellFormed := by
  have hs : (plainSignal ⟨1, 1, noId⟩ 1).Encloses Shape.WellFormed :=
    plainSignal_encloses (by decide) _
  obtain ⟨-, h⟩ := infer_wellFormed decode_fuser_zero hs (by decide) (by decide)
    [plainSignal ⟨9, 4, 0⟩ 3]
  obtain ⟨i, hi, -, -, -, hbytes, -⟩ := h fun c hc => by
    cases hc
    refine ⟨rfl, fun t ht => ?_⟩
    rw [List.mem_singleton.1 ht]
    exact plainSignal_encloses (by decide) _
  exact ⟨i, hi, (hbytes rfl).2.2 fun _ => by decide⟩

/-- A vector of two channels, of 255 bytes and of two, whose length is 1 as a byte counts it. -/
def wrappingSignal : Signal :=
  ⟨⟨3, 4, noId⟩, ⟨[255, 2], 1, 0, true⟩, .vector 1, none, none, [], none⟩

/-- Its first channel is longer than it is. -/
theorem not_encloses_wrapping (p : Processor) :
    ¬(Inferred.unchanged wrappingSignal p).output.Encloses Shape.WellFormed := by
  intro h
  have hpart : (Inferred.unchanged wrappingSignal p).output.channelPart 1 ⟨[255], 1, 0, true⟩ 0 ∈
      (Inferred.unchanged wrappingSignal p).output.channelParts :=
    Signal.mem_channelParts.2 ⟨1, ⟨[255], 1, 0, true⟩, 0, rfl, rfl, rfl⟩
  have hstop : 0 + 255 ≤ 1 := (h.within hpart).stop
  exact absurd hstop (by decide)

/-- **What has no room sticks out.**  Behind one byte, a buffer of 255 bytes ends past the 255 bytes
that a fuser puts out.  And where the widths of channels wrap, the channels of an output do not lie
within its length. -/
theorem infer_overfull :
    (∃ i, Processor.decode default (Processor.fuser ⟨[0]⟩).encode = .ok (.fuser ⟨[0]⟩) ∧
      (plainSignal ⟨1, 1, noId⟩ 1).Encloses Shape.WellFormed ∧
      (plainSignal ⟨1, 1, noId⟩ 1).shape.length = 1 ∧
      (plainSignal ⟨9, 4, 0⟩ 255).Encloses Shape.WellFormed ∧
      (plainSignal ⟨9, 4, 0⟩ 255).shape.length = 255 ∧
      infer (plainSignal ⟨1, 1, noId⟩ 1) (.fuser ⟨[0]⟩) [plainSignal ⟨9, 4, 0⟩ 255] = .ok i ∧
      ¬i.output.Encloses Shape.WellFormed) ∧
    ∃ i, Processor.decode default (Processor.delay ⟨4, 1, false⟩).encode =
        .ok (.delay ⟨4, 1, false⟩) ∧
      wrappingSignal.Encloses Shape.WellFormed ∧ wrappingSignal.shape.length = 1 ∧
      infer wrappingSignal (.delay ⟨4, 1, false⟩) [] = .ok i ∧
      ¬i.output.Encloses Shape.WellFormed := by
  have hs : (plainSignal ⟨1, 1, noId⟩ 1).Encloses Shape.WellFormed :=
    plainSignal_encloses (by decide) _
  have ht : (plainSignal ⟨9, 4, 0⟩ 255).Encloses Shape.WellFormed :=
    plainSignal_encloses (by decide) _
  constructor
  · have hcount : [plainSignal ⟨9, 4, 0⟩ 255].length = (Fuser.mk [0]).ids.length := rfl
    obtain ⟨o, ho, -, hroom⟩ := infer_fuser hcount hs (by decide) fun t h => by
      rwa [List.mem_singleton.1 h]
    exact ⟨_, decode_fuser_zero, hs, rfl, ht, rfl, ho, fun h => absurd (hroom.1 h) (by decide)⟩
  · refine ⟨.unchanged wrappingSignal (.delay ⟨4, 1, false⟩), by decide +kernel, ?_, rfl, rfl,
      not_encloses_wrapping _⟩
    have hsizes : ∀ n ∈ ([255, 2] : List UInt8), 1 ≤ n.toNat :=
      List.forall_mem_cons.2 ⟨by decide, List.forall_mem_singleton.2 (by decide)⟩
    exact .intro ⟨hsizes, by decide⟩ (fun t ht => nomatch ht) fun t ht => nomatch ht

end SignalRoute
