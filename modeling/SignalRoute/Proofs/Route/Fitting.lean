import SignalRoute.Proofs.Route.Enclosing
import SignalRoute.Proofs.Signal.Fitting

/-!
# Which stages put out too much

Packers, accounters and fusers are only put behind signals if what they put out has room in one
notification.  Arithmetic and the areas of pulses set the width of every channel that they put out,
and nothing looks at how many there are in all packed samples.  So these can put out more than a
notification holds (`Processor.Outgrows`), and whatever is put behind them and keeps the width then
does so too (`Draft.Emits.outgrows_iff`).

There is no other source of such outputs: in a draft in which no stage outgrows its notification all
signals fit, however they are taken apart and put together (`Draft.Derives.outgrown_or_fits`).

Outgrowing is a property of one stage and its input, decided by a product of three numbers, and it
is inherited by what keeps the width.  So the first stage that is too wide can always be pointed at,
and it is one of two kinds.
-/

set_option autoImplicit false

namespace SignalRoute

namespace Processor

/-- The width of each channel that the processor puts out, if it sets that. -/
def channelWidth? : Processor → Option UInt8
  | math c => some c.output
  | pulse c => if c.mode == .area then some 4 else none
  | _ => none

/-- Does the processor put out as many bytes as it reads? -/
def keepsWidth : Processor → Bool
  | passthrough _ | average _ | single _ | time _ | delay _ => true
  | multi c => c.mode == .absolute || c.mode == .reference
  | pulse c => c.mode == .peak
  | differential c => c.mode == .absolute || c.mode == .differential
  | threshold c => c.mode == .absolute
  | _ => false

/-- The channels that the processor puts out are too wide for all of them to have room in one
notification. -/
def Outgrows (p : Processor) (s : Shape) : Prop :=
  ∃ n, p.channelWidth? = some n ∧ maxPayload < s.channels * s.copies.toNat * n.toNat

theorem unitLength_of_keepsWidth {p : Processor} (hp : p.keepsWidth = true) (s : Shape) :
    (p.outputShape s).unitLength = s.unitLength := by
  cases p with
  | multi c =>
    obtain ⟨signed, size, op, mode, references⟩ := c
    cases mode <;> first | rfl | cases hp
  | pulse c =>
    obtain ⟨size, mode, threshold, width⟩ := c
    cases mode <;> first | rfl | cases hp
  | differential c =>
    obtain ⟨size, signed, mode, distance⟩ := c
    cases mode <;> first | rfl | cases hp
  | threshold c =>
    obtain ⟨size, signed, mode, boundary, hysteresis⟩ := c
    cases mode <;> first | rfl | cases hp
  | _ => first | rfl | cases hp

/-- What sets the width of channels is put behind signals that have some. -/
theorem wantsData_of_channelWidth? {p : Processor} {n : UInt8} (hp : p.channelWidth? = some n) :
    p.wantsData = true ∧ p.keepsWidth = false := by
  cases p with
  | math c => exact ⟨rfl, rfl⟩
  | pulse c =>
    obtain ⟨size, mode, threshold, width⟩ := c
    cases mode <;> cases hp
    exact ⟨rfl, rfl⟩
  | _ => cases hp

/-- Channels of one width, as many as there are in all samples. -/
theorem bytes_of_channelWidth? {p : Processor} {n : UInt8} (hp : p.channelWidth? = some n)
    {s : Shape} (hchannels : 1 ≤ s.channels) :
    (p.outputShape s).bytes = s.channels * s.copies.toNat * n.toNat := by
  have hall (sizes : List UInt8) (hsizes : sizes = List.replicate s.channels n) :
      (sizes.map UInt8.toNat).sum * s.copies.toNat = s.channels * s.copies.toNat * n.toNat := by
    rw [hsizes, List.map_replicate, List.sum_replicate_nat, Nat.mul_right_comm]
  cases p with
  | math c =>
    cases hp
    exact hall _ (congrArg (List.replicate · c.output) (Nat.max_eq_left hchannels))
  | pulse c =>
    obtain ⟨size, mode, threshold, width⟩ := c
    cases mode <;> cases hp
    exact hall _ List.map_const'
  | _ => cases hp

end Processor

namespace Draft.Emits

variable {d : Draft} {s : Signal} {p : Processor} {buffers : List (NamedRef × Signal)}

/-- What neither sets the width of channels nor keeps that of its input fits. -/
theorem small (h : d.Emits s p buffers) (hs : s.shape.Compact) (hp : p.isFuser = false)
    (hsets : p.channelWidth? = none) (hkeeps : p.keepsWidth = false) :
    (p.outputShape s.shape).unitLength.toNat ≤ maxPayload := by
  have hcompact := h.compact hs hp
  have hone : (1 : UInt8) ≤ 1 := UInt8.le_refl 1
  cases p with
  | accumulator c => exact hcompact.unitLength_le hone
  | combiner c => exact hcompact.unitLength_le hone
  | accounter c => exact hcompact.unitLength_le hone
  | buffer c => exact hcompact.unitLength_le (show (0 : UInt8) ≤ 1 by decide)
  | pulse c =>
    obtain ⟨size, mode, threshold, width⟩ := c
    cases mode with
    | width => exact hcompact.unitLength_le hone
    | onDetect => exact hcompact.unitLength_le hone
    | area => cases hsets
    | peak => cases hkeeps
  | differential c =>
    obtain ⟨size, signed, mode, distance⟩ := c
    cases mode with
    | binary => exact hcompact.unitLength_le hone
    | _ => cases hkeeps
  | threshold c =>
    obtain ⟨size, signed, mode, boundary, hysteresis⟩ := c
    cases mode with
    | binary => exact hcompact.unitLength_le hone
    | absolute => cases hkeeps
  | multi c =>
    -- one byte for each channel, of which there are no more than bytes in a notification
    have hbytes : ((s.shape.sizes.map fun _ => (1 : UInt8)).map UInt8.toNat).sum *
        s.shape.copies.toNat ≤ maxPayload := by
      rw [List.map_const', List.map_replicate, List.sum_replicate_nat]
      exact (Nat.mul_one s.shape.channels).symm ▸ hs.samples
    rw [hcompact.toNat_unitLength]
    obtain ⟨signed, size, op, mode, references⟩ := c
    cases mode with
    | zone => exact hbytes
    | binary => exact hbytes
    | _ => cases hkeeps
  | packer c =>
    have hlength := hs.toRegular.length_le_unitLength (h.data rfl)
    rw [hs.toNat_length] at hlength
    rw [hcompact.toNat_unitLength]
    exact Nat.le_trans (Nat.mul_le_mul_right _ hlength) h.packsWithin
  | math c => cases hsets
  | fuser c => cases hp
  | _ => cases hkeeps

/-- What a fuser puts out is what the builder looked at. -/
theorem fused_fits (h : d.Emits s p buffers) (hp : p.isFuser = true) {i : Inferred}
    (hi : infer s p (buffers.map Prod.snd) = .ok i) :
    i.output.shape.unitLength.toNat ≤ maxPayload := by
  have hroom := h.hasRoom
  cases infer_made hi with
  | emitting hno => cases hp.symm.trans hno
  | keeping hno => cases hp.symm.trans hno
  | accounted => cases hp
  | fused =>
    have hfits : Drafting.fusedWidth s (buffers.map Prod.snd) ≤ maxPayload := hroom
    have hstop : (stacked s.shape.length (buffers.map Prod.snd)).2.toNat =
        Drafting.fusedWidth s (buffers.map Prod.snd) :=
      toNat_stacked (Nat.le_trans hfits (by decide))
    have hlength : s.shape.length.toNat ≤ Drafting.fusedWidth s (buffers.map Prod.snd) :=
      Nat.le_add_right _ _
    have hpos : 1 ≤ s.shape.length.toNat := Shape.length_pos (h.data rfl)
    exact (Shape.Compact.scalar (by omega) (by omega) false).unitLength_le (UInt8.le_refl 1)

/-- **When an output has no room in a notification**: its channels were made too wide, or it is as
long as the input, which has no room either. -/
theorem outgrows_iff (h : d.Emits s p buffers) (hs : s.shape.Compact) {i : Inferred}
    (hi : infer s p (buffers.map Prod.snd) = .ok i) :
    maxPayload < i.output.shape.unitLength.toNat ↔
      p.Outgrows s.shape ∨ (p.keepsWidth = true ∧ maxPayload < s.shape.unitLength.toNat) := by
  cases hp : p.isFuser with
  | true =>
    have hfits := h.fused_fits hp hi
    have hfuser : p.channelWidth? = none ∧ p.keepsWidth = false := by
      cases p with
      | fuser c => exact ⟨rfl, rfl⟩
      | _ => cases hp
    refine iff_of_false (by omega) ?_
    rintro (⟨n, hn, -⟩ | ⟨hkeeps, -⟩)
    · cases hfuser.1.symm.trans hn
    · cases hfuser.2.symm.trans hkeeps
  | false =>
    rw [(infer_isOutput hp hi).shape]
    cases hsets : p.channelWidth? with
    | some n =>
      obtain ⟨hwants, hkeeps⟩ := Processor.wantsData_of_channelWidth? hsets
      rw [(h.compact hs hp).toNat_unitLength,
        Processor.bytes_of_channelWidth? hsets (Signal.channels_pos (h.data hwants))]
      constructor
      · exact fun hlong => .inl ⟨n, hsets, hlong⟩
      · rintro (⟨m, hm, hlong⟩ | ⟨hyes, -⟩)
        · cases hsets.symm.trans hm
          exact hlong
        · cases hkeeps.symm.trans hyes
    | none =>
      have hnot : ¬p.Outgrows s.shape := fun ⟨n, hn, _⟩ => nomatch hsets.symm.trans hn
      rw [or_iff_right hnot]
      cases hkeeps : p.keepsWidth with
      | true =>
        rw [Processor.unitLength_of_keepsWidth hkeeps]
        exact (and_iff_right rfl).symm
      | false =>
        have hsmall := h.small hs hp hsets hkeeps
        exact iff_of_false (by omega) fun ⟨hyes, _⟩ => nomatch hyes

end Draft.Emits

/-! ## Drafts -/

/-- Some stage outgrows its notification. -/
def Draft.Outgrown (d : Draft) : Prop :=
  ∃ stage ∈ d.plan.stages, stage.processor.Outgrows stage.source.signal.shape

theorem Draft.Outgrown.nameStage {d : Draft} (h : d.Outgrown) (i : Nat) (name : String) :
    (d.nameStage i name).Outgrown := by
  obtain ⟨stage, hstage, hlong⟩ := h
  obtain ⟨k, hk⟩ := List.mem_iff_getElem?.1 hstage
  have hnamed : (d.nameStage i name).plan.stages[k]? =
      some (if i = k then { stage with name := some name } else stage) := by
    show (d.plan.stages.modify i _)[k]? = _
    rw [List.getElem?_modify, hk]
    rfl
  refine ⟨_, List.mem_of_getElem? hnamed, ?_⟩
  split <;> exact hlong

theorem Draft.Outgrown.move {x y : Cursor × Draft} (hmove : Draft.Move x y) (h : x.2.Outgrown) :
    y.2.Outgrown := by
  cases hmove with
  | emitted hemits hi =>
    obtain ⟨stage, hstage, hlong⟩ := h
    exact ⟨stage, List.mem_append_left _ hstage, hlong⟩
  | named hstage hnamed hknown hunnamed => exact h.nameStage _ _
  | _ => exact h

/-- If no stage outgrows its notification, then moves lead from signals that fit to signals that
fit. -/
theorem Draft.Derives.fits_move {x y : Cursor × Draft} (hmove : Draft.Move x y)
    (hderives : x.2.Derives x.1) (h : x.2.Outgrown ∨ x.2.All Signal.Fits x.1) :
    y.2.Outgrown ∨ y.2.All Signal.Fits y.1 := by
  rcases h with hlong | hall
  · exact .inl (hlong.move hmove)
  · by_cases hlong : y.2.Outgrown
    · exact .inl hlong
    · refine .inr (hall.move hmove (fun _ hs _ ht => hs.part ht) ?_)
      intro p buffers i hemits hi hnext t ht
      have hcompact := hderives.cursor.encloses.shape
      have hnot : ¬p.Outgrows x.1.signal.shape := by
        rw [hnext] at hlong
        exact fun houtgrows => hlong ⟨_, List.mem_append_right _ (List.mem_singleton.2 rfl), houtgrows⟩
      have hfits : i.output.shape.unitLength.toNat ≤ maxPayload := by
        rw [← Nat.not_lt, hemits.outgrows_iff hcompact hi]
        exact not_or.2 ⟨hnot, fun hkept => absurd hall.cursor.samples (Nat.not_le.2 hkept.2)⟩
      exact infer_fits hi hall.cursor (List.forall_mem_map.2 (hall.buffers hemits)) hcompact
        hemits.hasRoom (hemits.compact hcompact) hfits ht

/-- **All signals of a draft fit unless some stage outgrows its notification**, if those fit with
which its expressions start. -/
theorem Draft.Derives.outgrown_or_fits {c : Cursor} {d : Draft} (h : d.Derives c)
    (hfits : d.All Signal.Fits c) {expressions : List (Signal × List Step)}
    (hroots : ∀ e ∈ expressions, e.1.Derived ∧ e.1.Fits) :
    (d.build expressions).Outgrown ∨ ∃ next, (d.build expressions).All Signal.Fits next := by
  obtain ⟨next, -, hnext⟩ := Draft.build_keeps
    (I := fun x => x.2.Derives x.1 ∧ (x.2.Outgrown ∨ x.2.All Signal.Fits x.1))
    (fun _ _ hmove hx => ⟨hx.1.move hmove, hx.1.fits_move hmove hx.2⟩)
    (fun e he _ _ hx => ⟨{ hx.1 with cursor := (hroots e he).1 },
      hx.2.imp_right fun hall => { hall with cursor := (hroots e he).2 }⟩) ⟨h, .inr hfits⟩
  exact hnext.imp_right fun hall => ⟨next, hall⟩

end SignalRoute
