import SignalRoute.Proofs.Codec.Stability
import SignalRoute.Proofs.Route.Drafting
import SignalRoute.Proofs.Signal.Regular

/-!
# Processors that boards carry

The codec checks no ranges, so the stages do.  A board carries a processor if its configuration
comes back from the codec as it was, except that the references of a comparison may lose what does
not fit (`Processor.blanked`).

Each stage checks what it needs of its signal, as long as the signal is regular, and its output has
a regular shape again.  There is one lemma for each stage; `Draft.Emits.carries` says so of all that
steps put behind a signal.

A regular signal is what a sensor is, and what each processor is given and puts out again: few
channels, the first of them small if there are others, and a sample if there are data.  The checks
of the builder are what is left to be checked when this is known, and they turn out to be enough for
the codec, kind by kind.
-/

set_option autoImplicit false

namespace SignalRoute

/-! ## Configurations up to references -/

namespace Processor

/-- The configuration with its references blanked.  Their number remains. -/
def blanked : Processor → Processor
  | single c => single { c with reference := 0 }
  | multi c => multi { c with references := c.references.map fun _ => 0 }
  | p => p

def isBuffer : Processor → Bool
  | buffer _ => true
  | _ => false

/-- What fits but for its references comes back but for its references. -/
theorem decode_payload_of_blanked {d : Device} {p : Processor} (h : p.blanked.Canonical d) :
    ∃ q, p.payload >>= decode d = .ok q ∧ q.blanked = p.blanked := by
  cases p with
  | single c =>
    have hlayout : (single c).HasLayout d := h.1
    exact ⟨_, decode_encode hlayout, rfl⟩
  | multi c =>
    obtain ⟨hd, hsize, -⟩ := h
    have hlayout : (multi c).HasLayout d := hd
    have hfits : (multi c).fits = true := HasNarrowReferences.fits hsize.2
    refine ⟨_, by rw [payload_eq_ok hfits]; exact decode_encode hlayout, ?_⟩
    have hwidth : c.truncated.size = c.size := (wrapSize_eq_self_iff rfl c.size).2 hsize
    have hcount : (c.truncated.references.map fun _ => (0 : Int64)) =
        c.references.map fun _ => 0 := by
      rw [c.truncated_references hsize, List.map_map]
      rfl
    show multi { c.truncated with references := _ } = multi { c with references := _ }
    rw [hcount, ← hwidth]
    rfl
  | _ => exact ⟨_, Canonical.decode_payload h, rfl⟩

end Processor

/-! ## What a stage knows of its input

What the checks say in terms of numbers.  They are written for one kind of processor after the other
in the program, with the bounds as they were needed there.
-/

namespace Signal

variable {s : Signal} {what : String} {size : UInt8}

theorem data_of_requireData (h : s.requireData what = .ok ()) : s.shape.isEmpty = false := by
  rw [requireData] at h
  split at h
  · cases h
  · exact Bool.eq_false_iff.2 ‹_›

/-- Data of at most so many bytes. -/
theorem between_length (hdata : s.shape.isEmpty = false) {high : UInt8}
    (h : ¬high < s.shape.length) : Between 1 high s.shape.length :=
  ⟨Shape.length_pos hdata, UInt8.not_lt.1 h⟩

theorem between_of_requireScalar (h : s.requireScalar what = .ok size) :
    s.shape.isEmpty = false ∧ Between 1 4 size := by
  obtain ⟨_, hdata, h⟩ := bind_eq_ok.1 h
  have hdata := data_of_requireData hdata
  split at h
  · cases h
  · rename_i hscalar
    rw [not_or] at hscalar
    cases h
    exact ⟨hdata, between_length hdata hscalar.2⟩

/-- Like channels that hold data are not empty. -/
theorem between_firstSize (hdata : s.shape.isEmpty = false) (h : s.isUniform = true) :
    Between 1 4 s.firstSize := by
  rw [isUniform, Bool.and_eq_true, decide_eq_true_iff, List.all_eq_true] at h
  refine ⟨Nat.pos_of_ne_zero fun hzero => ?_, h.1⟩
  have hsizes : ∀ n ∈ s.shape.sizes, n = 0 := fun n hn => by
    rw [eq_of_beq (h.2 n hn)]
    exact UInt8.toNat_inj.1 hzero
  have hlength : s.shape.length = 0 := sumBytes_eq_zero hsizes
  rw [Shape.isEmpty, hlength] at hdata
  cases hdata

theorem channels_pos (hdata : s.shape.isEmpty = false) : 1 ≤ s.shape.channels := by
  refine List.length_pos_iff.2 fun hnil => ?_
  rw [Shape.isEmpty, Shape.length, hnil] at hdata
  cases hdata

theorem between_channels {high n : Nat} (hlow : 1 ≤ n) (hhigh : n ≤ high) (h : high ≤ 255) :
    Between 1 (UInt8.ofNat high) (UInt8.ofNat n) := by
  have hn : (UInt8.ofNat n).toNat = n := by rw [UInt8.toNat_ofNat']; omega
  have hbound : (UInt8.ofNat high).toNat = high := by rw [UInt8.toNat_ofNat']; omega
  constructor
  · show 1 ≤ (UInt8.ofNat n).toNat
    omega
  · show (UInt8.ofNat n).toNat ≤ (UInt8.ofNat high).toNat
    omega

end Signal

/-! ## Processors behind regular signals -/

/-- The board carries the processor, which has a regular output behind the signal.  A buffer has
something to keep. -/
structure Carries (d : Device) (s : Signal) (p : Processor) : Prop where
  fields : p.blanked.Canonical d
  shape : p.isFuser = false → (p.outputShape s.shape).Regular
  data : p.isBuffer = true → s.shape.isEmpty = false

theorem Carries.plain {d : Device} {s : Signal} {p : Processor} (hp : p.isBuffer = false)
    (hfields : p.blanked.Canonical d)
    (hshape : p.isFuser = false → (p.outputShape s.shape).Regular) : Carries d s p :=
  ⟨hfields, hshape, fun hb => absurd (hp.symm.trans hb) Bool.false_ne_true⟩

namespace Signal

variable {d : Device} {s : Signal} {p : Processor}

theorem averaging_carries (hs : s.shape.Regular) {samples : UInt8} {highPass : Bool}
    (h : s.averaging d samples highPass = .ok p) : Carries d s p := by
  obtain ⟨_, hdata, h⟩ := bind_eq_ok.1 h
  have hdata := data_of_requireData hdata
  split at h
  · rename_i hd
    split at h
    · cases h
    · rename_i hchannels
      rw [Bool.or_eq_true, not_or, Bool.not_eq_true', Bool.not_eq_false, decide_eq_true_iff]
        at hchannels
      cases h
      have hcount : Between 1 8 (UInt8.ofNat s.shape.channels) :=
        between_channels (channels_pos hdata) (Nat.le_of_not_lt hchannels.2) (by decide)
      exact .plain rfl ⟨between_firstSize hdata hchannels.1, hd, hcount⟩ fun _ => hs.rebased
  · split at h
    · cases h
    · cases h
      exact .plain rfl ⟨between_length hdata ‹_›, rfl⟩ fun _ => hs.rebased

theorem highPassing_carries (hs : s.shape.Regular) {samples : UInt8}
    (h : s.highPassing d samples = .ok p) : Carries d s p := by
  rw [highPassing] at h
  split at h
  · exact averaging_carries hs h
  · cases h

theorem accumulating_carries (h : s.accumulating = .ok p) : Carries d s p := by
  obtain ⟨size, hsize, h⟩ := bind_eq_ok.1 h
  cases h
  have hsum : Between 1 4 4 := by decide
  exact .plain rfl ⟨hsum, (between_of_requireScalar hsize).2⟩ fun _ => .scalar _ _

theorem counting_carries : Carries d s s.counting := by
  have hsize : Between 1 4 (max 1 (min s.shape.length 4)) := by
    generalize s.shape.length = n
    revert n
    exact forall_byte (by decide +kernel)
  have hsum : Between 1 4 4 := by decide
  exact .plain rfl ⟨hsum, hsize⟩ fun _ => .scalar _ _

theorem comparing_carries (hs : s.shape.Regular) {op : ComparisonOp} {mode : ComparisonMode}
    {references : List Int64} (h : s.comparing d op mode references = .ok p) : Carries d s p := by
  obtain ⟨size, hsize, h⟩ := bind_eq_ok.1 h
  obtain ⟨hdata, hsize⟩ := between_of_requireScalar hsize
  cases references with
  | nil => cases h
  | cons first others =>
    simp only at h
    split at h
    · rename_i hd
      cases h
      refine .plain rfl ⟨hd, hsize, fun r hr => ?_⟩ fun _ => ?_
      · obtain ⟨-, -, rfl⟩ := List.mem_map.1 hr
        exact fitsBytes_zero _ _
      · -- a zone or a binary answer takes one byte; the other modes keep the width
        have hone : Between 1 4 1 := by decide
        have hsmall := (hs.withSize hdata hone).withSign false
        cases mode with
        | absolute => exact hs.rebased
        | reference => exact hs.rebased
        | zone => exact hsmall
        | binary => exact hsmall
    · rename_i hd
      split at h
      · cases h
      · cases h
        exact .plain rfl ⟨Bool.eq_false_iff.2 hd, fitsBytes_zero _ _⟩ fun _ => hs.rebased

theorem computing_carries (hs : s.shape.Regular) {op : MathOp} {rhs : Int32}
    (h : s.computing d op rhs = .ok p) : Carries d s p := by
  obtain ⟨_, hdata, h⟩ := bind_eq_ok.1 h
  have hdata := data_of_requireData hdata
  split at h
  · cases h
  · split at h
    · cases h
    · rename_i huniform
      rw [Bool.not_eq_true', Bool.not_eq_false] at huniform
      cases h
      have hinput := between_firstSize hdata huniform
      have houtput := op.between_outputSize hinput rhs
      have hchannels := hs.channels
      have hcount : Between 1 255 (UInt8.ofNat s.shape.channels) :=
        between_channels (channels_pos hdata) (Nat.le_trans hchannels (by decide)) (by decide)
      refine .plain rfl ⟨houtput, hinput, fun n hn => ?_⟩ fun _ => ?_
      · dsimp only at hn
        split at hn
        · rename_i hd
          cases hn
          exact ⟨hd, hcount⟩
        · cases hn
      · exact .uniform (by omega) houtput (hs.copies hdata)

theorem combining_carries (hs : s.shape.Regular) {mode : CombinerMode}
    (h : s.combining mode = .ok p) : Carries d s p := by
  obtain ⟨_, hdata, h⟩ := bind_eq_ok.1 h
  split at h
  · cases h
  · rename_i hmany
    cases h
    have hsize : Between 1 4 s.firstSize := hs.first (Nat.le_of_not_lt hmany)
    have hcount : Between 1 4 (UInt8.ofNat s.shape.channels) :=
      between_channels (by omega) hs.channels (by decide)
    exact .plain rfl ⟨hsize, hsize, hcount⟩ fun _ => .scalar _ _

theorem delaying_carries (hs : s.shape.Regular) {samples : UInt8}
    (h : s.delaying d samples = .ok p) : Carries d s p := by
  obtain ⟨_, hdata, h⟩ := bind_eq_ok.1 h
  have hdata := data_of_requireData hdata
  simp only at h
  split at h <;> split at h
  · cases h
  · rename_i hd hlimit
    cases h
    exact .plain rfl ⟨rfl, (if_pos hd).symm ▸ between_length hdata hlimit⟩ fun _ => hs.rebased
  · cases h
  · rename_i hd hlimit
    cases h
    exact .plain rfl ⟨rfl, (if_neg hd).symm ▸ between_length hdata hlimit⟩ fun _ => hs.rebased

theorem findingPulse_carries (hs : s.shape.Regular) {mode : PulseMode} {level : Float32}
    {width : UInt16} (h : s.findingPulse mode level width = .ok p) : Carries d s p := by
  obtain ⟨size, hsize, h⟩ := bind_eq_ok.1 h
  obtain ⟨hdata, hsize⟩ := between_of_requireScalar hsize
  cases h
  refine .plain rfl ⟨hsize.1, Nat.le_of_lt_succ size.toNat_lt⟩ fun _ => ?_
  cases mode with
  | width => exact .scalar _ _
  | area => exact hs.withSize hdata (by decide)
  | peak => exact hs.rebased
  | onDetect => exact .scalar _ _

theorem findingThreshold_carries (hs : s.shape.Regular) {mode : ThresholdMode}
    {boundary hysteresis : Float32} (h : s.findingThreshold mode boundary hysteresis = .ok p) :
    Carries d s p := by
  obtain ⟨size, hsize, h⟩ := bind_eq_ok.1 h
  cases h
  refine .plain rfl (between_of_requireScalar hsize).2 fun _ => ?_
  cases mode with
  | absolute => exact hs.rebased
  | binary => exact .scalar _ _

theorem findingDifferential_carries (hs : s.shape.Regular) {mode : DifferentialMode}
    {distance : Float32} (h : s.findingDifferential mode distance = .ok p) : Carries d s p := by
  obtain ⟨_, hdata, h⟩ := bind_eq_ok.1 h
  have hdata := data_of_requireData hdata
  split at h
  · cases h
  · cases h
    refine .plain rfl (between_length hdata ‹_›) fun _ => ?_
    cases mode with
    | absolute => exact hs.rebased
    | differential => exact hs.withSign true
    | binary => exact .scalar _ _

/-- Samples that fill a payload are few and short. -/
theorem packing_carries (hs : s.shape.Regular) {count : UInt8} (h : s.packing count = .ok p) :
    Carries d s p := by
  obtain ⟨_, hdata, h⟩ := bind_eq_ok.1 h
  have hdata := data_of_requireData hdata
  simp only at h
  split at h
  · cases h
  · rename_i hcount
    rw [not_or, not_lt, maxPayload] at hcount
    obtain ⟨hzero, hfits⟩ := hcount
    cases h
    have hpos : 1 ≤ count.toNat := Nat.pos_of_ne_zero fun h0 => hzero (UInt8.toNat_inj.1 h0)
    have hunit := hs.unitLength_pos hdata
    have hlength := hs.length_le_unitLength hdata
    have hsize : s.shape.unitLength.toNat ≤ s.shape.unitLength.toNat * count.toNat :=
      Nat.le_mul_of_pos_right _ hpos
    have hsamples : count.toNat ≤ s.shape.unitLength.toNat * count.toNat :=
      Nat.le_mul_of_pos_left _ hunit
    have hsizes : s.shape.length.toNat ≤ 32 ∧ count.toNat ≤ 32 := by omega
    have hwidth : Between 1 32 s.shape.length := ⟨Shape.length_pos hdata, hsizes.1⟩
    exact .plain rfl ⟨hwidth, hpos, hsizes.2⟩ fun _ => hs.withCopies hpos

theorem accounting_carries {mode : AccountMode} (h : s.accounting mode = .ok p) :
    Carries d s p := by
  obtain ⟨-, -, h⟩ := bind_eq_ok.1 h
  split at h
  · cases h
  · cases h
    have hlead : Between 1 16 4 := by decide
    have hfirst : Between 1 4 4 := by decide
    have hshape : Shape.Regular ⟨[4, s.shape.length], 1, 0, false⟩ :=
      ⟨Nat.le_of_ble_eq_true rfl, fun _ => hfirst, fun _ => UInt8.le_refl 1⟩
    exact .plain rfl hlead fun _ => hshape

theorem buffering_carries (h : s.buffering = .ok p) : Carries d s p := by
  obtain ⟨_, hdata, h⟩ := bind_eq_ok.1 h
  have hdata := data_of_requireData hdata
  split at h
  · cases h
  · cases h
    have hsize := between_length hdata ‹_›
    exact ⟨⟨hsize.1, UInt8.le_trans hsize.2 (by decide)⟩, fun _ => .empty, fun _ => hdata⟩

theorem limitingPeriod_carries (hs : s.shape.Regular) {period : UInt32}
    (h : s.limitingPeriod period = .ok p) : Carries d s p := by
  obtain ⟨_, hdata, h⟩ := bind_eq_ok.1 h
  have hdata := data_of_requireData hdata
  split at h
  · cases h
  · cases h
    exact .plain rfl (between_length hdata ‹_›) fun _ => hs.rebased

theorem passthrough_carries (hs : s.shape.Regular) (c : Passthrough) :
    Carries d s (.passthrough c) :=
  .plain rfl trivial fun _ => hs.rebased

end Signal

/-- Whatever a step chooses for a regular signal is carried. -/
theorem Step.carries {step : Step} {choice : Device → Signal → Except Fault Processor} {d : Device}
    {s : Signal} {p : Processor} (hchoice : step.choice = some choice) (hp : choice d s = .ok p)
    (hs : s.shape.Regular) : Carries d s p := by
  cases step <;> cases hchoice
  case average => exact s.averaging_carries hs hp
  case lowPass => exact s.averaging_carries hs hp
  case highPass => exact s.highPassing_carries hs hp
  case accumulate => exact s.accumulating_carries hp
  case count =>
    cases hp
    exact s.counting_carries
  case filter => exact s.comparing_carries hs hp
  case filterMode => exact s.comparing_carries hs hp
  case map => exact s.computing_carries hs hp
  case rms => exact s.combining_carries hs hp
  case rss => exact s.combining_carries hs hp
  case delay => exact s.delaying_carries hs hp
  case pulse => exact s.findingPulse_carries hs hp
  case threshold => exact s.findingThreshold_carries hs hp
  case differential => exact s.findingDifferential_carries hs hp
  case pack => exact s.packing_carries hs hp
  case account => exact s.accounting_carries hp
  case limit =>
    cases hp
    exact s.passthrough_carries hs _
  case limitPeriod => exact s.limitingPeriod_carries hs hp

/-- Buffers that hold data are no more than the bytes that a payload takes. -/
theorem Drafting.length_le_fusedWidth (s : Signal) {states : List Signal}
    (h : ∀ t ∈ states, t.shape.isEmpty = false) : states.length ≤ fusedWidth s states := by
  refine Nat.le_trans ?_ (Nat.le_add_left _ s.shape.length.toNat)
  induction states with
  | nil => exact Nat.zero_le _
  | cons t rest ih =>
    have hfirst : 1 ≤ t.shape.length.toNat := Shape.length_pos (h t List.mem_cons_self)
    have hrest := ih fun u hu => h u (List.mem_cons_of_mem _ hu)
    rw [List.length_cons, List.map_cons, sumCounts]
    omega

/-- **The board carries every processor that steps put behind a regular signal**, if the buffers
that it reads hold data. -/
theorem Draft.Emits.carries {d : Draft} {s : Signal} {p : Processor}
    {buffers : List (NamedRef × Signal)} (h : d.Emits s p buffers) (hs : s.shape.Regular)
    (hbuffers : ∀ b ∈ buffers, b.2.shape.isEmpty = false) : Carries d.device s p := by
  cases h with
  | chosen hchoice hp => exact Step.carries hchoice hp hs
  | compared hp => exact s.comparing_carries hs hp
  | computed hp => exact s.computing_carries hs hp
  | buffered hp => exact s.buffering_carries hp
  | fused hdevice hdata hnames hwidth =>
    have hcount : (buffers.map Prod.snd).length ≤ Drafting.fusedWidth s (buffers.map Prod.snd) :=
      Drafting.length_le_fusedWidth s (List.forall_mem_map.2 hbuffers)
    rw [List.length_map] at hcount
    refine .plain rfl ?_ fun hp => (nomatch hp)
    show (buffers.map fun b => Drafting.fusedId b.1).length ≤ 255
    rw [List.length_map]
    exact Nat.le_trans hcount (Nat.le_trans hwidth (by decide))

end SignalRoute
