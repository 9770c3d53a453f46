import SignalRoute.Proofs.Route.Nesting
import SignalRoute.Proofs.Signal.Enclosing

/-!
# Derived signals enclose their parts

Steps look at the data of a signal before they put a processor behind it, and at how many bytes it
would put out, so that outputs have compact shapes (`Draft.Emits.compact`).  By induction on how a
signal is derived it encloses its parts, to any depth (`Signal.Derived.encloses`).

The induction goes over every way to derive a signal, so it meets signals that are on boards, that
were taken apart, and that were fused from buffers of other routes.  Only the fuser needs more than
its input: that its total was looked at before.
-/

set_option autoImplicit false

namespace SignalRoute

/-! ## What steps look at -/

namespace Processor

/-- Is the processor only put behind signals with data? -/
def wantsData : Processor → Bool
  | passthrough _ | accumulator _ => false
  | _ => true

theorem wantsData_of_isFuser {p : Processor} (hp : p.isFuser = true) : p.wantsData = true := by
  cases p with
  | fuser c => rfl
  | _ => cases hp

/-- If the processor packs samples then they fit in one notification. -/
def PacksWithin (p : Processor) (s : Signal) : Prop :=
  match p with
  | .packer c => s.shape.unitLength.toNat * c.count.toNat ≤ maxPayload
  | _ => True

end Processor

theorem Step.data {step : Step} {choice : Device → Signal → Except Fault Processor} {d : Device}
    {s : Signal} {p : Processor} (hchoice : step.choice = some choice) (hp : choice d s = .ok p)
    (hwants : p.wantsData = true) : s.shape.isEmpty = false := by
  cases step <;> cases hchoice
  case highPass =>
    dsimp only [Signal.highPassing] at hp
    split at hp
    · obtain ⟨_, hdata, -⟩ := bind_eq_ok.1 hp
      exact Signal.data_of_requireData hdata
    · cases hp
  case count =>
    cases hp
    cases hwants
  case limit =>
    cases hp
    cases hwants
  -- all others begin with a look at the data
  all_goals
    obtain ⟨_, hdata, -⟩ := bind_eq_ok.1 hp
    first
    | exact Signal.data_of_requireData hdata
    | exact (Signal.between_of_requireScalar hdata).1

namespace Draft.Emits

variable {d : Draft} {s : Signal} {p : Processor} {buffers : List (NamedRef × Signal)}

theorem data (h : d.Emits s p buffers) (hwants : p.wantsData = true) : s.shape.isEmpty = false := by
  cases h with
  | chosen hchoice hp => exact Step.data hchoice hp hwants
  | compared hp =>
    obtain ⟨size, hsize, -⟩ := bind_eq_ok.1 hp
    exact (Signal.between_of_requireScalar hsize).1
  | computed hp =>
    obtain ⟨_, hdata, -⟩ := bind_eq_ok.1 hp
    exact Signal.data_of_requireData hdata
  | buffered hp =>
    obtain ⟨_, hdata, -⟩ := bind_eq_ok.1 hp
    exact Signal.data_of_requireData hdata
  | fused hdevice hdata hbuffers hwidth => exact Signal.data_of_requireData hdata

theorem packsWithin (h : d.Emits s p buffers) : p.PacksWithin s := by
  rcases h.joins_cases with ⟨count, hp⟩ | ⟨mode, hp⟩ | ⟨hfuser, -⟩ | hplain
  · obtain ⟨rfl, hfits⟩ := Signal.packing_eq_ok hp
    exact hfits
  · rw [(Signal.accounting_eq_ok hp).1]
    trivial
  · cases p with
    | fuser c => trivial
    | _ => cases hfuser
  · cases p with
    | packer c => cases hplain
    | _ => trivial

/-- Only a fuser reads buffers. -/
theorem buffers_eq_nil (h : d.Emits s p buffers) (hp : p.isFuser = false) : buffers = [] := by
  cases h with
  | fused hdevice hdata hbuffers hwidth => cases hp
  | _ => rfl

/-- **Steps put out compact shapes** if they are given compact ones. -/
theorem compact (h : d.Emits s p buffers) (hs : s.shape.Compact) (hp : p.isFuser = false) :
    (p.outputShape s.shape).Compact := by
  obtain rfl := h.buffers_eq_nil hp
  have hcarries := h.carries hs.toRegular fun b hb => nomatch hb
  have hfields := hcarries.fields
  have hdata := h.data
  have hone : Between 1 4 1 := by decide
  cases p with
  | accumulator c => exact .number hfields.1 _
  | multi c =>
    have hsmall := (hs.withSize (hdata rfl) hone).withSign false
    obtain ⟨signed, size, op, mode, references⟩ := c
    cases mode with
    | absolute => exact hs.rebased
    | reference => exact hs.rebased
    | zone => exact hsmall
    | binary => exact hsmall
  | combiner c => exact hs.head (hdata rfl) false
  | math c =>
    have hchannels : max s.shape.channels 1 = s.shape.channels :=
      Nat.max_eq_left (Signal.channels_pos (hdata rfl))
    dsimp only [Processor.outputShape]
    rw [hchannels]
    exact .uniform hs.channels hfields.1 (hs.copies (hdata rfl)) hs.samples
  | pulse c =>
    obtain ⟨size, mode, threshold, width⟩ := c
    cases mode with
    | width => exact .number (by decide) _
    | area => exact hs.withSize (hdata rfl) (by decide)
    | peak => exact hs.rebased
    | onDetect => exact .number hone _
  | differential c =>
    obtain ⟨size, signed, mode, distance⟩ := c
    cases mode with
    | absolute => exact hs.rebased
    | differential => exact hs.withSign true
    | binary => exact .number hone _
  | threshold c =>
    obtain ⟨size, signed, mode, boundary, hysteresis⟩ := c
    cases mode with
    | absolute => exact hs.rebased
    | binary => exact .number hone _
  | buffer c => exact .empty
  | packer c =>
    have hlength := hs.toRegular.length_le_unitLength (hdata rfl)
    rw [hs.toNat_length] at hlength
    exact hs.withCopies hfields.2.1 (Nat.le_trans (Nat.mul_le_mul_right _ hlength) h.packsWithin)
  | accounter c =>
    have hlead : Between 1 4 c.size := (hcarries.shape rfl).first (Nat.le_refl 2)
    exact .accounted hlead (Shape.length_pos (hdata rfl)) h.hasRoom
  | fuser c => cases hp
  | _ => exact hs.rebased

end Draft.Emits

/-- **Derived signals enclose their parts**, to any depth, and all their places are exact. -/
theorem Signal.Derived.encloses {s : Signal} (h : s.Derived) : s.Encloses Shape.Compact := by
  induction h with
  | root hs => exact Catalog.encloses_standard hs
  | part hs ht ih => exact ih.part ht
  | yielded hs hemits hbuffers hi ht ih ihbuffers =>
    exact infer_encloses hi ih (List.forall_mem_map.2 ihbuffers) hemits.hasRoom
      (hemits.compact ih.shape) (fun hp => hemits.data (Processor.wantsData_of_isFuser hp)) ht
  | placed hs id feed ih => exact (ih.withId id).withInput feed

end SignalRoute
