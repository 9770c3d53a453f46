import SignalRoute.Proofs.Codec.Field

/-!
# Configurations on their way to the board and back

What a board reads out of an encoded configuration is the configuration with each field cut to the
room that it has: `Processor.truncated`.

* Each kind of processor has its own `truncated`, and a `decode_body` that says that its reader
  computes it.
* `decode_encode` puts them together: a configuration that has the layout of a board comes back
  truncated.  A layout is about which fields a configuration has, not about their values, so this
  covers fields that are far too large.

What is lost is told by a function of the configuration and not by an inequality, because the
question that comes next is what the board does instead of what was asked for.  A sum of five bytes
is taken for one of a single byte, and each `truncated` is the configuration that the board runs.
-/

set_option autoImplicit false

namespace SignalRoute

/-! ## What comes back

Kind by kind, with a namespace for each.  Where fields share a byte, a lemma about the byte comes
first (`head_fields`), checked for all values of its fields.
-/

namespace Accumulator

def truncated (c : Accumulator) : Accumulator :=
  { c with output := wrapSize 0x3 c.output, input := wrapSize 0x3 c.input }

theorem decode_body (c : Accumulator) :
    Processor.decodeAccumulator c.body = .ok (.accumulator c.truncated) := by
  obtain ⟨counter, output, input⟩ := c
  simp only [body, Processor.decodeAccumulator, truncated, wrapSize_three]
  rcases sizeBits_cases output with h | h | h | h <;>
    rcases sizeBits_cases input with h' | h' | h' | h' <;>
      rw [h, h'] <;> cases counter <;> rfl

end Accumulator

namespace Passthrough

theorem decode_body (c : Passthrough) :
    Processor.decodePassthrough c.body = .ok (.passthrough c) := by
  obtain ⟨b0, b1, hbytes, hword⟩ := leBytes_two c.value
  simp only [body, hbytes, Processor.decodePassthrough, ofByte_toByte, hword]
  rfl

end Passthrough

namespace Average

/-- Without a channel count there is no room for the kind of the average either. -/
def truncated (c : Average) : Average :=
  { c with
    size := wrapSize 0x3 c.size
    highPass := c.channels.isSome && c.highPass
    channels := c.channels.map (wrapSize 0x7) }

theorem sizeField_sizes (n : UInt8) :
    sizeField (sizeBits n ||| (sizeBits n <<< 2)) 0 0x3 = wrapSize 0x3 n := by
  revert n
  exact forall_byte (by decide +kernel)

theorem sizeField_channels (flag : Bool) (n : UInt8) :
    sizeField (flagBits flag 0x1 ||| ((lessOne n &&& 0x7) <<< 1)) 1 0x7 = wrapSize 0x7 n ∧
      hasFlag (flagBits flag 0x1 ||| ((lessOne n &&& 0x7) <<< 1)) 0x1 = flag := by
  revert n
  cases flag <;> exact forall_byte (by decide +kernel)

theorem decode_body {d : Device} (c : Average) (h : c.channels.isSome → d.highPass = true) :
    Processor.decodeAverage d c.body = .ok (.average c.truncated) := by
  obtain ⟨size, samples, highPass, channels⟩ := c
  cases channels with
  | none => simp [body, Processor.decodeAverage, truncated, sizeField_sizes]
  | some n =>
    obtain ⟨hsize, hflag⟩ := sizeField_channels highPass n
    simp [body, Processor.decodeAverage, truncated, sizeField_sizes, h rfl, hsize, hflag]

end Average

namespace SingleComparison

def truncated (c : SingleComparison) : SingleComparison :=
  { c with reference := readReference c.signed (leBytes 4 c.reference.toUInt64) }

theorem decode_body (c : SingleComparison) :
    Processor.decodeSingle c.body = .ok (.single c.truncated) := by
  obtain ⟨signed, op, reference⟩ := c
  have hsign : (flagBits signed 0x1 == 1) = signed := by cases signed <;> rfl
  simp only [body, leBytes, List.cons_append, List.nil_append, Processor.decodeSingle,
    ofByte_toByte, hsign]
  rfl

end SingleComparison

namespace MultiComparison

/-- The references as they are written. -/
def referenceBytes (c : MultiComparison) : Bytes :=
  c.references.flatMap fun r => (leBytes 8 r.toUInt64).take c.size.toNat

def truncated (c : MultiComparison) : MultiComparison :=
  { c with
    size := wrapSize 0x3 c.size
    references := (chunks (wrapSize 0x3 c.size).toNat c.referenceBytes).map
      (readReference c.signed) }

theorem head_fields (c : MultiComparison) :
    hasFlag c.head 0x1 = c.signed ∧ sizeField c.head 1 0x3 = wrapSize 0x3 c.size ∧
      (c.head >>> 3) &&& 0x7 = toByte c.op ∧ (c.head >>> 6) &&& 0x3 = toByte c.mode := by
  obtain ⟨signed, size, op, mode, references⟩ := c
  simp only [head, wrapSize_three]
  rcases sizeBits_cases size with h | h | h | h <;> rw [h] <;>
    cases signed <;> cases op <;> cases mode <;> exact ⟨rfl, rfl, rfl, rfl⟩

theorem decode_body (c : MultiComparison) :
    Processor.decodeMulti c.body = .ok (.multi c.truncated) := by
  obtain ⟨hsigned, hsize, hop, hmode⟩ := c.head_fields
  simp only [body, Processor.decodeMulti, hsigned, hsize, hop, hmode, ofByte_toByte]
  rfl

/-- References of a width that the field can hold are read one by one. -/
theorem truncated_references (c : MultiComparison) (h : 1 ≤ c.size ∧ c.size ≤ 4) :
    c.truncated.references
      = c.references.map fun r => readReference c.signed (leBytes c.size.toNat r.toUInt64) := by
  have hwrap : wrapSize 0x3 c.size = c.size := (wrapSize_eq_self_iff rfl c.size).2 h
  have hlow : 1 ≤ c.size.toNat := h.1
  have hhigh : c.size.toNat ≤ 4 := h.2
  simp only [truncated, referenceBytes, hwrap]
  rw [chunks_flatMap hlow _ (fun r => by simp [length_leBytes]; omega), List.map_map]
  refine List.map_congr_left fun r _ => ?_
  rw [Function.comp_apply, take_leBytes (by omega)]

end MultiComparison

namespace Combiner

def truncated (c : Combiner) : Combiner :=
  { c with
    output := wrapSize 0x3 c.output
    input := wrapSize 0x3 c.input
    channels := wrapSize 0x3 c.channels }

theorem decode_body (c : Combiner) :
    Processor.decodeCombiner c.body = .ok (.combiner c.truncated) := by
  obtain ⟨output, input, channels, signed, mode⟩ := c
  simp only [body, Processor.decodeCombiner, truncated, wrapSize_three, ofByte_toByte]
  rcases sizeBits_cases output with h | h | h | h <;>
    rcases sizeBits_cases input with h' | h' | h' | h' <;>
      rcases sizeBits_cases channels with h'' | h'' | h'' | h'' <;>
        rw [h, h', h''] <;> cases signed <;> rfl

end Combiner

namespace TimeLimit

def truncated (c : TimeLimit) : TimeLimit := { c with size := wrapSize 0x7 c.size }

theorem head_fields (mode : LimitMode) (n : UInt8) :
    sizeField ((lessOne n &&& (0x7 : UInt8)) ||| (toByte mode <<< 3)) 0 0x7 = wrapSize 0x7 n ∧
      (((lessOne n &&& (0x7 : UInt8)) ||| (toByte mode <<< 3)) >>> 3) &&& 0x7 = toByte mode := by
  revert n
  cases mode <;> exact forall_byte (by decide +kernel)

theorem decode_body (c : TimeLimit) : Processor.decodeTime c.body = .ok (.time c.truncated) := by
  obtain ⟨b0, b1, b2, b3, hbytes, hword⟩ := leBytes_four c.period
  obtain ⟨hsize, hmode⟩ := head_fields c.mode c.size
  simp only [body, hbytes, Processor.decodeTime, hsize, hmode, ofByte_toByte, hword]
  rfl

end TimeLimit

namespace Arithmetic

def truncated (c : Arithmetic) : Arithmetic :=
  { c with
    output := wrapSize 0x3 c.output
    input := wrapSize 0x3 c.input
    channels := c.channels.map fun n => lessOne n + 1 }

theorem head_fields (signed : Bool) (output input : UInt8) :
    sizeField (sizeBits output ||| (sizeBits input <<< 2) ||| flagBits signed 0x10) 0 0x3
        = wrapSize 0x3 output ∧
      sizeField (sizeBits output ||| (sizeBits input <<< 2) ||| flagBits signed 0x10) 2 0x3
        = wrapSize 0x3 input ∧
      hasFlag (sizeBits output ||| (sizeBits input <<< 2) ||| flagBits signed 0x10) 0x10
        = signed := by
  simp only [wrapSize_three]
  rcases sizeBits_cases output with h | h | h | h <;>
    rcases sizeBits_cases input with h' | h' | h' | h' <;>
      rw [h, h'] <;> cases signed <;> exact ⟨rfl, rfl, rfl⟩

theorem decode_body {d : Device} (c : Arithmetic)
    (h : c.channels.isSome → d.multiChannelMath = true) :
    Processor.decodeMath d c.body = .ok (.math c.truncated) := by
  obtain ⟨output, input, signed, op, rhs, channels⟩ := c
  obtain ⟨b0, b1, b2, b3, hbytes, hword⟩ := leBytes_signed rhs
  obtain ⟨houtput, hinput, hsigned⟩ := head_fields signed output input
  cases channels with
  | none =>
    simp only [body, hbytes, List.cons_append, List.nil_append, List.append_nil,
      Processor.decodeMath, houtput, hinput, hsigned, ofByte_toByte, hword]
    cases d.multiChannelMath <;> rfl
  | some n =>
    simp only [body, hbytes, List.cons_append, List.nil_append, Processor.decodeMath, h rfl,
      houtput, hinput, hsigned, ofByte_toByte, hword, widen_lessOne]
    rfl

end Arithmetic

namespace Delay

def truncated (c : Delay) : Delay := { c with size := wrapSize (delayMask c.expanded) c.size }

theorem decode_body {d : Device} (c : Delay) (h : c.expanded = d.expandedDelay) :
    Processor.decodeDelay d c.body = .ok (.delay c.truncated) := by
  obtain ⟨size, samples, expanded⟩ := c
  simp only at h
  subst h
  have hfield (mask : UInt8) : sizeField (lessOne size &&& mask) 0 mask = wrapSize mask size := by
    rw [sizeField, wrapSize, UInt8.shiftRight_zero, UInt8.and_assoc, UInt8.and_self]
  simp only [body, Processor.decodeDelay, truncated]
  cases d.expandedDelay <;> simp [delayMask, hfield]

end Delay

namespace Pulse

def truncated (c : Pulse) : Pulse := { c with size := lessOne c.size + 1 }

theorem decode_body (c : Pulse) : Processor.decodePulse c.body = .ok (.pulse c.truncated) := by
  obtain ⟨t0, t1, t2, t3, hthreshold, hlevel⟩ := leBytes_signed c.threshold
  obtain ⟨w0, w1, hwidth, hsamples⟩ := leBytes_two c.width
  simp only [body, hthreshold, hwidth, List.cons_append, List.nil_append, Processor.decodePulse,
    widen_lessOne, ofByte_toByte, hlevel, hsamples]
  rfl

end Pulse

/-- The head of a detector: a width, a sign and a mode. -/
theorem detector_fields {α : Type} [WireCode α] (signed : Bool) (mode : α) (size : UInt8)
    (hmode : toByte mode = 0 ∨ toByte mode = 1 ∨ toByte mode = 2) :
    sizeField (sizeBits size ||| flagBits signed 0x4 ||| (toByte mode <<< 3)) 0 0x3
        = wrapSize 0x3 size ∧
      hasFlag (sizeBits size ||| flagBits signed 0x4 ||| (toByte mode <<< 3)) 0x4 = signed ∧
      ((sizeBits size ||| flagBits signed 0x4 ||| (toByte mode <<< 3)) >>> 3) &&& 0x7
        = toByte mode := by
  simp only [wrapSize_three]
  rcases sizeBits_cases size with h | h | h | h <;>
    rcases hmode with h' | h' | h' <;>
      rw [h, h'] <;> cases signed <;> exact ⟨rfl, rfl, rfl⟩

namespace Differential

def truncated (c : Differential) : Differential := { c with size := wrapSize 0x3 c.size }

theorem decode_body (c : Differential) :
    Processor.decodeDifferential c.body = .ok (.differential c.truncated) := by
  obtain ⟨b0, b1, b2, b3, hbytes, hword⟩ := leBytes_four c.distance
  obtain ⟨hsize, hsigned, hmode⟩ := detector_fields c.signed c.mode c.size
    (by cases c.mode <;> decide)
  simp only [body, hbytes, Processor.decodeDifferential, hsize, hsigned, hmode, ofByte_toByte,
    hword]
  rfl

end Differential

namespace Threshold

def truncated (c : Threshold) : Threshold := { c with size := wrapSize 0x3 c.size }

theorem decode_body (c : Threshold) :
    Processor.decodeThreshold c.body = .ok (.threshold c.truncated) := by
  obtain ⟨b0, b1, b2, b3, hbytes, hword⟩ := leBytes_signed c.boundary
  obtain ⟨h0, h1, hhysteresis, hband⟩ := leBytes_two c.hysteresis
  obtain ⟨hsize, hsigned, hmode⟩ := detector_fields c.signed c.mode c.size
    (by cases c.mode <;> decide)
  simp only [body, hbytes, hhysteresis, List.cons_append, List.nil_append,
    Processor.decodeThreshold, hsize, hsigned, hmode, ofByte_toByte, hword, hband]
  rfl

end Threshold

namespace Buffer

def truncated (c : Buffer) : Buffer := ⟨wrapSize 0x1f c.size⟩

end Buffer

namespace Packer

def truncated (c : Packer) : Packer := ⟨wrapSize 0x1f c.size, wrapSize 0x1f c.count⟩

end Packer

theorem sizeField_lessOne (n : UInt8) :
    sizeField (lessOne n &&& 0x1f) 0 0x1f = wrapSize 0x1f n := by
  rw [sizeField, UInt8.shiftRight_zero, UInt8.and_assoc, UInt8.and_self, wrapSize]

theorem Buffer.decode_body (c : Buffer) :
    Processor.decodeBuffer c.body = .ok (.buffer c.truncated) := by
  simp only [body, Processor.decodeBuffer, sizeField_lessOne, truncated]

theorem Packer.decode_body (c : Packer) :
    Processor.decodePacker c.body = .ok (.packer c.truncated) := by
  simp only [body, Processor.decodePacker, sizeField_lessOne, truncated]

namespace Accounter

def truncated (c : Accounter) : Accounter := { c with size := wrapSize 0xf c.size }

theorem head_fields (mode : AccountMode) (n : UInt8) :
    (toByte mode ||| (lessOne n <<< 4)) &&& 0xf = toByte mode ∧
      ((toByte mode ||| (lessOne n <<< 4)) >>> 4) + 1 = wrapSize 0xf n := by
  revert n
  cases mode <;> exact forall_byte (by decide +kernel)

theorem decode_body (c : Accounter) :
    Processor.decodeAccounter c.body = .ok (.accounter c.truncated) := by
  obtain ⟨hmode, hsize⟩ := head_fields c.mode c.size
  simp only [body, Processor.decodeAccounter, hmode, hsize, ofByte_toByte]
  rfl

end Accounter

namespace Fuser

theorem decode_body (c : Fuser) (h : c.ids.length ≤ 255) :
    Processor.decodeFuser c.body = .ok (.fuser c) := by
  have hcount : (UInt8.ofNat c.ids.length).toNat = c.ids.length := by
    rw [UInt8.toNat_ofNat']
    omega
  simp [body, Processor.decodeFuser, hcount]

end Fuser

namespace Processor

/-- A configuration with each field cut to the room that its encoding has for it. -/
def truncated : Processor → Processor
  | passthrough c => passthrough c
  | accumulator c => accumulator c.truncated
  | average c => average c.truncated
  | single c => single c.truncated
  | multi c => multi c.truncated
  | combiner c => combiner c.truncated
  | time c => time c.truncated
  | math c => math c.truncated
  | delay c => delay c.truncated
  | pulse c => pulse c.truncated
  | differential c => differential c.truncated
  | threshold c => threshold c.truncated
  | buffer c => buffer c.truncated
  | packer c => packer c.truncated
  | accounter c => accounter c.truncated
  | fuser c => fuser c

/-- Has a configuration the fields that a board reads?  The ids of a fuser are counted in one
byte. -/
def HasLayout (d : Device) : Processor → Prop
  | average c => c.channels.isSome → d.highPass = true
  | single _ => d.multiComparison = false
  | multi _ => d.multiComparison = true
  | math c => c.channels.isSome → d.multiChannelMath = true
  | delay c => c.expanded = d.expandedDelay
  | fuser c => c.ids.length ≤ 255
  | _ => True

/-- **A configuration with the layout of a board comes back truncated.** -/
theorem decode_encode {d : Device} {p : Processor} (h : p.HasLayout d) :
    decode d p.encode = .ok p.truncated := by
  cases p with
  | passthrough c => exact c.decode_body
  | accumulator c => exact c.decode_body
  | average c => exact c.decode_body h
  | single c =>
    show (if d.multiComparison then decodeMulti c.body else decodeSingle c.body) = _
    rw [show d.multiComparison = false from h]
    exact c.decode_body
  | multi c =>
    show (if d.multiComparison then decodeMulti c.body else decodeSingle c.body) = _
    rw [show d.multiComparison = true from h]
    exact c.decode_body
  | combiner c => exact c.decode_body
  | time c => exact c.decode_body
  | math c => exact c.decode_body h
  | delay c => exact c.decode_body h
  | pulse c => exact c.decode_body
  | differential c => exact c.decode_body
  | threshold c => exact c.decode_body
  | buffer c => exact c.decode_body
  | packer c => exact c.decode_body
  | accounter c => exact c.decode_body
  | fuser c => exact c.decode_body h

end Processor
end SignalRoute
