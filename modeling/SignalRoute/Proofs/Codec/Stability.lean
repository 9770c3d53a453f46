import SignalRoute.Proofs.Codec.Canonical
import SignalRoute.Proofs.Outcome

/-!
# Reading leads to configurations that can be written

The bytes that a board sends need not be ones that `Processor.encode` writes: there may be bytes
behind the configuration, bits that no field takes, widths that stand for none and references that
are cut off.  The reader leaves all of it out.

* `canonical_of_decode` says that whatever is read is canonical for the board that it was read
  for, so that `Processor.encode` loses nothing of it.
* `encode_truncated` says that the room of the fields is all that is ever written: a configuration
  and the truncated one have the same bytes.
* `codec_stable` puts these together with `decode_encode`, from both ends.

A field that was read is in range because of how its bits were taken, whatever the bytes are, so
there is one lemma for each way of reading a field and then one line for each kind of processor.

The two directions are not symmetric.  What was read has lost whatever the reader ignores, and loses
nothing more; what is written may lose part of every field, but only once.
-/

set_option autoImplicit false

namespace SignalRoute

/-! ## Bytes and their numbers -/

theorem value_inj {bytes bytes' : Bytes} (hlen : bytes.length = bytes'.length)
    (h : value bytes = value bytes') : bytes = bytes' := by
  induction bytes generalizing bytes' with
  | nil => exact (List.length_eq_zero_iff.1 hlen.symm).symm
  | cons b rest ih =>
    cases bytes' with
    | nil => cases hlen
    | cons b' rest' =>
      have hb := b.toNat_lt
      have hb' := b'.toNat_lt
      simp only [value] at h
      have hbyte : b = b' := UInt8.toNat_inj.1 (by omega)
      rw [hbyte, ih (Nat.succ.inj hlen) (by omega)]

/-- Only the low part of a word is written. -/
theorem leBytes_congr {count : Nat} {word word' : UInt64}
    (h : word.toNat % 256 ^ count = word'.toNat % 256 ^ count) :
    leBytes count word = leBytes count word' := by
  refine value_inj (by rw [length_leBytes, length_leBytes]) ?_
  rw [value_leBytes, value_leBytes, h]

/-- Bytes that were read as a word are written again. -/
theorem leBytes_readUnsigned {bytes : Bytes} (h : bytes.length ≤ 8) :
    leBytes bytes.length (readUnsigned bytes) = bytes := by
  refine value_inj (length_leBytes _ _) ?_
  rw [value_leBytes, toNat_readUnsigned, List.take_of_length_le h]
  exact Nat.mod_eq_of_lt (value_lt bytes)

/-! ## Fields that were read -/

theorem toNat_sizeMask_le {mask : UInt8} (h : isSizeMask mask = true) : mask.toNat ≤ 31 := by
  have hmask : mask = 0x3 ∨ mask = 0x7 ∨ mask = 0xf ∨ mask = 0x1f := by
    simpa [isSizeMask, or_assoc] using h
  rcases hmask with rfl | rfl | rfl | rfl <;> decide

theorem between_sizeField (b shift : UInt8) {mask : UInt8} (h : isSizeMask mask = true) :
    Between 1 (mask + 1) (sizeField b shift mask) := by
  have hmask := toNat_sizeMask_le h
  have hle := UInt8.le_iff_toNat_le.1 (UInt8.and_le_right (a := b >>> shift) (b := mask))
  simp only [Between, sizeField, UInt8.le_iff_toNat_le, UInt8.toNat_add, UInt8.reduceToNat]
  omega

theorem between_highNibble (b : UInt8) : Between 1 16 ((b >>> 4) + 1) := by
  have hb := b.toNat_lt
  simp only [Between, UInt8.le_iff_toNat_le, UInt8.toNat_add, UInt8.toNat_shiftRight,
    Nat.shiftRight_eq_div_pow, UInt8.reduceToNat, Nat.reduceMod, Nat.reducePow]
  omega

theorem between_widen {stored n : UInt8} {what : String} (h : widen stored what = .ok n) :
    Between 1 255 n := by
  unfold widen at h
  split at h
  · cases h
  · rename_i hstored
    cases h
    have hne : stored.toNat ≠ 255 := fun hmax => hstored (UInt8.toNat_inj.1 hmax)
    have hlt := stored.toNat_lt
    simp only [Between, UInt8.le_iff_toNat_le, UInt8.toNat_add, UInt8.reduceToNat]
    omega

theorem length_of_mem_chunks {size : Nat} {bytes chunk : Bytes} (h : chunk ∈ chunks size bytes) :
    chunk.length = size := by
  fun_induction chunks size bytes with
  | case1 bytes hsize ih =>
    rcases List.mem_cons.1 h with rfl | hrest
    · rw [List.length_take]
      omega
    · exact ih hrest
  | case2 => cases h

/-- A reference that was read lies in the range of its bytes. -/
theorem fitsBytes_readReference (signed : Bool) {chunk : Bytes} (h : chunk.length < 8) :
    FitsBytes signed chunk.length (readReference signed chunk).toInt := by
  have hpos : 0 < 256 ^ chunk.length := Nat.pow_pos (by omega)
  have hcast : (256 ^ chunk.length : Int) = ((256 ^ chunk.length : Nat) : Int) := by
    push_cast
    rfl
  have hread := toInt_readReference signed (readUnsigned chunk).toInt64 h
  rw [UInt64.toUInt64_toInt64, leBytes_readUnsigned (Nat.le_of_lt h)] at hread
  rw [hread, FitsBytes, hcast]
  generalize (readUnsigned chunk).toInt64.toInt = n
  generalize 256 ^ chunk.length = m at hpos
  cases signed with
  | true =>
    have hlow := Int.le_bmod (x := n) hpos
    have hhigh := Int.bmod_lt (x := n) hpos
    simp only [if_true]
    omega
  | false =>
    have hlow := Int.emod_nonneg n (b := m) (by omega)
    have hhigh := Int.emod_lt_of_pos n (b := m) (by omega)
    simp only [Bool.false_eq_true, if_false]
    exact ⟨hlow, hhigh⟩

/-! ## Configurations that were read -/

namespace Processor

variable {d : Device} {body : Bytes} {p : Processor}

theorem canonical_of_decodePassthrough (h : decodePassthrough body = .ok p) : p.Canonical d := by
  unfold decodePassthrough at h
  split at h
  · obtain ⟨mode, -, hp⟩ := bind_eq_ok.1 h
    cases hp
    trivial
  · cases h

theorem canonical_of_decodeAccumulator (h : decodeAccumulator body = .ok p) : p.Canonical d := by
  unfold decodeAccumulator at h
  split at h
  · cases h
    exact ⟨between_sizeField _ _ rfl, between_sizeField _ _ rfl⟩
  · cases h

theorem canonical_of_decodeAverage (h : decodeAverage d body = .ok p) : p.Canonical d := by
  unfold decodeAverage at h
  split at h
  · split at h
    · rename_i hd
      cases h
      exact ⟨between_sizeField _ _ rfl, hd, between_sizeField _ _ rfl⟩
    · cases h
      exact ⟨between_sizeField _ _ rfl, rfl⟩
  · cases h

theorem canonical_of_decodeSingle (hd : d.multiComparison = false)
    (h : decodeSingle body = .ok p) : p.Canonical d := by
  unfold decodeSingle at h
  split at h
  · obtain ⟨op, -, hp⟩ := bind_eq_ok.1 h
    cases hp
    exact ⟨hd, fitsBytes_readReference _ (by simp)⟩
  · cases h

theorem canonical_of_decodeMulti (hd : d.multiComparison = true) (h : decodeMulti body = .ok p) :
    p.Canonical d := by
  unfold decodeMulti at h
  split at h
  · rename_i b rest
    obtain ⟨op, -, h⟩ := bind_eq_ok.1 h
    obtain ⟨mode, -, hp⟩ := bind_eq_ok.1 h
    cases hp
    have hsize : Between 1 4 (sizeField b 1 0x3) := between_sizeField b 1 rfl
    refine ⟨hd, hsize, fun r hr => ?_⟩
    obtain ⟨chunk, hchunk, rfl⟩ := List.mem_map.1 hr
    have hlen := length_of_mem_chunks hchunk
    have hlt : chunk.length < 8 := by
      rw [hlen]
      exact Nat.lt_of_le_of_lt hsize.2 (by decide)
    show FitsBytes _ (sizeField b 1 0x3).toNat _
    rw [← hlen]
    exact fitsBytes_readReference _ hlt
  · cases h

theorem canonical_of_decodeCombiner (h : decodeCombiner body = .ok p) : p.Canonical d := by
  unfold decodeCombiner at h
  split at h
  · obtain ⟨mode, -, hp⟩ := bind_eq_ok.1 h
    cases hp
    exact ⟨between_sizeField _ _ rfl, between_sizeField _ _ rfl, between_sizeField _ _ rfl⟩
  · cases h

theorem canonical_of_decodeTime (h : decodeTime body = .ok p) : p.Canonical d := by
  unfold decodeTime at h
  split at h
  · obtain ⟨mode, -, hp⟩ := bind_eq_ok.1 h
    cases hp
    exact between_sizeField _ _ rfl
  · cases h

theorem canonical_of_decodeMath (h : decodeMath d body = .ok p) : p.Canonical d := by
  unfold decodeMath at h
  split at h
  · dsimp only at h
    split at h
    · rename_i stored _ hd
      obtain ⟨channels, hchannels, h⟩ := bind_eq_ok.1 h
      obtain ⟨op, -, hp⟩ := bind_eq_ok.1 h
      cases hp
      refine ⟨between_sizeField _ _ rfl, between_sizeField _ _ rfl, ?_⟩
      rintro n rfl
      cases hwiden : widen stored "math channel count" with
      | error fault =>
        rw [hwiden] at hchannels
        cases hchannels
      | ok m =>
        rw [hwiden] at hchannels
        cases hchannels
        exact ⟨hd, between_widen hwiden⟩
    · obtain ⟨channels, hchannels, h⟩ := bind_eq_ok.1 h
      obtain ⟨op, -, hp⟩ := bind_eq_ok.1 h
      cases hchannels
      cases hp
      exact ⟨between_sizeField _ _ rfl, between_sizeField _ _ rfl, fun n hn => nomatch hn⟩
  · cases h

theorem canonical_of_decodeDelay (h : decodeDelay d body = .ok p) : p.Canonical d := by
  unfold decodeDelay at h
  split at h
  · cases h
    refine ⟨rfl, ?_⟩
    dsimp only
    cases d.expandedDelay <;> exact between_sizeField _ _ rfl
  · cases h

theorem canonical_of_decodePulse (h : decodePulse body = .ok p) : p.Canonical d := by
  unfold decodePulse at h
  split at h
  · obtain ⟨size, hsize, h⟩ := bind_eq_ok.1 h
    obtain ⟨mode, -, hp⟩ := bind_eq_ok.1 h
    cases hp
    exact between_widen hsize
  · cases h

theorem canonical_of_decodeDifferential (h : decodeDifferential body = .ok p) :
    p.Canonical d := by
  unfold decodeDifferential at h
  split at h
  · obtain ⟨mode, -, hp⟩ := bind_eq_ok.1 h
    cases hp
    exact between_sizeField _ _ rfl
  · cases h

theorem canonical_of_decodeThreshold (h : decodeThreshold body = .ok p) : p.Canonical d := by
  unfold decodeThreshold at h
  split at h
  · obtain ⟨mode, -, hp⟩ := bind_eq_ok.1 h
    cases hp
    exact between_sizeField _ _ rfl
  · cases h

theorem canonical_of_decodeBuffer (h : decodeBuffer body = .ok p) : p.Canonical d := by
  unfold decodeBuffer at h
  split at h
  · cases h
    exact between_sizeField _ _ rfl
  · cases h

theorem canonical_of_decodePacker (h : decodePacker body = .ok p) : p.Canonical d := by
  unfold decodePacker at h
  split at h
  · cases h
    exact ⟨between_sizeField _ _ rfl, between_sizeField _ _ rfl⟩
  · cases h

theorem canonical_of_decodeAccounter (h : decodeAccounter body = .ok p) : p.Canonical d := by
  unfold decodeAccounter at h
  split at h
  · obtain ⟨mode, -, hp⟩ := bind_eq_ok.1 h
    cases hp
    exact between_highNibble _
  · cases h

theorem canonical_of_decodeFuser (h : decodeFuser body = .ok p) : p.Canonical d := by
  unfold decodeFuser at h
  split at h
  · rename_i count rest
    split at h
    · cases h
      have hcount := count.toNat_lt
      show (rest.take count.toNat).length ≤ 255
      rw [List.length_take]
      omega
    · cases h
  · cases h

/-- **Whatever bytes are read, the board carries the configuration.** -/
theorem canonical_of_decode {bytes : Bytes} (h : decode d bytes = .ok p) : p.Canonical d := by
  unfold decode at h
  split at h
  · cases h
  · split at h
    · exact canonical_of_decodePassthrough h
    · exact canonical_of_decodeAccumulator h
    · exact canonical_of_decodeAverage h
    · split at h
      · exact canonical_of_decodeMulti ‹_› h
      · exact canonical_of_decodeSingle (Bool.eq_false_iff.2 ‹_›) h
    · exact canonical_of_decodeCombiner h
    · exact canonical_of_decodeTime h
    · exact canonical_of_decodeMath h
    · exact canonical_of_decodeDelay h
    · exact canonical_of_decodePulse h
    · exact canonical_of_decodeDifferential h
    · exact canonical_of_decodeThreshold h
    · exact canonical_of_decodeBuffer h
    · exact canonical_of_decodePacker h
    · exact canonical_of_decodeAccounter h
    · exact canonical_of_decodeFuser h
    · cases h

end Processor

/-! ## What is written of a field

Writing looks at the same bits that truncating keeps, so the bytes of a configuration do not change
when it is truncated first.  The exception are references, whose number of bytes depends on a width:
a width that its field cannot hold changes how long they are (`Processor.HasNarrowReferences`).
-/

theorem lessOne_wrapSize {mask : UInt8} (h : isSizeMask mask = true) (n : UInt8) :
    lessOne (wrapSize mask n) = lessOne n &&& mask := by
  refine lessOne_add_one fun hmax => ?_
  have hmask := toNat_sizeMask_le h
  have hle := UInt8.le_iff_toNat_le.1 (UInt8.and_le_right (a := lessOne n) (b := mask))
  rw [hmax] at hle
  simp only [UInt8.reduceToNat] at hle
  omega

theorem lessOne_wrapSize_and (mask : UInt8) (h : isSizeMask mask = true) (n : UInt8) :
    lessOne (wrapSize mask n) &&& mask = lessOne n &&& mask := by
  rw [lessOne_wrapSize h, UInt8.and_assoc, UInt8.and_self]

theorem sizeBits_wrapSize (n : UInt8) : sizeBits (wrapSize 0x3 n) = sizeBits n :=
  lessOne_wrapSize_and 0x3 rfl n

theorem lessOne_lessOne_add_one (n : UInt8) : lessOne (lessOne n + 1) = lessOne n :=
  lessOne_add_one (lessOne_ne_max n)

/-- The upper half of a byte has no room for the upper half of a width. -/
theorem lessOne_wrapSize_shiftLeft (n : UInt8) :
    lessOne (wrapSize 0xf n) <<< (4 : UInt8) = lessOne n <<< (4 : UInt8) := by
  rw [lessOne_wrapSize rfl]
  generalize lessOne n = b
  revert b
  exact forall_byte (by decide +kernel)

/-- A reference is written as it would be after it was read. -/
theorem leBytes_readReference (signed : Bool) (n : Int64) {count : Nat} (h : count < 8) :
    leBytes count (readReference signed (leBytes count n.toUInt64)).toUInt64
      = leBytes count n.toUInt64 := by
  refine leBytes_congr (Int.natCast_inj.1 ?_)
  have hcast : (256 ^ count : Int) = ((256 ^ count : Nat) : Int) := by push_cast; rfl
  rw [toNat_toUInt64_emod _ (by omega), toNat_toUInt64_emod _ (by omega),
    toInt_readReference signed n h]
  cases signed with
  | true => rw [if_pos rfl, hcast, Int.bmod_emod]
  | false => rw [if_neg Bool.false_ne_true, Int.emod_emod]

namespace MultiComparison

theorem referenceBytes_truncated {c : MultiComparison} (h : c.size ≤ 4) :
    c.truncated.referenceBytes = c.referenceBytes := by
  by_cases hzero : c.size = 0
  · have hnone : c.referenceBytes = [] := by simp [referenceBytes, hzero]
    have hempty : c.truncated.references = [] := by
      simp [truncated, hnone, hzero, chunks_of_lt, wrapSize, lessOne]
    rw [hnone, referenceBytes, hempty, List.flatMap_nil]
  · have hlow : 1 ≤ c.size.toNat := Nat.pos_of_ne_zero fun h0 => hzero (UInt8.toNat_inj.1 h0)
    have hhigh : c.size.toNat ≤ 4 := h
    have hwidth : c.truncated.size = c.size := (wrapSize_eq_self_iff rfl c.size).2 ⟨hlow, h⟩
    rw [referenceBytes, c.truncated_references ⟨hlow, h⟩, hwidth, List.flatMap_map, referenceBytes]
    refine List.flatMap_congr fun r _ => ?_
    rw [take_leBytes (by omega), take_leBytes (by omega), leBytes_readReference _ _ (by omega)]

theorem body_truncated {c : MultiComparison} (h : c.size ≤ 4) : c.truncated.body = c.body := by
  have hhead : c.truncated.head = c.head := by
    simp only [head, truncated, sizeBits_wrapSize]
  show c.truncated.head :: c.truncated.referenceBytes = c.head :: c.referenceBytes
  rw [hhead, referenceBytes_truncated h]

end MultiComparison

namespace Processor

/-- Are the references of a comparison no wider than its field for widths can say? -/
def HasNarrowReferences : Processor → Prop
  | multi c => c.size ≤ 4
  | _ => True

/-- **A configuration is written as it would be after it was read.** -/
theorem encode_truncated {p : Processor} (h : p.HasNarrowReferences) :
    p.truncated.encode = p.encode := by
  cases p with
  | multi c => exact congrArg (List.cons _) (MultiComparison.body_truncated h)
  | single c =>
    simp only [truncated, encode, body, tag, SingleComparison.truncated, SingleComparison.body,
      leBytes_readReference _ _ (show 4 < 8 by omega)]
  | average c =>
    obtain ⟨size, samples, highPass, channels⟩ := c
    cases channels with
    | none => simp [truncated, encode, body, tag, Average.truncated, Average.body,
        sizeBits_wrapSize]
    | some n =>
      simp [truncated, encode, body, tag, Average.truncated, Average.body, sizeBits_wrapSize,
        lessOne_wrapSize_and 0x7 rfl]
  | math c =>
    obtain ⟨output, input, signed, op, rhs, channels⟩ := c
    cases channels <;>
      simp [truncated, encode, body, tag, Arithmetic.truncated, Arithmetic.body,
        sizeBits_wrapSize, lessOne_lessOne_add_one]
  | delay c =>
    obtain ⟨size, samples, expanded⟩ := c
    cases expanded <;>
      simp [truncated, encode, body, tag, Delay.truncated, Delay.body, delayMask,
        lessOne_wrapSize_and 0x3 rfl, lessOne_wrapSize_and 0xf rfl]
  | _ =>
    simp only [truncated, encode, body, tag, Accumulator.truncated, Accumulator.body,
      Combiner.truncated, Combiner.body, TimeLimit.truncated, TimeLimit.body, Pulse.truncated,
      Pulse.body, Differential.truncated, Differential.body, Threshold.truncated, Threshold.body,
      Buffer.truncated, Buffer.body, Packer.truncated, Packer.body, Accounter.truncated,
      Accounter.body, sizeBits_wrapSize, lessOne_lessOne_add_one, lessOne_wrapSize_shiftLeft,
      lessOne_wrapSize_and 0x7 rfl, lessOne_wrapSize_and 0x1f rfl]

theorem HasNarrowReferences.fits {p : Processor} (h : p.HasNarrowReferences) : p.fits = true := by
  cases p with
  | multi c =>
    have hsize : c.size ≤ 8 := Nat.le_trans (m := 4) h (by decide)
    simp [Processor.fits, MultiComparison.fits, hsize]
  | _ => rfl

theorem Canonical.hasNarrowReferences {d : Device} {p : Processor} (h : p.Canonical d) :
    p.HasNarrowReferences := by
  cases p with
  | multi c => exact h.2.1.2
  | _ => trivial

/-- What is canonical can be written, and is read as it was. -/
theorem Canonical.decode_payload {d : Device} {p : Processor} (h : p.Canonical d) :
    p.payload >>= decode d = .ok p := by
  obtain ⟨hlayout, htruncated⟩ := canonical_iff.1 h
  rw [payload_eq_ok h.hasNarrowReferences.fits]
  exact (decode_encode hlayout).trans (by rw [htruncated])

/-- **The codec is stable from both ends.**  What a board sends is read as a configuration that is
written and read again without loss, and a configuration with the layout of the board, however
large its fields, is read again as one that is written with the same bytes. -/
theorem codec_stable (d : Device) :
    (∀ (bytes : Bytes) (p : Processor), decode d bytes = .ok p → p.payload >>= decode d = .ok p) ∧
    ∀ p : Processor, p.HasLayout d → p.HasNarrowReferences →
      ∃ q, p.payload >>= decode d = .ok q ∧ q.payload = p.payload := by
  refine ⟨fun bytes p h => (canonical_of_decode h).decode_payload, fun p hlayout hnarrow => ?_⟩
  have hread : p.payload >>= decode d = .ok p.truncated := by
    rw [payload_eq_ok hnarrow.fits]
    exact decode_encode hlayout
  -- the truncated configuration is one that was read, so it can be written too
  have hcanonical : p.truncated.Canonical d := canonical_of_decode (decode_encode hlayout)
  refine ⟨p.truncated, hread, ?_⟩
  rw [payload_eq_ok hnarrow.fits, payload_eq_ok hcanonical.hasNarrowReferences.fits,
    encode_truncated hnarrow]

/-- An average with set bits that no field takes and a byte behind it, and a limiter of a width that
its field cannot hold. -/
theorem codec_stable_spareBits :
    (decode .standard [0x03, 0xf1, 0x08, 0xff, 0x00] = .ok (average ⟨2, 8, true, some 8⟩) ∧
      (average ⟨2, 8, true, some 8⟩).payload = .ok [0x03, 0x05, 0x08, 0x0f] ∧
      (average ⟨2, 8, true, some 8⟩).payload >>= decode .standard
        = .ok (average ⟨2, 8, true, some 8⟩)) ∧
    ∃ q, (time ⟨9, .absolute, 5⟩).payload >>= decode .standard = .ok q ∧
      q.payload = (time ⟨9, .absolute, 5⟩).payload :=
  ⟨⟨rfl, rfl, (codec_stable .standard).1 [0x03, 0xf1, 0x08, 0xff, 0x00] _ rfl⟩,
    (codec_stable .standard).2 _ trivial trivial⟩

end Processor
end SignalRoute
