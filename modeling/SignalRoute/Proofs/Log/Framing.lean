import SignalRoute.Log.Reconcile
import SignalRoute.Proofs.Codec.Field
import SignalRoute.Proofs.Outcome

/-!
# Records and counters on the wire

What the board writes into its frames is what the host reads out of them.

* `LogRecord.parse_toBytes`: a record is read as it was sent, except that ids of loggers have five
  bits on the wire and those of resets three (`LogRecord.wire`).
* `LogRecord.cut_flatMap`: records that were sent behind each other are cut apart again.
* `Reconciler.readCounter_counterBytes`: a counter is read modulo the range of its bytes.
* `Signal.decodeAll_ne_overrun`: decoding what was logged fails only for want of bytes.

The last one is needed because a fault of one record stops a download only if it is an overrun: it
says that of all that can go wrong with a record this is a matter of its time alone.
-/

set_option autoImplicit false

namespace SignalRoute

/-! ## Records

A record has nine bytes, of which the first holds two numbers.  Both are cut to their bits by
writing, so what is read is a record of its own (`LogRecord.wire`).
-/

namespace LogRecord

/-- The record that is read where this one was sent. -/
def wire (r : LogRecord) : LogRecord :=
  { r with logId := r.logId &&& 0x1f, reset := r.reset &&& 0x7 }

/-- The data of a record fills a log entry. -/
def Full (r : LogRecord) : Prop := r.data.length = logEntrySize

/-- A record of a logger and a reset that a board can have. -/
structure Fits (r : LogRecord) : Prop where
  full : r.Full
  logId : r.logId.toNat < 32
  reset : r.reset.toNat < 8

variable {r : LogRecord}

instance : Decidable r.Fits :=
  decidable_of_iff (r.data.length = logEntrySize ∧ r.logId.toNat < 32 ∧ r.reset.toNat < 8)
    ⟨fun h => ⟨h.1, h.2.1, h.2.2⟩, fun h => ⟨h.full, h.logId, h.reset⟩⟩

theorem Fits.wire_eq (h : r.Fits) : r.wire = r := by
  have hid : r.logId &&& 0x1f = r.logId := by
    have := h.logId
    generalize r.logId = id at this
    revert id
    exact forall_byte (by decide +kernel)
  have hreset : r.reset &&& 0x7 = r.reset := by
    have := h.reset
    generalize r.reset = reset at this
    revert reset
    exact forall_byte (by decide +kernel)
  rw [wire, hid, hreset]

/-- The first byte of a record holds the ids of its reset and of its logger. -/
theorem head_toBytes (reset id : UInt8) :
    ((reset <<< 5) ||| (id &&& 0x1f)) &&& 0x1f = id &&& 0x1f ∧
      (((reset <<< 5) ||| (id &&& 0x1f)) >>> 5) &&& 0x7 = reset &&& 0x7 := by
  have hlow (n : UInt8) : (n <<< 5) &&& 0x1f = 0 := by
    revert n
    exact forall_byte (by decide +kernel)
  have hhigh (n : UInt8) : ((n <<< 5) >>> 5) &&& 0x7 = n &&& 0x7 := by
    revert n
    exact forall_byte (by decide +kernel)
  have hgone (n : UInt8) : (n &&& 0x1f) >>> 5 = 0 := by
    revert n
    exact forall_byte (by decide +kernel)
  constructor
  · have hsplit (x y z : UInt8) : (x ||| y) &&& z = (x &&& z) ||| (y &&& z) := by
      rw [← UInt8.toBitVec_inj]
      ext i
      simp [Bool.and_or_distrib_right]
    rw [hsplit, hlow, UInt8.zero_or, UInt8.and_assoc]
    rfl
  · rw [UInt8.shiftRight_or, hgone, UInt8.or_zero, hhigh]

theorem exists_data (h : r.Full) : ∃ d0 d1 d2 d3, r.data = [d0, d1, d2, d3] := by
  obtain ⟨logId, reset, tick, data⟩ := r
  match data, h with
  | [d0, d1, d2, d3], _ => exact ⟨d0, d1, d2, d3, rfl⟩

theorem length_toBytes (h : r.Full) : r.toBytes.length = size := by
  rw [toBytes, List.length_cons, List.length_append, length_leBytes, h]
  rfl

theorem parse_toBytes (h : r.Full) : parse r.toBytes = .ok r.wire := by
  obtain ⟨d0, d1, d2, d3, hdata⟩ := exists_data h
  obtain ⟨t0, t1, t2, t3, hbytes, htick⟩ := leBytes_four r.tick
  obtain ⟨hid, hreset⟩ := head_toBytes r.reset r.logId
  rw [toBytes, hbytes, hdata]
  simp only [List.cons_append, List.nil_append, parse, hid, hreset, htick, wire, hdata]

theorem cut_append {first rest : Bytes} (h : first.length = size) :
    cut (first ++ rest) = first :: cut rest := by
  cases first with
  | nil => cases h
  | cons b bs =>
    rw [List.cons_append, cut, ← List.cons_append, List.take_left' h, List.drop_left' h]

/-- Records that were sent behind each other are cut apart again. -/
theorem cut_flatMap {records : List LogRecord} (h : ∀ r ∈ records, r.Full) :
    cut (records.flatMap toBytes) = records.map toBytes := by
  induction records with
  | nil => rw [List.flatMap_nil, cut, List.map_nil]
  | cons r rest ih =>
    rw [List.flatMap_cons, cut_append (length_toBytes (h r List.mem_cons_self)),
      ih fun r hr => h r (List.mem_cons_of_mem _ hr), List.map_cons]

end LogRecord

/-! ## Counters

On boards with counters of two bytes a log of more entries than that is counted modulo 65536.  What
the host is told is then `Device.counted`, and so much is all that it asks for.
-/

/-- What a counter of the logging module says when there are `n` entries. -/
def Device.counted (d : Device) (n : Nat) : Nat := n % 256 ^ Reconciler.counterWidth d

theorem Device.counted_le (d : Device) (n : Nat) : d.counted n ≤ n := Nat.mod_le _ _

theorem Device.counted_lt (d : Device) (n : Nat) : d.counted n < 2 ^ 32 := by
  have hpos : 0 < 256 ^ Reconciler.counterWidth d := Nat.pow_pos (by omega)
  refine Nat.lt_of_lt_of_le (Nat.mod_lt n hpos) ?_
  rw [Reconciler.counterWidth]
  split <;> decide

/-- What fits the counter is told as it is. -/
theorem Device.counted_of_lt {d : Device} {n : Nat} (h : n < 256 ^ Reconciler.counterWidth d) :
    d.counted n = n := Nat.mod_eq_of_lt h

theorem Reconciler.readCounter_counterBytes (d : Device) (n : Nat) :
    readCounter d (SimulatedBoard.counterBytes d n) = .ok (UInt32.ofNat (d.counted n)) := by
  have hwidth : SimulatedBoard.counterBytes d n = leBytes (counterWidth d) (UInt64.ofNat n) := rfl
  have hle : counterWidth d ≤ 4 := by
    rw [counterWidth]
    split <;> omega
  have hdvd : 256 ^ counterWidth d ∣ 2 ^ 64 := by
    rw [show (2 : Nat) ^ 64 = 256 ^ 8 from rfl]
    exact pow_dvd_pow 256 (by omega)
  have hlength : (leBytes (counterWidth d) (UInt64.ofNat n)).length = counterWidth d :=
    length_leBytes _ _
  have hread : (readUnsigned (leBytes (counterWidth d) (UInt64.ofNat n))).toNat = d.counted n := by
    rw [toNat_readUnsigned_leBytes (by omega), UInt64.toNat_ofNat', Nat.mod_mod_of_dvd _ hdvd,
      Device.counted]
  rw [hwidth, readCounter, if_pos (Nat.le_of_eq hlength.symm),
    List.take_of_length_le (Nat.le_of_eq hlength)]
  congr 1
  rw [← UInt32.toNat_inj, UInt64.toNat_toUInt32, hread, UInt32.toNat_ofNat']

/-! ## Decoding

Among the faults of a record, an overrun is that of the calendar.  That decoding never ends in one
is proved along its recursion, with a lemma for each way of putting readings together.
-/

namespace Signal

/-- A payload is decoded, or it ends too early. -/
def Cautious {α : Type} (outcome : Except Fault α) : Prop :=
  ∀ fault, outcome = .error fault → ∃ expected actual, fault = .shortPayload expected actual

theorem Cautious.ok {α : Type} (a : α) : Cautious (.ok a) := by
  intro fault h
  cases h

theorem Cautious.bind {α β : Type} {x : Except Fault α} {f : α → Except Fault β} (hx : Cautious x)
    (hf : ∀ a, Cautious (f a)) : Cautious (x >>= f) := by
  cases x with
  | error fault => exact fun fault' h => hx fault' (by cases h; rfl)
  | ok a => exact hf a

theorem cautious_extract (shape : Shape) (raw : Bytes) : Cautious (extract shape raw) := by
  rw [extract]
  intro fault h
  split at h
  · cases h
  · cases h
    exact ⟨_, _, rfl⟩

mutual

theorem cautious_decode (raw : Bytes) : ∀ s : Signal, Cautious (decode raw s)
  | ⟨_, shape, kind, _, _, parts, _⟩ => by
    rw [decode]
    split
    · exact .ok _
    · refine (cautious_extract shape raw).bind fun bytes => ?_
      cases kind with
      | integer =>
        dsimp only
        split
        · split <;> exact .ok _
        · exact .ok _
      | float | vector | bytes => exact .ok _
      | fused => exact (cautious_decodeParts raw parts).bind fun _ => .ok _
      | accounted =>
        match parts with
        | [] | [_] => exact .ok _
        | lead :: inner :: _ =>
          exact ((cautious_extract lead.shape raw).bind fun _ => .ok _).bind fun _ =>
            (cautious_decode raw inner).bind fun _ => .ok _

theorem cautious_decodeParts (raw : Bytes) : ∀ parts, Cautious (decodeParts raw parts)
  | [] => .ok _
  | s :: rest =>
    (cautious_decode raw s).bind fun _ => (cautious_decodeParts raw rest).bind fun _ => .ok _

end

theorem cautious_decodeAll (s : Signal) (raw : Bytes) : Cautious (s.decodeAll raw) := by
  rw [decodeAll]
  split
  · exact (cautious_decode raw s).bind fun _ => .ok _
  · induction List.range s.shape.copies.toNat with
    | nil => exact .ok _
    | cons i rest ih =>
      rw [List.mapM_cons]
      exact (cautious_decode raw _).bind fun _ => ih.bind fun _ => .ok _

theorem decodeAll_ne_overrun (s : Signal) (raw : Bytes) : s.decodeAll raw ≠ .error .overrun := by
  intro h
  obtain ⟨expected, actual, heq⟩ := cautious_decodeAll s raw _ h
  cases heq

end Signal
end SignalRoute
