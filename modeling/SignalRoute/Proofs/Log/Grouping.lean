import SignalRoute.Proofs.Log.Survey
import SignalRoute.Proofs.Signal.Layout

/-!
# From chunks back to ranges

A signal is logged in chunks of four bytes, each by a logger of its own.  The loggers of a tame
signal have byte ranges that come back as they were sent, and `groupLoggers` joins them to the one
range that the signal fills (`groupLoggers_chunks`).

The induction is on the chunks, with a range that has been joined up to where they start.  That this
is a multiple of four is what makes the next chunk go on where the range ends.

A range and a signal that fills it do not look alike: the range is what a survey sees, byte ranges
and ids, and the signal is what it has to come up with.  From here on the survey has the address and
the width of the signal to go by.
-/

set_option autoImplicit false

namespace SignalRoute

variable {length fuel start : Nat}

/-! ## Chunks -/

theorem mem_logChunks {chunk : UInt8 × UInt8} (h : chunk ∈ logChunks fuel start length) :
    ∃ k, k < length ∧ chunk = (UInt8.ofNat k, UInt8.ofNat (min (length - k) logEntrySize)) := by
  induction fuel generalizing start with
  | zero => cases h
  | succ fuel ih =>
    rw [logChunks] at h
    split at h
    · rename_i hlt
      rcases List.mem_cons.1 h with rfl | h
      · exact ⟨start, hlt, rfl⟩
      · exact ih h
    · cases h

/-- Chunks of a tame signal have byte ranges that come back. -/
theorem Signal.namesChunk_of_mem {s : Signal} (h : s.shape.Tame) {chunk : UInt8 × UInt8}
    (hc : chunk ∈ s.logChunks) : s.NamesChunk chunk := by
  obtain ⟨k, hk, rfl⟩ := mem_logChunks hc
  have hfits := h.fits
  rw [h.toNat_unitLength] at hk ⊢
  have hwidth : (UInt8.ofNat (min (s.shape.bytes - k) logEntrySize)).toNat =
      min (s.shape.bytes - k) logEntrySize := by
    rw [UInt8.toNat_ofNat', logEntrySize, Nat.mod_eq_of_lt (by omega)]
  have hoffset : (s.shape.offset + UInt8.ofNat k).toNat = s.shape.offset.toNat + k := by
    rw [UInt8.toNat_add, UInt8.toNat_ofNat', Nat.mod_eq_of_lt (a := k) (by omega),
      Nat.mod_eq_of_lt (by omega)]
  refine unpackRange_packRange ?_ ?_ ?_
  · rw [hwidth, logEntrySize]
    omega
  · rw [hwidth, logEntrySize]
    omega
  · rw [hoffset]
    omega

/-! ## Joining -/

/-- A chunk that starts where the range ends is joined to it. -/
theorem LoggedRange.continuedBy_chunk {s : Signal} {ids : List UInt8} {id width : UInt8}
    (hstart : start % logEntrySize = 0) (hlt : start < 256) :
    (⟨s.address, s.shape.offset, UInt8.ofNat start, ids⟩ : LoggedRange).continuedBy
      (s.loggerSource id (UInt8.ofNat start, width)) = true := by
  have hsmall : (UInt8.ofNat start).toNat = start := by
    rw [UInt8.toNat_ofNat', Nat.mod_eq_of_lt hlt]
  simp only [continuedBy, Signal.loggerSource, hsmall, hstart, beq_self_eq_true, Bool.and_self]

theorem groupFrom_chunks (s : Signal) (hlength : length < 256)
    (hstart : start % logEntrySize = 0) (hfuel : length ≤ start + fuel) {ids : List UInt8}
    {pairs : List (UInt8 × UInt8 × UInt8)}
    (hpairs : pairs.map Prod.snd = logChunks fuel start length) :
    groupFrom ⟨s.address, s.shape.offset, UInt8.ofNat (min start length), ids⟩
        (pairs.map fun e => s.loggerSource e.1 e.2)
      = [⟨s.address, s.shape.offset, UInt8.ofNat length, ids ++ pairs.map Prod.fst⟩] := by
  induction fuel generalizing start ids pairs with
  | zero =>
    have hstop : min start length = length := min_eq_right hfuel
    rw [List.map_eq_nil_iff.1 hpairs, hstop, List.map_nil, List.map_nil, List.append_nil]
    rfl
  | succ fuel ih =>
    rw [logChunks] at hpairs
    split at hpairs
    · rename_i hlt
      obtain ⟨⟨id, chunk⟩, rest, rfl, rfl, hrest⟩ := List.map_eq_cons_iff.1 hpairs
      have hsum : start + min (length - start) logEntrySize =
          min (start + logEntrySize) length := by omega
      have hnext : (start + logEntrySize) % logEntrySize = 0 := by
        rw [Nat.add_mod_right, hstart]
      have hfuel' : length ≤ start + logEntrySize + fuel := by
        rw [logEntrySize]
        omega
      rw [List.map_cons, groupFrom, min_eq_left hlt.le,
        if_pos (LoggedRange.continuedBy_chunk hstart (hlt.trans hlength))]
      show groupFrom ⟨s.address, s.shape.offset, UInt8.ofNat start +
        UInt8.ofNat (min (length - start) logEntrySize), ids ++ [id]⟩ _ = _
      rw [← UInt8.ofNat_add, hsum, ih hnext hfuel' hrest, List.append_assoc]
      rfl
    · rename_i hge
      rw [List.map_eq_nil_iff.1 hpairs, min_eq_right (Nat.le_of_not_lt hge), List.map_nil,
        List.map_nil, List.append_nil]
      rfl

/-- **The loggers of a signal form the range that it fills.** -/
theorem groupLoggers_chunks {s : Signal} (hs : 0 < s.shape.unitLength.toNat)
    {pairs : List (UInt8 × UInt8 × UInt8)} (hpairs : pairs.map Prod.snd = s.logChunks) :
    groupLoggers (pairs.map fun e => s.loggerSource e.1 e.2)
      = [⟨s.address, s.shape.offset, s.shape.unitLength, pairs.map Prod.fst⟩] := by
  have hlength := s.shape.unitLength.toNat_lt
  rw [Signal.logChunks] at hpairs
  obtain ⟨n, hn⟩ := Nat.exists_eq_succ_of_ne_zero (Nat.ne_of_gt hs)
  rw [hn] at hpairs hlength
  rw [logChunks, if_pos n.succ_pos] at hpairs
  obtain ⟨⟨id, chunk⟩, rest, rfl, rfl, hrest⟩ := List.map_eq_cons_iff.1 hpairs
  have hfuel : n.succ ≤ 0 + logEntrySize + n := by
    rw [logEntrySize]
    omega
  have hgroup : groupFrom ⟨s.address, s.shape.offset, UInt8.ofNat (min logEntrySize n.succ), [id]⟩
      (rest.map fun e => s.loggerSource e.1 e.2)
        = [⟨s.address, s.shape.offset, UInt8.ofNat n.succ, id :: rest.map Prod.fst⟩] :=
    groupFrom_chunks s hlength rfl hfuel hrest
  rw [List.map_cons, groupLoggers]
  show groupFrom ⟨s.address, s.shape.offset + 0, UInt8.ofNat (min n.succ logEntrySize), [id]⟩ _ = _
  rw [UInt8.add_zero, min_comm, hgroup, ← hn, UInt8.ofNat_toNat]
  rfl

end SignalRoute
