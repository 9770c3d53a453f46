import SignalRoute.Proofs.Signal.Enclosing
import SignalRoute.Proofs.Signal.Moving

/-!
# Which payloads can be read

A signal that encloses its parts can be read from every payload that reaches to its end: what its
parts need is there then, since they lie within it.  A shorter payload is a fault that tells
both lengths, and nothing else is.  `Signal.Encloses.decodeAll_isOk_iff` says so of all packed
samples, which end with the last one.

Which bytes are looked at depends on the kind.  Numbers and vectors are read from the bytes of the
signal; fused signals from those of their parts, after the bytes of the whole were asked for;
accounted ones from a lead and what lies behind it.  So the longest reach of all of them is what
matters, and if parts are enclosed then this is the signal's own end (`Shape.stop`).  Without that,
a part could ask for bytes that the whole does not have.

The exact condition has two sides because of signals without data, as the output of a buffer.  They
are read from anything, the empty payload too.
-/

set_option autoImplicit false

namespace SignalRoute

/-- Where the first sample ends. -/
def Shape.stop (s : Shape) : Nat := s.offset.toNat + s.length.toNat

/-- Where the last sample ends.  There is at least one. -/
def Shape.reach (s : Shape) : Nat := s.offset.toNat + s.length.toNat * max s.copies.toNat 1

namespace Signal

variable {raw : Bytes} {s t : Signal} {good : Shape → Prop}

/-! ## One sample

The bytes of the whole are asked for before those of the parts, so a payload that is too short is
told by the length of the whole, whichever part is missing.
-/

theorem extract_error {shape : Shape} (h : raw.length < shape.stop) :
    extract shape raw = .error (.shortPayload shape.stop raw.length) := by
  rw [extract, slice?, if_neg fun hfits => Nat.not_le.2 h hfits.2]
  rfl

/-- A payload that ends before the sample does. -/
theorem decode_error (hdata : s.shape.isEmpty = false) (h : raw.length < s.shape.stop) :
    decode raw s = .error (.shortPayload s.shape.stop raw.length) := by
  obtain ⟨address, shape, kind, p, input, parts, index⟩ := s
  dsimp only at hdata h
  rw [decode, if_neg (Bool.eq_false_iff.1 hdata), extract_error h]
  rfl

theorem exists_decodeParts {parts : List Signal} (h : ∀ t ∈ parts, ∃ r, decode raw t = .ok r) :
    ∃ rs, decodeParts raw parts = .ok rs := by
  induction parts with
  | nil => exact ⟨[], rfl⟩
  | cons t rest ih =>
    obtain ⟨r, hr⟩ := h t List.mem_cons_self
    obtain ⟨rs, hrs⟩ := ih fun u hu => h u (List.mem_cons_of_mem _ hu)
    rw [decodeParts, hr, hrs]
    exact ⟨r :: rs, rfl⟩

/-- A sample can be read if its bytes are there and its parts can be read. -/
theorem exists_decode_of_parts (hstop : s.shape.stop ≤ raw.length)
    (hparts : ∀ t ∈ s.parts, t.shape.stop ≤ raw.length ∧ ∃ r, decode raw t = .ok r) :
    ∃ r, decode raw s = .ok r := by
  by_cases hdata : s.shape.isEmpty = true
  · exact ⟨.empty, decode_empty hdata⟩
  cases hkind : s.kind with
  | fused =>
    obtain ⟨rs, hrs⟩ := exists_decodeParts fun t ht => (hparts t ht).2
    rw [decode_fused hkind hdata, extract_eq _ hstop, hrs]
    exact ⟨.fused rs, rfl⟩
  | accounted =>
    rw [decode_accounted hkind hdata, extract_eq _ hstop]
    rcases hs : s.parts with _ | ⟨lead, _ | ⟨inner, rest⟩⟩
    · exact ⟨_, rfl⟩
    · exact ⟨_, rfl⟩
    · obtain ⟨hlead, -⟩ := hparts lead (hs ▸ List.mem_cons_self)
      obtain ⟨-, r, hr⟩ := hparts inner (hs ▸ List.mem_cons_of_mem _ List.mem_cons_self)
      simp only [countOf, extract_eq _ hlead, hr]
      exact ⟨_, rfl⟩
  | _ =>
    have hflat : s.kind.readsParts = true → s.parts = [] := fun hk => by
      rw [hkind] at hk
      cases hk
    obtain ⟨r, hr, -⟩ := decode_flat rfl rfl rfl hflat hflat ⟨hstop, hstop, rfl⟩
    exact ⟨r, hr⟩

/-- All that is read of a signal lies before its end. -/
theorem Encloses.exists_decode (h : s.Encloses good) (hstop : s.shape.stop ≤ raw.length) :
    ∃ r, decode raw s = .ok r := by
  induction h with
  | intro shape within _ ih =>
    refine exists_decode_of_parts hstop fun t ht => ?_
    have hbefore : t.shape.stop ≤ raw.length := Nat.le_trans (within t ht).stop hstop
    exact ⟨hbefore, ih t ht hbefore⟩

/-! ## All samples

`decodeAll` reads a signal of one copy as it is, and else each copy, moved to where it lies.
`singles` is the list of signals that are read, and turns both branches into one `mapM`, which
succeeds exactly if it does on each of them.  Copies move, but their parts do not: `copyAt` leaves
them where the first sample has them.  They lie before the end of the first sample, and so before
the end of every other (`IsSampleOf`): a payload that reaches to a sample reaches to the parts.
-/

/-- The signal reduced to each of its samples. -/
def singles (s : Signal) : List Signal :=
  if s.shape.copies ≤ 1 then [s] else (List.range s.shape.copies.toNat).map s.copyAt

theorem decodeAll_eq_mapM (s : Signal) (raw : Bytes) :
    s.decodeAll raw = s.singles.mapM (decode raw) := by
  rw [decodeAll, singles]
  split
  · rfl
  · exact List.mapM_map.symm

theorem length_singles (s : Signal) : s.singles.length = max s.shape.copies.toNat 1 := by
  rw [singles]
  split
  · rename_i hsingle
    exact (Nat.max_eq_right hsingle).symm
  · rename_i hpacked
    rw [List.length_map, List.length_range]
    exact (Nat.max_eq_left (UInt8.le_of_lt (UInt8.not_le.1 hpacked))).symm

/-- Where copy `i` ends. -/
theorem stop_copyAt (h : s.shape.Exact) {i : Nat} (hi : i < s.shape.copies.toNat) :
    (s.copyAt i).shape.stop = s.shape.offset.toNat + (i + 1) * s.shape.length.toNat := by
  have hexact : s.shape.offset.toNat + s.shape.width * max s.shape.copies.toNat 1 < 256 := h
  rw [Nat.max_eq_left (by omega), ← h.toNat_length] at hexact
  have hplace := toNat_copyOffset hi hexact
  show (s.shape.offset + UInt8.ofNat i * s.shape.length).toNat + s.shape.length.toNat = _
  rw [hplace, Nat.add_assoc, Nat.succ_mul]

/-- The signal `t` is one sample of `s`.  It has the parts of the first, which lie before its end. -/
structure IsSampleOf (t s : Signal) : Prop where
  parts : t.parts = s.parts
  empty : t.shape.isEmpty = s.shape.isEmpty
  first : s.shape.stop ≤ t.shape.stop
  last : t.shape.stop ≤ s.shape.reach

theorem isSampleOf_of_mem (h : s.shape.Exact) (ht : t ∈ s.singles) : t.IsSampleOf s := by
  rw [singles] at ht
  split at ht
  · rw [List.mem_singleton.1 ht]
    refine ⟨rfl, rfl, Nat.le_refl _, Nat.add_le_add_left ?_ _⟩
    exact Nat.le_mul_of_pos_right _ (Nat.le_max_right _ _)
  · obtain ⟨i, hi, rfl⟩ := List.mem_map.1 ht
    have hi := List.mem_range.1 hi
    have hstop := stop_copyAt h hi
    refine ⟨rfl, rfl, ?_, ?_⟩
    · rw [hstop]
      exact Nat.add_le_add_left (Nat.le_mul_of_pos_left _ (Nat.succ_pos i)) _
    · rw [hstop, Shape.reach, Nat.max_eq_left (by omega), Nat.mul_comm]
      exact Nat.add_le_add_left (Nat.mul_le_mul_left _ hi) _

/-- The last sample ends where all of them end. -/
theorem exists_last_single (h : s.shape.Exact) : ∃ t ∈ s.singles, t.shape.stop = s.shape.reach := by
  rw [singles]
  split
  · rename_i hsingle
    have hsingle : s.shape.copies.toNat ≤ 1 := hsingle
    refine ⟨s, List.mem_singleton_self s, ?_⟩
    rw [Shape.stop, Shape.reach, Nat.max_eq_right hsingle, Nat.mul_one]
  · rename_i hpacked
    have hmany : 1 < s.shape.copies.toNat := UInt8.not_le.1 hpacked
    have hlast : s.shape.copies.toNat - 1 < s.shape.copies.toNat := by omega
    refine ⟨_, List.mem_map_of_mem (List.mem_range.2 hlast), ?_⟩
    rw [stop_copyAt h hlast, Shape.reach, Nat.max_eq_left hmany.le, Nat.sub_add_cancel hmany.le,
      Nat.mul_comm]

namespace Encloses

/-- A sample with data can be read exactly if its bytes are there. -/
theorem decode_sample_isOk_iff (h : s.Encloses Shape.Exact) (hdata : s.shape.isEmpty = false)
    (ht : t.IsSampleOf s) : (∃ r, decode raw t = .ok r) ↔ t.shape.stop ≤ raw.length := by
  refine ⟨fun ⟨r, hr⟩ => Nat.le_of_not_lt fun hshort => ?_, fun hstop => ?_⟩
  · rw [decode_error (ht.empty.trans hdata) hshort] at hr
    cases hr
  · refine exists_decode_of_parts hstop fun u hu => ?_
    have hu : u ∈ s.parts := ht.parts ▸ hu
    have hbefore : u.shape.stop ≤ raw.length :=
      Nat.le_trans (h.within hu).stop (Nat.le_trans ht.first hstop)
    exact ⟨hbefore, (h.part hu).exists_decode hbefore⟩

/-- **All samples can be read exactly if there are no data or if the last sample is there.** -/
theorem decodeAll_isOk_iff (h : s.Encloses Shape.Exact) :
    (∃ readings, s.decodeAll raw = .ok readings) ↔
      s.shape.length = 0 ∨ s.shape.reach ≤ raw.length := by
  rw [decodeAll_eq_mapM, exists_mapM_iff]
  cases hdata : s.shape.isEmpty with
  | true =>
    refine ⟨fun _ => .inl (eq_of_beq hdata), fun _ t ht => ⟨.empty, decode_empty ?_⟩⟩
    rw [(isSampleOf_of_mem h.shape ht).empty, hdata]
  | false =>
    have hlength : s.shape.length ≠ 0 := beq_eq_false_iff_ne.1 hdata
    rw [or_iff_right hlength]
    constructor
    · intro hall
      obtain ⟨last, hlast, hreach⟩ := exists_last_single h.shape
      have hsample := isSampleOf_of_mem h.shape hlast
      rw [← hreach]
      exact (h.decode_sample_isOk_iff hdata hsample).1 (hall last hlast)
    · intro hreach t ht
      have hsample := isSampleOf_of_mem h.shape ht
      exact (h.decode_sample_isOk_iff hdata hsample).2 (Nat.le_trans hsample.last hreach)

/-- Nothing goes wrong but that the payload is short. -/
theorem decodeAll_error (h : s.Encloses Shape.Exact) {fault : Fault}
    (hfault : s.decodeAll raw = .error fault) :
    ∃ stop, raw.length < stop ∧ stop ≤ s.shape.reach ∧ fault = .shortPayload stop raw.length := by
  rw [decodeAll_eq_mapM] at hfault
  obtain ⟨t, ht, hfault⟩ := exists_of_mapM_error hfault
  have hsample := isSampleOf_of_mem h.shape ht
  cases hdata : s.shape.isEmpty with
  | true =>
    rw [decode_empty (hsample.empty.trans hdata)] at hfault
    cases hfault
  | false =>
    have hshort : raw.length < t.shape.stop := by
      refine Nat.lt_of_not_le fun hstop => ?_
      obtain ⟨r, hr⟩ := (h.decode_sample_isOk_iff hdata hsample).2 hstop
      rw [hr] at hfault
      cases hfault
    rw [decode_error (hsample.empty.trans hdata) hshort] at hfault
    cases hfault
    exact ⟨_, hshort, hsample.last, rfl⟩

end Encloses

/-- There are as many readings as samples. -/
theorem length_of_decodeAll {readings : List Reading} (h : s.decodeAll raw = .ok readings) :
    readings.length = max s.shape.copies.toNat 1 := by
  rw [decodeAll_eq_mapM] at h
  rw [length_of_mapM h, length_singles]

end Signal
end SignalRoute
