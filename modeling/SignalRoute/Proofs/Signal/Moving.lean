import SignalRoute.Proofs.Outcome
import SignalRoute.Proofs.Signal.Nesting
import SignalRoute.Signal.Decode

/-!
# Reading a signal elsewhere

What is read of a nested signal depends only on the bytes that the signal names.  So one that is
moved to another offset reads from there what it read before, if the same bytes are there
(`Signal.Nested.decode_shifted`), and it reads without a fault.  `Signal.Nested.decodeAll_atOffset`
says so for all packed samples and for a signal that is moved to the start, as it is for the log.

The induction is on the nesting; what a part reads lies within what the signal reads.

This is why a log can be read at all.  The board cuts the bytes of a signal out of a notification,
splits them over a few entries, and later hands them back in pieces; the host puts the pieces
together again, and these bytes begin at 0, wherever they lay when they were notified.  A subscriber
is given the signal moved to 0, and reads from it what a subscriber to the notification would have
read.
-/

set_option autoImplicit false

namespace SignalRoute

/-! ## The same bytes elsewhere

The two payloads are different lists of different lengths, and the two places are different too;
what is the same is a run of bytes.  The bounds are part of it, since `take` and `drop` say nothing
about bytes that are not there.
-/

/-- There are `width` bytes from `start` on and from `start'` on, and they are the same. -/
structure SameBytes (raw raw' : Bytes) (start start' width : Nat) : Prop where
  fits : start + width ≤ raw.length
  fits' : start' + width ≤ raw'.length
  eq : (raw.drop start).take width = (raw'.drop start').take width

/-- Bytes within the same bytes are the same. -/
theorem SameBytes.within {raw raw' : Bytes} {start start' width : Nat}
    (h : SameBytes raw raw' start start' width) (skip count : Nat) (hfits : skip + count ≤ width) :
    SameBytes raw raw' (start + skip) (start' + skip) count where
  fits := by
    have := h.fits
    omega
  fits' := by
    have := h.fits'
    omega
  eq := by
    have hwithin (bytes : Bytes) (start : Nat) : (bytes.drop (start + skip)).take count =
        (((bytes.drop start).take width).drop skip).take count := by
      rw [List.drop_take, List.take_take, List.drop_drop, Nat.min_eq_left (by omega)]
    rw [hwithin, hwithin, h.eq]

namespace Signal

variable {raw raw' : Bytes} {s t : Signal}

theorem extract_eq (shape : Shape) (h : shape.offset.toNat + shape.length.toNat ≤ raw.length) :
    extract shape raw = .ok ((raw.drop shape.offset.toNat).take shape.length.toNat) := by
  rw [extract, slice?, if_pos ⟨Nat.le_add_right _ _, h⟩, Nat.add_sub_cancel_left]

/-- Two signals read the same from the same bytes if they differ only in where they lie and in the
parts that they do not read. -/
theorem decode_flat (hkind : s.kind = t.kind) (hsizes : s.shape.sizes = t.shape.sizes)
    (hsigned : s.shape.signed = t.shape.signed) (hs : s.kind.readsParts = true → s.parts = [])
    (ht : t.kind.readsParts = true → t.parts = [])
    (hbytes : SameBytes raw raw' s.shape.offset.toNat t.shape.offset.toNat s.shape.length.toNat) :
    ∃ r, decode raw s = .ok r ∧ decode raw' t = .ok r := by
  obtain ⟨address, ⟨sizes, copies, offset, signed⟩, kind, p, input, parts, index⟩ := s
  obtain ⟨address', ⟨sizes', copies', offset', signed'⟩, kind', p', input', parts', index'⟩ := t
  dsimp only at hkind hsizes hsigned hs ht hbytes
  subst hkind hsizes hsigned
  have hread := extract_eq ⟨sizes, copies, offset, signed⟩ hbytes.fits
  have hread' := extract_eq ⟨sizes, copies', offset', signed⟩ hbytes.fits'
  rw [show Shape.length ⟨sizes, copies', offset', signed⟩ =
    Shape.length ⟨sizes, copies, offset, signed⟩ from rfl, ← hbytes.eq] at hread'
  rw [decode, decode]
  by_cases hempty : Shape.isEmpty ⟨sizes, copies, offset, signed⟩ = true
  · exact ⟨.empty, if_pos hempty, if_pos hempty⟩
  · have hempty' : ¬Shape.isEmpty ⟨sizes, copies', offset', signed⟩ = true := hempty
    rw [if_neg hempty, if_neg hempty', hread, hread']
    cases kind with
    | integer =>
      by_cases hchannels : Shape.channels ⟨sizes, copies, offset, signed⟩ ≤ 1
      · have hchannels' : Shape.channels ⟨sizes, copies', offset', signed⟩ ≤ 1 := hchannels
        cases signed <;> exact ⟨_, if_pos hchannels, if_pos hchannels'⟩
      · have hchannels' : ¬Shape.channels ⟨sizes, copies', offset', signed⟩ ≤ 1 := hchannels
        exact ⟨_, if_neg hchannels, if_neg hchannels'⟩
    | fused =>
      rw [hs rfl, ht rfl]
      exact ⟨_, rfl, rfl⟩
    | accounted =>
      rw [hs rfl, ht rfl]
      exact ⟨_, rfl, rfl⟩
    | _ => exact ⟨_, rfl, rfl⟩

/-! ## By the parts

Three equations say what `decode` does to a signal without data, a fused one and an accounted one,
so that the induction does not unfold it.  A moved part is at the same distance to the moved signal
as before, and the bytes of the part are some of the bytes of the signal; that is all that the step
needs.
-/

theorem decode_empty (h : s.shape.isEmpty = true) : decode raw s = .ok .empty := by
  cases s
  rw [decode]
  exact if_pos h

theorem decode_fused (hkind : s.kind = .fused) (hdata : ¬s.shape.isEmpty = true) :
    decode raw s = do
      let _ ← extract s.shape raw
      return .fused (← decodeParts raw s.parts) := by
  cases s
  cases hkind
  rw [decode]
  exact if_neg hdata

theorem decode_accounted (hkind : s.kind = .accounted) (hdata : ¬s.shape.isEmpty = true) :
    decode raw s = do
      let bytes ← extract s.shape raw
      match s.parts with
      | lead :: inner :: _ =>
        let count ← lead.countOf raw
        return .accounted count (← decode raw inner)
      | _ => return .bytes bytes := by
  cases s
  cases hkind
  rw [decode]
  exact if_neg hdata

theorem decodeParts_map {f : Signal → Signal} {parts : List Signal}
    (h : ∀ t ∈ parts, ∃ r, decode raw t = .ok r ∧ decode raw' (f t) = .ok r) :
    ∃ rs, decodeParts raw parts = .ok rs ∧ decodeParts raw' (parts.map f) = .ok rs := by
  induction parts with
  | nil => exact ⟨[], rfl, rfl⟩
  | cons t rest ih =>
    obtain ⟨r, hr, hr'⟩ := h t List.mem_cons_self
    obtain ⟨rs, hrs, hrs'⟩ := ih fun u hu => h u (List.mem_cons_of_mem _ hu)
    rw [List.map_cons, decodeParts, decodeParts, hr, hrs, hr', hrs']
    exact ⟨r :: rs, rfl, rfl⟩

/-- A part of a moved signal keeps its place in it. -/
theorem Within.shifted (h : t.Within s) {distance : Int}
    (hlow : 0 ≤ (s.shape.offset.toNat : Int) + distance)
    (hhigh : (s.shape.offset.toNat : Int) + distance + s.shape.length.toNat ≤ 255)
    (hbytes : SameBytes raw raw' s.shape.offset.toNat (s.shifted distance).shape.offset.toNat
      s.shape.length.toNat) :
    SameBytes raw raw' t.shape.offset.toNat (t.shifted distance).shape.offset.toNat
      t.shape.length.toNat := by
  obtain ⟨hstart, hstop⟩ := h
  have hs := toNat_movedOffset hlow (by omega)
  have ht := @toNat_movedOffset t.shape.offset distance (by omega) (by omega)
  rw [shape_shifted] at hbytes ⊢
  have hwithin := hbytes.within (t.shape.offset.toNat - s.shape.offset.toNat) t.shape.length.toNat
    (by omega)
  dsimp only at hwithin ⊢
  rwa [show s.shape.offset.toNat + (t.shape.offset.toNat - s.shape.offset.toNat) =
      t.shape.offset.toNat by omega,
    show (movedOffset s.shape.offset distance).toNat +
      (t.shape.offset.toNat - s.shape.offset.toNat) =
        (movedOffset t.shape.offset distance).toNat by omega] at hwithin

/-- What a lead says is the same if its bytes are. -/
theorem countOf_shifted {distance : Int}
    (hbytes : SameBytes raw raw' s.shape.offset.toNat (s.shifted distance).shape.offset.toNat
      s.shape.length.toNat) :
    ∃ n, s.countOf raw = .ok n ∧ (s.shifted distance).countOf raw' = .ok n := by
  have hlength : (s.shifted distance).shape.length = s.shape.length := by
    rw [shape_shifted]
    rfl
  have hread' := extract_eq (s.shifted distance).shape (hlength ▸ hbytes.fits')
  rw [hlength, ← hbytes.eq] at hread'
  rw [countOf, countOf, extract_eq _ hbytes.fits, hread']
  exact ⟨_, rfl, rfl⟩

/-- **A nested signal reads from elsewhere what it read before**, if the same bytes are there. -/
theorem Nested.decode_shifted (h : s.Nested) {distance : Int}
    (hlow : 0 ≤ (s.shape.offset.toNat : Int) + distance)
    (hhigh : (s.shape.offset.toNat : Int) + distance + s.shape.length.toNat ≤ 255)
    (hbytes : SameBytes raw raw' s.shape.offset.toNat (s.shifted distance).shape.offset.toNat
      s.shape.length.toNat) :
    ∃ r, decode raw s = .ok r ∧ decode raw' (s.shifted distance) = .ok r := by
  have hflat (s : Signal) (hparts : s.kind.readsParts = true → s.parts = [])
      (hbytes : SameBytes raw raw' s.shape.offset.toNat (s.shifted distance).shape.offset.toNat
        s.shape.length.toNat) :
      ∃ r, decode raw s = .ok r ∧ decode raw' (s.shifted distance) = .ok r := by
    refine decode_flat ?_ ?_ ?_ hparts (fun hk => ?_) hbytes
    · rw [kind_shifted]
    · rw [shape_shifted]
    · rw [shape_shifted]
    · rw [parts_shifted, hparts (s.kind_shifted distance ▸ hk), List.map_nil]
  induction h with
  | flat kind leaves => exact hflat _ kind hbytes
  | @joined s copies within parts ih =>
    have hparts : ∀ t ∈ s.parts, ∃ r, decode raw t = .ok r ∧
        decode raw' (t.shifted distance) = .ok r := by
      intro t ht
      obtain ⟨hstart, hstop⟩ := within t ht
      exact ih t ht (by omega) (by omega) ((within t ht).shifted hlow hhigh hbytes)
    have hlength : (s.shifted distance).shape.length = s.shape.length := by
      rw [shape_shifted]
      rfl
    have hempty : (s.shifted distance).shape.isEmpty = s.shape.isEmpty := by
      rw [shape_shifted]
      rfl
    by_cases hdata : s.shape.isEmpty = true
    · exact ⟨.empty, decode_empty hdata, decode_empty (hempty ▸ hdata)⟩
    have hdata' : ¬(s.shifted distance).shape.isEmpty = true := hempty ▸ hdata
    have hread := extract_eq _ hbytes.fits
    have hread' := extract_eq (s.shifted distance).shape (hlength ▸ hbytes.fits')
    rw [hlength, ← hbytes.eq] at hread'
    cases hkind : s.kind with
    | fused =>
      obtain ⟨rs, hrs, hrs'⟩ := decodeParts_map hparts
      rw [decode_fused hkind hdata, decode_fused (by rw [kind_shifted, hkind]) hdata', hread,
        hread', hrs, parts_shifted, hrs']
      exact ⟨_, rfl, rfl⟩
    | accounted =>
      rw [decode_accounted hkind hdata, decode_accounted (by rw [kind_shifted, hkind]) hdata',
        hread, hread', parts_shifted]
      rcases hs : s.parts with _ | ⟨lead, _ | ⟨inner, rest⟩⟩
      · exact ⟨_, rfl, rfl⟩
      · exact ⟨_, rfl, rfl⟩
      · have hlead : lead ∈ s.parts := hs ▸ List.mem_cons_self
        have hinner : inner ∈ s.parts := hs ▸ List.mem_cons_of_mem _ List.mem_cons_self
        obtain ⟨n, hn, hn'⟩ := countOf_shifted ((within lead hlead).shifted hlow hhigh hbytes)
        obtain ⟨r, hr, hr'⟩ := hparts inner hinner
        simp only [List.map_cons, hn, hn', hr, hr']
        exact ⟨_, rfl, rfl⟩
    | _ => exact hflat s (fun hk => by rw [hkind] at hk; cases hk) hbytes

theorem Nested.decode_atOffset (h : s.Nested) (offset : UInt8)
    (hfits : offset.toNat + s.shape.length.toNat ≤ 255)
    (hbytes : SameBytes raw raw' s.shape.offset.toNat offset.toNat s.shape.length.toNat) :
    ∃ r, decode raw s = .ok r ∧ decode raw' (s.atOffset offset) = .ok r := by
  refine h.decode_shifted (by omega) (by omega) ?_
  rwa [← Signal.atOffset, shape_atOffset]

/-! ## All samples

Packed samples are not read by parts (`Nested.parts_of_packed`), so each of them is flat.  The limit
of 32 bytes is that of an offset on the board; a byte could count further.
-/

theorem toNat_unitLength_of_lt {shape : Shape} (h : shape.unitLength.toNat < 255) :
    shape.unitLength.toNat = shape.length.toNat * shape.copies.toNat := by
  rw [Shape.unitLength, satMul] at h ⊢
  split
  · rename_i hsmall
    rw [UInt8.toNat_mul, Nat.mod_eq_of_lt hsmall]
  · rw [if_neg ‹_›] at h
    exact absurd h (by decide)

/-- Where copy `i` lies, if all copies lie within what a byte counts. -/
theorem toNat_copyOffset {offset length copies : UInt8} {i : Nat} (hi : i < copies.toNat)
    (hfits : offset.toNat + length.toNat * copies.toNat < 256) :
    (offset + UInt8.ofNat i * length).toNat = offset.toNat + i * length.toNat := by
  have hcopies := copies.toNat_lt
  have hle : i * length.toNat ≤ length.toNat * copies.toNat := by
    rw [Nat.mul_comm]
    exact Nat.mul_le_mul_left _ hi.le
  rw [UInt8.toNat_add, UInt8.toNat_mul, UInt8.toNat_ofNat', Nat.mod_eq_of_lt (a := i) (by omega),
    Nat.mod_eq_of_lt (a := i * _) (by omega), Nat.mod_eq_of_lt (by omega)]

/-- What is packed is read without its parts. -/
theorem Nested.parts_of_packed (h : s.Nested) (hpacked : ¬s.shape.copies ≤ 1)
    (hkind : s.kind.readsParts = true) : s.parts = [] := by
  cases h with
  | flat kind leaves => exact kind hkind
  | joined copies within parts => exact absurd copies hpacked

theorem Nested.decode_copyAt (h : s.Nested) (hpacked : ¬s.shape.copies ≤ 1) {offset : UInt8}
    (hfits : s.shape.offset.toNat + s.shape.length.toNat * s.shape.copies.toNat < 256)
    (hfits' : offset.toNat + s.shape.length.toNat * s.shape.copies.toNat < 256)
    (hbytes : SameBytes raw raw' s.shape.offset.toNat offset.toNat
      (s.shape.length.toNat * s.shape.copies.toNat)) {i : Nat} (hi : i < s.shape.copies.toNat) :
    ∃ r, decode raw (s.copyAt i) = .ok r ∧ decode raw' ((s.atOffset offset).copyAt i) = .ok r := by
  have hshape := s.shape_atOffset offset
  have hplace := toNat_copyOffset hi hfits
  have hplace' := toNat_copyOffset hi hfits'
  have hlast : i * s.shape.length.toNat + s.shape.length.toNat ≤
      s.shape.length.toNat * s.shape.copies.toNat := by
    rw [← Nat.succ_mul, Nat.mul_comm]
    exact Nat.mul_le_mul_left _ hi
  refine decode_flat ?_ ?_ ?_ (h.parts_of_packed hpacked) (fun hk => ?_) ?_
  · exact (s.kind_atOffset offset).symm
  · show s.shape.sizes = (s.atOffset offset).shape.sizes
    rw [hshape]
  · show s.shape.signed = (s.atOffset offset).shape.signed
    rw [hshape]
  · have hkind : s.kind.readsParts = true := s.kind_atOffset offset ▸ hk
    show (s.atOffset offset).parts = []
    rw [Signal.atOffset, parts_shifted, h.parts_of_packed hpacked hkind, List.map_nil]
  · have hcopy := hbytes.within _ _ hlast
    rw [← hplace, ← hplace'] at hcopy
    show SameBytes raw raw' (s.shape.offset + UInt8.ofNat i * s.shape.length).toNat
      ((s.atOffset offset).shape.offset + UInt8.ofNat i * (s.atOffset offset).shape.length).toNat
      s.shape.length.toNat
    rw [hshape]
    exact hcopy

/-- **Moving a signal to the start changes nothing of what is read of it**, if its bytes are moved
there.  All samples can be read. -/
theorem Nested.decodeAll_atOffset (h : s.Nested) (hcopies : 1 ≤ s.shape.copies)
    (hsmall : s.shape.offset.toNat + s.shape.unitLength.toNat ≤ 32)
    (hbytes : SameBytes raw raw' s.shape.offset.toNat 0 s.shape.unitLength.toNat) :
    ∃ readings, s.decodeAll raw = .ok readings ∧ (s.atOffset 0).decodeAll raw' = .ok readings := by
  have hzero : (0 : UInt8).toNat = 0 := rfl
  have hunit := @toNat_unitLength_of_lt s.shape (by omega)
  have hsame : (s.atOffset 0).shape.copies = s.shape.copies := by rw [shape_atOffset]
  rw [decodeAll, decodeAll, hsame]
  rw [hunit] at hbytes
  by_cases hsingle : s.shape.copies ≤ 1
  · rw [if_pos hsingle, if_pos hsingle]
    have hone : s.shape.copies.toNat = 1 := Nat.le_antisymm hsingle hcopies
    rw [hone, Nat.mul_one] at hbytes hunit
    obtain ⟨r, hr, hr'⟩ := h.decode_atOffset 0 (by omega) hbytes
    rw [hr, hr']
    exact ⟨[r], rfl, rfl⟩
  · rw [if_neg hsingle, if_neg hsingle]
    refine mapM_same fun i hi => ?_
    exact h.decode_copyAt hsingle (by omega) (by omega) hbytes (List.mem_range.1 hi)

end Signal
end SignalRoute
