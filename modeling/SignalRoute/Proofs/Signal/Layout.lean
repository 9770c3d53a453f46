import Mathlib.Tactic.Common
import SignalRoute.Proofs.Codec.Field
import SignalRoute.Wire.Address
import SignalRoute.Shape

/-!
# Layouts within a notification

The board has five bits for an offset.  A shape is tame if it has channels, none of which is empty,
and if all its bytes lie within what such an offset reaches.  On tame shapes the byte arithmetic of
`Shape` never wraps: `toNat_length` and `toNat_unitLength` say that it computes what it should.

Most of this file says that derived shapes are tame, as long as what they are derived from is not
too wide: a stage that widens its channels to four bytes makes up to four bytes out of each.

Lengths are bytes that wrap in the program, as they are on the board.  So each shape has two of
everything: `Shape.length`, a byte, is what is computed, and `Shape.width`, a number, is what is
meant.  Facts about places are proved of numbers, where a sum of channels can be split at any of
them (`width_eq_of_getElem?`), and brought to bytes at the end.

Three limits are in use.  A tame shape ends within 32 bytes, where a token can still address it; the
sample of a compact one (`Proofs.Signal.Enclosing`) ends within a notification, and that of a fresh
one (`Proofs.Signal.WellFormed`) where a byte can count it.  None of the three lets the sum of the
channels wrap.
-/

set_option autoImplicit false

namespace SignalRoute

theorem sumBytes_eq_zero {sizes : List UInt8} (h : ∀ n ∈ sizes, n = 0) : sumBytes sizes = 0 := by
  induction sizes with
  | nil => rfl
  | cons n rest ih =>
    rw [sumBytes, h n List.mem_cons_self, ih fun m hm => h m (List.mem_cons_of_mem _ hm)]
    rfl

theorem toNat_sumBytes {sizes : List UInt8} (h : (sizes.map UInt8.toNat).sum < 256) :
    (sumBytes sizes).toNat = (sizes.map UInt8.toNat).sum := by
  induction sizes with
  | nil => rfl
  | cons n rest ih =>
    rw [List.map_cons, List.sum_cons] at h ⊢
    rw [sumBytes, UInt8.toNat_add, ih (by omega), Nat.mod_eq_of_lt (by omega)]

theorem toNat_satAdd {a b : UInt8} (h : a.toNat + b.toNat < 256) :
    (satAdd a b).toNat = a.toNat + b.toNat := by
  rw [satAdd, if_pos h, UInt8.toNat_add, Nat.mod_eq_of_lt h]

theorem toNat_satMul {a b : UInt8} (h : a.toNat * b.toNat < 256) :
    (satMul a b).toNat = a.toNat * b.toNat := by
  rw [satMul, if_pos h, UInt8.toNat_mul, Nat.mod_eq_of_lt h]

theorem length_le_sum {sizes : List UInt8} (h : ∀ n ∈ sizes, 1 ≤ n.toNat) :
    sizes.length ≤ (sizes.map UInt8.toNat).sum := by
  induction sizes with
  | nil => exact Nat.le_refl _
  | cons n rest ih =>
    have := ih fun m hm => h m (List.mem_cons_of_mem _ hm)
    have := h n List.mem_cons_self
    rw [List.length_cons, List.map_cons, List.sum_cons]
    omega

/-- Where the channels of positive width begin, one behind the other. -/
theorem sum_take_add_le {sizes : List UInt8} {j k : Nat} (h : ∀ n ∈ sizes, 1 ≤ n.toNat)
    (hjk : j ≤ k) (hk : k ≤ sizes.length) :
    ((sizes.take j).map UInt8.toNat).sum + (k - j) ≤ ((sizes.take k).map UInt8.toNat).sum := by
  obtain ⟨count, rfl⟩ := Nat.exists_eq_add_of_le hjk
  have hbetween : ((sizes.drop j).take count).length ≤ _ := length_le_sum fun n hn =>
    h n (List.mem_of_mem_drop (List.mem_of_mem_take hn))
  rw [List.length_take, List.length_drop] at hbetween
  rw [List.take_add, List.map_append, List.sum_append]
  omega

/-- A byte range that the board can name comes back as it was packed. -/
theorem unpackRange_packRange {length offset : UInt8} (hlow : 1 ≤ length.toNat)
    (hhigh : length.toNat ≤ 8) (hoffset : offset.toNat < 32) :
    unpackRange (packRange length offset) = (length, offset) := by
  have hall : ∀ (l : Fin 8) (o : Fin 32),
      unpackRange (packRange (UInt8.ofNat (l.val + 1)) (UInt8.ofNat o.val)) =
        (UInt8.ofNat (l.val + 1), UInt8.ofNat o.val) := by decide +kernel
  have := hall ⟨length.toNat - 1, by omega⟩ ⟨offset.toNat, hoffset⟩
  have hlength : length.toNat - 1 + 1 = length.toNat := by omega
  simpa only [hlength, UInt8.ofNat_toNat] using this

/-- A length above eight is packed as eight. -/
theorem packRange_min (length offset : UInt8) :
    packRange (min length 8) offset = packRange length offset := by
  have hfield : ∀ n : UInt8, min (lessOne (min n 8)) 7 = min (lessOne n) 7 :=
    forall_byte (by decide +kernel)
  rw [packRange, packRange, hfield]

/-- What is packed of a byte range, of whatever length. -/
theorem unpackRange_packRange_min {length offset : UInt8} (hlow : 1 ≤ length.toNat)
    (hoffset : offset.toNat < 32) :
    unpackRange (packRange length offset) = (min length 8, offset) := by
  have hmin : ∀ n : UInt8, 1 ≤ n.toNat → 1 ≤ (min n 8).toNat ∧ (min n 8).toNat ≤ 8 :=
    forall_byte (by decide +kernel)
  obtain ⟨hone, height⟩ := hmin length hlow
  rw [← packRange_min, unpackRange_packRange hone height hoffset]

namespace Shape

/-- How many bytes one sample has. -/
def width (s : Shape) : Nat := (s.sizes.map UInt8.toNat).sum

/-- How many bytes all packed samples have. -/
def bytes (s : Shape) : Nat := s.width * s.copies.toNat

/-- Channels of at least one byte, within what an offset of five bits reaches. -/
structure Tame (s : Shape) : Prop where
  nonempty : s.sizes ≠ []
  sizes : ∀ n ∈ s.sizes, 1 ≤ n.toNat
  copies : 1 ≤ s.copies.toNat
  fits : s.offset.toNat + s.bytes ≤ 32

namespace Tame

variable {s : Shape}

theorem channels_pos (h : s.Tame) : 1 ≤ s.channels := List.length_pos_iff.2 h.nonempty

theorem channels_le_width (h : s.Tame) : s.channels ≤ s.width := length_le_sum h.sizes

theorem width_pos (h : s.Tame) : 1 ≤ s.width :=
  Nat.le_trans h.channels_pos h.channels_le_width

theorem width_le_bytes (h : s.Tame) : s.width ≤ s.bytes := Nat.le_mul_of_pos_right _ h.copies

theorem bytes_pos (h : s.Tame) : 1 ≤ s.bytes := Nat.le_trans h.width_pos h.width_le_bytes

theorem bytes_le (h : s.Tame) : s.bytes ≤ 32 := by
  have := h.fits
  omega

theorem offset_lt (h : s.Tame) : s.offset.toNat < 32 := by
  have := h.fits
  have := h.bytes_pos
  omega

theorem toNat_length (h : s.Tame) : s.length.toNat = s.width := by
  have := h.bytes_le
  have := h.width_le_bytes
  exact toNat_sumBytes (by rw [← width]; omega)

theorem toNat_unitLength (h : s.Tame) : s.unitLength.toNat = s.bytes := by
  have hbytes := h.bytes_le
  have hproduct : s.length.toNat * s.copies.toNat = s.bytes := by rw [h.toNat_length, bytes]
  rw [unitLength, toNat_satMul (by omega), hproduct]

/-- The byte range of a tame shape of up to eight bytes comes back as it was packed. -/
theorem unpackRange_packRange (h : s.Tame) (hread : s.unitLength.toNat ≤ 8) :
    unpackRange (packRange s.unitLength s.offset) = (s.unitLength, s.offset) :=
  SignalRoute.unpackRange_packRange (by rw [h.toNat_unitLength]; exact h.bytes_pos) hread
    h.offset_lt

/-! ## Derived shapes

One lemma for each way in which `infer` makes a shape: from the start, with another sign, another
width, another number of copies.  A stage that only looks at its input asks for nothing; one that
widens it asks for room.
-/

theorem rebased (h : s.Tame) : s.rebased.Tame where
  nonempty := h.nonempty
  sizes := h.sizes
  copies := h.copies
  fits := by
    have := h.bytes_le
    show 0 + s.bytes ≤ 32
    omega

theorem withSign (h : s.Tame) (signed : Bool) : (s.withSign signed).Tame :=
  { h.rebased with }

theorem scalar {size : UInt8} (hlow : 1 ≤ size.toNat) (hhigh : size.toNat ≤ 32) (signed : Bool) :
    (Shape.scalar size signed).Tame where
  nonempty := by simp [Shape.scalar]
  sizes := by
    intro n hn
    rw [List.mem_singleton.1 hn]
    exact hlow
  copies := Nat.le_refl _
  fits := by
    show 0 + (size.toNat + 0) * 1 ≤ 32
    omega

/-- Channels of one width, as many as the shape has. -/
theorem uniform (h : s.Tame) {size : UInt8} (hlow : 1 ≤ size.toNat) (hhigh : size.toNat ≤ 4)
    (hread : s.bytes ≤ 8) (signed : Bool) :
    (⟨List.replicate s.channels size, s.copies, 0, signed⟩ : Shape).Tame where
  nonempty := by
    have := h.channels_pos
    rw [Ne, List.replicate_eq_nil_iff]
    omega
  sizes := by
    intro n hn
    rw [List.eq_of_mem_replicate hn]
    exact hlow
  copies := h.copies
  fits := by
    have hwidth : Shape.width ⟨List.replicate s.channels size, s.copies, 0, signed⟩
        = s.channels * size.toNat := by
      rw [width, List.map_replicate, List.sum_replicate_nat]
    have hchannels : s.channels * s.copies.toNat ≤ 8 :=
      Nat.le_trans (Nat.mul_le_mul_right _ h.channels_le_width) hread
    show 0 + Shape.width ⟨List.replicate s.channels size, s.copies, 0, signed⟩ * s.copies.toNat ≤ 32
    rw [hwidth, Nat.zero_add, Nat.mul_right_comm]
    calc s.channels * s.copies.toNat * size.toNat ≤ 8 * 4 := Nat.mul_le_mul hchannels hhigh
      _ = 32 := rfl

theorem withSize (h : s.Tame) {size : UInt8} (hlow : 1 ≤ size.toNat) (hhigh : size.toNat ≤ 4)
    (hread : s.bytes ≤ 8) : (s.withSize size).Tame := by
  have hsizes : s.sizes.map (fun _ => size) = List.replicate s.channels size := by
    rw [List.map_const']
    rfl
  rw [Shape.withSize, hsizes]
  exact h.uniform hlow hhigh hread s.signed

theorem withCopies (h : s.Tame) {copies : UInt8} (hlow : 1 ≤ copies.toNat)
    (hhigh : s.width * copies.toNat ≤ 32) : (s.withCopies copies).Tame where
  nonempty := h.nonempty
  sizes := h.sizes
  copies := hlow
  fits := by
    show 0 + s.width * copies.toNat ≤ 32
    omega

end Tame

/-! ## Channels

A channel has one sample, however many the vector has, and begins where the channels before it end.
-/

theorem channel?_eq_some {s shape : Shape} {k : Nat} (h : s.channel? k = some shape) :
    ∃ size, s.sizes[k]? = some size ∧
      shape = ⟨[size], 1, s.offset + sumBytes (s.sizes.take k), s.signed⟩ := by
  rw [channel?] at h
  split at h
  · rename_i size hsize
    exact ⟨size, hsize, (Option.some.inj h).symm⟩
  · cases h

namespace Tame

variable {s shape : Shape} {k : Nat}

/-- The bytes before a channel, its own, and those behind it. -/
theorem width_eq_of_getElem? {size : UInt8} (hsize : s.sizes[k]? = some size) :
    s.width = ((s.sizes.take k).map UInt8.toNat).sum +
      (size.toNat + ((s.sizes.drop (k + 1)).map UInt8.toNat).sum) := by
  obtain ⟨hk, rfl⟩ := List.getElem?_eq_some_iff.1 hsize
  rw [width, ← List.sum_cons, ← List.map_cons, ← List.drop_eq_getElem_cons hk, ← List.sum_append,
    ← List.map_append, List.take_append_drop]

/-- Where a channel begins. -/
theorem toNat_offset_channel (h : s.Tame) (hk : s.channel? k = some shape) :
    shape.offset.toNat = s.offset.toNat + ((s.sizes.take k).map UInt8.toNat).sum := by
  obtain ⟨size, hsize, rfl⟩ := channel?_eq_some hk
  have := width_eq_of_getElem? hsize
  have := h.width_le_bytes
  have := h.fits
  rw [UInt8.toNat_add, toNat_sumBytes (by omega), Nat.mod_eq_of_lt (by omega)]

/-- A channel of a tame shape is tame. -/
theorem channel (h : s.Tame) (hk : s.channel? k = some shape) : shape.Tame := by
  have hoffset := h.toNat_offset_channel hk
  obtain ⟨size, hsize, rfl⟩ := channel?_eq_some hk
  have := width_eq_of_getElem? hsize
  have := h.width_le_bytes
  have := h.fits
  refine ⟨by simp, ?_, Nat.le_refl _, ?_⟩
  · intro n hn
    rw [List.mem_singleton.1 hn]
    exact h.sizes size (List.mem_of_getElem? hsize)
  · rw [hoffset]
    show _ + (size.toNat + 0) * 1 ≤ 32
    omega

/-- No two channels begin at the same place. -/
theorem channel_inj (h : s.Tame) {j : Nat} {shape' : Shape} (hj : s.channel? j = some shape')
    (hk : s.channel? k = some shape) (hoffset : shape'.offset = shape.offset) : j = k := by
  have hj' := h.toNat_offset_channel hj
  have hk' := h.toNat_offset_channel hk
  rw [hoffset, hk', Nat.add_left_cancel_iff] at hj'
  obtain ⟨_, hj, -⟩ := channel?_eq_some hj
  obtain ⟨_, hk, -⟩ := channel?_eq_some hk
  have hjlt := (List.getElem?_eq_some_iff.1 hj).1
  have hklt := (List.getElem?_eq_some_iff.1 hk).1
  rcases Nat.lt_trichotomy j k with hlt | heq | hgt
  · have := sum_take_add_le h.sizes hlt.le hklt.le
    omega
  · exact heq
  · have := sum_take_add_le h.sizes hgt.le hjlt.le
    omega

/-- A channel of several has fewer bytes than all of them. -/
theorem bytes_channel_lt (h : s.Tame) (hmany : 2 ≤ s.channels) (hk : s.channel? k = some shape) :
    shape.bytes < s.bytes := by
  obtain ⟨size, hsize, rfl⟩ := channel?_eq_some hk
  have hklt := (List.getElem?_eq_some_iff.1 hsize).1
  have hwidth := width_eq_of_getElem? hsize
  have hbefore : (s.sizes.take k).length ≤ _ := length_le_sum fun n hn =>
    h.sizes n (List.mem_of_mem_take hn)
  have hafter : (s.sizes.drop (k + 1)).length ≤ _ := length_le_sum fun n hn =>
    h.sizes n (List.mem_of_mem_drop hn)
  rw [List.length_take] at hbefore
  rw [List.length_drop] at hafter
  rw [channels] at hmany
  have := h.width_le_bytes
  show (size.toNat + 0) * 1 < s.bytes
  omega

end Tame
end Shape
end SignalRoute
