import SignalRoute.Processor.Encode
import SignalRoute.Proofs.Word

/-!
# Fields of configurations

Encoded configurations are made of fields that share bytes, widths that are written less one, modes,
and words.  This file says what each kind of field gives back.

* `wrapSize mask n` is what a width becomes on its way through the bits of `mask`: itself exactly if
  it lies between 1 and `mask + 1` (`wrapSize_eq_self_iff`).
* `leBytes_two`, `leBytes_four` and `leBytes_signed` put the bytes of a word together again.
* `chunks_flatMap` cuts fields of one width apart.

Widths are numbers (`toNat_lessOne`); statements that mix the bits of a byte are checked for all 256
of them (`forall_byte`).

The lemmas about widths are stated for a mask, because the same field occurs with two, three, four
and five bits.  These are the masks that encodings use (`isSizeMask`), and nothing is said of
others.
-/

set_option autoImplicit false

namespace SignalRoute

theorem forall_byte {P : UInt8 → Prop} (h : ∀ i : Fin 256, P (.ofFin i)) (b : UInt8) : P b :=
  h b.toFin

/-! ## Widths -/

/-- What a width becomes that is written less one into the bits of `mask`. -/
def wrapSize (mask n : UInt8) : UInt8 := (lessOne n &&& mask) + 1

/-- The masks under which widths are written. -/
def isSizeMask (mask : UInt8) : Bool := mask == 0x3 || mask == 0x7 || mask == 0xf || mask == 0x1f

theorem wrapSize_eq_self_iff {mask : UInt8} (h : isSizeMask mask = true) (n : UInt8) :
    wrapSize mask n = n ↔ 1 ≤ n ∧ n ≤ mask + 1 := by
  have hmask : mask = 0x3 ∨ mask = 0x7 ∨ mask = 0xf ∨ mask = 0x1f := by
    simpa [isSizeMask, or_assoc] using h
  rcases hmask with rfl | rfl | rfl | rfl <;> revert n <;> exact forall_byte (by decide +kernel)

theorem toNat_lessOne (n : UInt8) : (lessOne n).toNat = n.toNat - 1 := by
  unfold lessOne
  split
  · subst n
    rfl
  · rename_i h
    have hne : n.toNat ≠ 0 := fun hzero => h (UInt8.toNat_inj.1 hzero)
    have hn := n.toNat_lt
    rw [UInt8.toNat_sub]
    simp only [UInt8.reduceToNat]
    omega

theorem lessOne_add_one {n : UInt8} (h : n ≠ 0xff) : lessOne (n + 1) = n := by
  have hne : n.toNat ≠ 255 := fun hmax => h (UInt8.toNat_inj.1 hmax)
  have hn := n.toNat_lt
  rw [← UInt8.toNat_inj, toNat_lessOne, UInt8.toNat_add]
  simp only [UInt8.reduceToNat]
  omega

theorem lessOne_add_one_eq_self_iff (n : UInt8) : lessOne n + 1 = n ↔ 1 ≤ n := by
  have hn := n.toNat_lt
  rw [← UInt8.toNat_inj, UInt8.toNat_add, toNat_lessOne, UInt8.le_iff_toNat_le]
  simp only [UInt8.reduceToNat]
  omega

theorem lessOne_ne_max (n : UInt8) : lessOne n ≠ 0xff := by
  have hn := n.toNat_lt
  rw [Ne, ← UInt8.toNat_inj, toNat_lessOne]
  simp only [UInt8.reduceToNat]
  omega

theorem widen_lessOne (n : UInt8) (what : String) : widen (lessOne n) what = .ok (lessOne n + 1) :=
  if_neg (lessOne_ne_max n)

theorem sizeBits_cases (n : UInt8) :
    sizeBits n = 0 ∨ sizeBits n = 1 ∨ sizeBits n = 2 ∨ sizeBits n = 3 := by
  have hle := UInt8.le_iff_toNat_le.1 (UInt8.and_le_right (a := lessOne n) (b := 0x3))
  simp only [sizeBits, ← UInt8.toNat_inj, UInt8.reduceToNat] at hle ⊢
  omega

theorem wrapSize_three (n : UInt8) : wrapSize 0x3 n = sizeBits n + 1 := rfl

/-! ## Words -/

theorem toNat_readUnsigned_leBytes {count : Nat} (h : count ≤ 8) (word : UInt64) :
    (readUnsigned (leBytes count word)).toNat = word.toNat % 256 ^ count := by
  rw [toNat_readUnsigned, List.take_of_length_le (by rw [length_leBytes]; exact h), value_leBytes]

theorem leBytes_two (n : UInt16) :
    ∃ b0 b1, leBytes 2 n.toUInt64 = [b0, b1] ∧ word16 b0 b1 = n := by
  refine ⟨_, _, rfl, ?_⟩
  show (readUnsigned (leBytes 2 n.toUInt64)).toUInt16 = n
  rw [← UInt16.toNat_inj, UInt64.toNat_toUInt16, toNat_readUnsigned_leBytes (by omega)]
  have := n.toNat_lt
  simp only [UInt16.toNat_toUInt64]
  omega

theorem leBytes_four (n : UInt32) :
    ∃ b0 b1 b2 b3, leBytes 4 n.toUInt64 = [b0, b1, b2, b3] ∧ word32 b0 b1 b2 b3 = n := by
  refine ⟨_, _, _, _, rfl, ?_⟩
  show (readUnsigned (leBytes 4 n.toUInt64)).toUInt32 = n
  rw [← UInt32.toNat_inj, UInt64.toNat_toUInt32, toNat_readUnsigned_leBytes (by omega)]
  have := n.toNat_lt
  simp only [UInt32.toNat_toUInt64]
  omega

theorem leBytes_signed (n : Int32) :
    ∃ b0 b1 b2 b3, leBytes32 n = [b0, b1, b2, b3] ∧ (word32 b0 b1 b2 b3).toInt32 = n := by
  obtain ⟨b0, b1, b2, b3, hbytes, hword⟩ := leBytes_four n.toUInt32
  exact ⟨b0, b1, b2, b3, hbytes, by rw [hword]; rfl⟩

/-! ## Fields of one width -/

theorem chunks_of_lt {size : Nat} {bytes : Bytes} (h : bytes.length < size) :
    chunks size bytes = [] := by
  rw [chunks, dif_neg (by omega)]

theorem chunks_append {size : Nat} {first rest : Bytes} (h : first.length = size)
    (hpos : 0 < size) :
    chunks size (first ++ rest) = first :: chunks size rest := by
  rw [chunks, dif_pos ⟨hpos, by simp; omega⟩, List.take_left' h, List.drop_left' h]

/-- Fields of one width, written behind each other, are cut apart again. -/
theorem chunks_flatMap {α : Type} {size : Nat} (hpos : 0 < size) (write : α → Bytes)
    (hwrite : ∀ a, (write a).length = size) (l : List α) :
    chunks size (l.flatMap write) = l.map write := by
  induction l with
  | nil => exact chunks_of_lt hpos
  | cons a rest ih => rw [List.flatMap_cons, chunks_append (hwrite a) hpos, ih, List.map_cons]

end SignalRoute
