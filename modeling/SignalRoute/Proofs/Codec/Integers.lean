import Mathlib.Algebra.BigOperators.Fin
import Mathlib.Data.Int.ModEq
import SignalRoute.Proofs.Word

/-!
# The integers in a payload

A channel of a payload, a tick and a data word of a log record are runs of at most eight bytes, and
two readers turn them into numbers.  `Proofs.Word` says what they compute in terms of `value`; this
file says it in terms of the bytes themselves.

* `toNat_readUnsigned_eq_sum` is the positional sum, over the bytes that are there or the first
  eight.
* `readSigned_modEq` and `readSigned_range` pin the signed reader down: the number in the two's
  complement range of the width that was read which agrees with the unsigned one modulo that width.
* `readSigned_leBytes` and `readUnsigned_leBytes` read back what was written.  The signed reader
  covers all eight widths.  The unsigned one stops at seven bytes, since a negative number fills the
  eighth.
-/

set_option autoImplicit false

namespace SignalRoute

variable (bytes : Bytes)

/-! ## The unsigned reader -/

theorem value_eq_sum :
    value bytes = ∑ i ∈ Finset.range bytes.length, (bytes.getD i 0).toNat * 256 ^ i := by
  induction bytes with
  | nil => rfl
  | cons b rest ih =>
    rw [value, ih, List.length_cons, Finset.sum_range_succ', Finset.mul_sum, Nat.add_comm]
    congr 1
    · refine Finset.sum_congr rfl fun i _ => ?_
      rw [List.getD_cons_succ, Nat.pow_succ', Nat.mul_left_comm]
    · rw [List.getD_cons_zero, Nat.pow_zero, Nat.mul_one]

theorem toNat_readUnsigned_eq_sum :
    (readUnsigned bytes).toNat
      = ∑ i ∈ Finset.range (min bytes.length 8), (bytes.getD i 0).toNat * 256 ^ i := by
  rw [toNat_readUnsigned, value_eq_sum, List.length_take, Nat.min_comm]
  refine Finset.sum_congr rfl fun i hi => ?_
  have hlt : i < 8 := by
    have := Finset.mem_range.1 hi
    omega
  rw [List.getD_eq_getElem?_getD, List.getD_eq_getElem?_getD, List.getElem?_take_of_lt hlt]

theorem readUnsigned_take : readUnsigned (bytes.take 8) = readUnsigned bytes := by
  rw [readUnsigned, readUnsigned, List.take_take, Nat.min_self]

/-! ## The signed reader -/

theorem readSigned_take : readSigned (bytes.take 8) = readSigned bytes := by
  rw [readSigned, readSigned, List.take_take, Nat.min_self]

/-- The number of values that the bytes of one reading can take. -/
theorem pow_bytes_eq (w : Nat) : 256 ^ w = 2 ^ (8 * w) := by
  rw [Nat.pow_mul]

/-- The signed reading is the unsigned one folded around zero. -/
theorem toInt_readSigned_eq_bmod :
    (readSigned bytes).toInt
      = ((readUnsigned bytes).toNat : Int).bmod (2 ^ (8 * min bytes.length 8)) := by
  rw [toInt_readSigned, toNat_readUnsigned, List.length_take, Nat.min_comm, pow_bytes_eq]

theorem readSigned_modEq :
    (readSigned bytes).toInt ≡ (readUnsigned bytes).toNat
      [ZMOD 2 ^ (8 * min bytes.length 8)] := by
  rw [toInt_readSigned_eq_bmod]
  generalize 8 * min bytes.length 8 = k
  have hcast : ((2 ^ k : Nat) : Int) = 2 ^ k := by push_cast; rfl
  rw [Int.ModEq, ← hcast]
  exact Int.bmod_emod

theorem readSigned_range (h : bytes ≠ []) :
    -2 ^ (8 * min bytes.length 8 - 1) ≤ (readSigned bytes).toInt ∧
      (readSigned bytes).toInt < 2 ^ (8 * min bytes.length 8 - 1) := by
  have hlen := List.length_pos_iff.2 h
  rw [toInt_readSigned_eq_bmod]
  obtain ⟨k, hk⟩ : ∃ k, 8 * min bytes.length 8 = k + 1 := ⟨8 * min bytes.length 8 - 1, by omega⟩
  rw [hk, Nat.add_sub_cancel]
  have hhalf : 2 ^ (k + 1) = 2 * 2 ^ k := Nat.pow_succ'
  have hcast : (2 : Int) ^ k = ((2 ^ k : Nat) : Int) := by push_cast; rfl
  have hpos : 0 < 2 ^ (k + 1) := Nat.two_pow_pos _
  have hlow := Int.le_bmod (x := ((readUnsigned bytes).toNat : Int)) hpos
  have hhigh := Int.bmod_lt (x := ((readUnsigned bytes).toNat : Int)) hpos
  rw [hcast]
  omega

/-! ## Reading back what was written -/

theorem readSigned_leBytes {w : Nat} (hpos : 0 < w) (hle : w ≤ 8) {x : Int64}
    (hlow : -2 ^ (8 * w - 1) ≤ x.toInt) (hhigh : x.toInt < 2 ^ (8 * w - 1)) :
    readSigned (leBytes w x.toUInt64) = x := by
  obtain ⟨k, hk⟩ : ∃ k, 8 * w = k + 1 := ⟨8 * w - 1, by omega⟩
  rw [hk, Nat.add_sub_cancel] at hlow hhigh
  have htake : (leBytes w x.toUInt64).take 8 = leBytes w x.toUInt64 :=
    List.take_of_length_le (by rw [length_leBytes]; exact hle)
  have hcast : (2 : Int) ^ k = ((2 ^ k : Nat) : Int) := by push_cast; rfl
  have hwidth : 256 ^ w = 2 * 2 ^ k := by rw [pow_bytes_eq, hk, Nat.pow_succ']
  have hvalue : (value (leBytes w x.toUInt64) : Int) = x.toInt % ((256 ^ w : Nat) : Int) := by
    rw [value_leBytes, toNat_toUInt64_emod x hle]
    push_cast
    rfl
  rw [← Int64.toInt_inj, toInt_readSigned, htake, length_leBytes, hvalue, Int.emod_bmod]
  exact Int.bmod_eq_of_le_mul_two (by omega) (by omega)

theorem readUnsigned_leBytes {w : Nat} (hlt : w < 8) {x : Int64} (hlow : 0 ≤ x.toInt)
    (hhigh : x.toInt < 2 ^ (8 * w)) :
    ((readUnsigned (leBytes w x.toUInt64)).toNat : Int) = x.toInt := by
  have htake : (leBytes w x.toUInt64).take 8 = leBytes w x.toUInt64 :=
    List.take_of_length_le (by rw [length_leBytes]; omega)
  have hwidth : (256 : Int) ^ w = 2 ^ (8 * w) := by
    rw [pow_mul]
    rfl
  rw [toNat_readUnsigned, htake, value_leBytes, toNat_toUInt64_emod x (by omega), hwidth]
  exact Int.emod_eq_of_lt hlow hhigh

/-- **The readers are exact.**  The unsigned one is the positional sum of the first eight bytes.
The signed one is the two's complement number of the same bytes, zero where there are none.
Neither sees a byte past the eighth, and both read back every number that the bytes can hold: the
signed one at every width, the unsigned one below eight bytes. -/
theorem readers_exact :
    (readUnsigned bytes).toNat
      = ∑ i ∈ Finset.range (min bytes.length 8), (bytes.getD i 0).toNat * 256 ^ i ∧
    (readSigned bytes).toInt ≡ (readUnsigned bytes).toNat
      [ZMOD 2 ^ (8 * min bytes.length 8)] ∧
    (0 < min bytes.length 8 →
      -2 ^ (8 * min bytes.length 8 - 1) ≤ (readSigned bytes).toInt ∧
        (readSigned bytes).toInt < 2 ^ (8 * min bytes.length 8 - 1)) ∧
    (min bytes.length 8 = 0 → readSigned bytes = 0) ∧
    readUnsigned (bytes.take 8) = readUnsigned bytes ∧
    readSigned (bytes.take 8) = readSigned bytes ∧
    ∀ w, 1 ≤ w → w ≤ 8 → ∀ x : Int64,
      (-2 ^ (8 * w - 1) ≤ x.toInt → x.toInt < 2 ^ (8 * w - 1) →
        readSigned (leBytes w x.toUInt64) = x) ∧
      (w < 8 → 0 ≤ x.toInt → x.toInt < 2 ^ (8 * w) →
        ((readUnsigned (leBytes w x.toUInt64)).toNat : Int) = x.toInt) := by
  refine ⟨toNat_readUnsigned_eq_sum bytes, readSigned_modEq bytes, fun h => ?_, fun h => ?_,
    readUnsigned_take bytes, readSigned_take bytes, fun w hpos hle x => ⟨?_, ?_⟩⟩
  · refine readSigned_range bytes fun hnil => ?_
    simp [hnil] at h
  · have hnil : bytes = [] := by
      cases bytes with
      | nil => rfl
      | cons b rest => simp at h
    rw [hnil]
    rfl
  · exact readSigned_leBytes hpos hle
  · exact fun hlt => readUnsigned_leBytes hlt

/-- Two bytes with the sign bit set are in the range of two bytes, no byte reads as zero, and the
lowest number of three bytes and the highest of seven come back. -/
theorem readers_exact_at_the_ends :
    (-2 ^ 15 ≤ (readSigned [0x00, 0x80]).toInt ∧ (readSigned [0x00, 0x80]).toInt < 2 ^ 15) ∧
      readSigned [] = 0 ∧
      readSigned (leBytes 3 (Int64.toUInt64 (-8388608))) = -8388608 ∧
      (readUnsigned (leBytes 7 (Int64.toUInt64 72057594037927935))).toNat
        = (72057594037927935 : Int) := by
  obtain ⟨-, -, hrange, -, -, -, -⟩ := readers_exact [0x00, 0x80]
  obtain ⟨-, -, -, hnone, -, -, hread⟩ := readers_exact []
  exact ⟨hrange (by decide), hnone rfl,
    (hread 3 (by decide) (by decide) (-8388608)).1 (by decide) (by decide),
    (hread 7 (by decide) (by decide) 72057594037927935).2 (by decide) (by decide) (by decide)⟩

end SignalRoute
