import Mathlib.Tactic.IntervalCases
import Mathlib.Tactic.Positivity
import SignalRoute.Processor.Decode

/-!
# What little-endian bytes stand for

The readers and the writer of words work on machine words, by shifts; the statements here are about
the numbers behind them.

* `toNat_readUnsigned` and `toInt_readSigned` say which number the readers compute: `value`, as it
  is or folded into the two's complement range of the bytes that were read.
* `value_leBytes` says what the writer keeps of a word.
* `readReference_leBytes_iff` puts the two together: a number comes back from its low bytes exactly
  if it lies in their range, `FitsBytes`.

The sign of `readSigned` is spread by two shifts whose distance depends on the width, and
`toInt_shiftLeft_shiftRight` is the one place where shifts of words are looked at.

Everything is stated with a number of bytes and not for one width after the other.  The widths of
this program go from one byte to eight, and which of them occur depends on the sensor; only the
reader of a reference is limited to seven bytes, since eight unsigned ones do not fit a signed word.
-/

set_option autoImplicit false

namespace SignalRoute

/-! ## Numbers of byte lists -/

theorem value_lt (bytes : Bytes) : value bytes < 256 ^ bytes.length := by
  induction bytes with
  | nil => simp [value]
  | cons b rest ih =>
    have hb := b.toNat_lt
    rw [value, List.length_cons, Nat.pow_succ]
    omega

theorem toNat_gather {bytes : Bytes} (h : bytes.length ≤ 8) :
    (gather bytes).toNat = value bytes := by
  induction bytes with
  | nil => rfl
  | cons b rest ih =>
    rw [List.length_cons] at h
    have hb := b.toNat_lt
    have hrest := value_lt rest
    have hpow : 256 ^ rest.length ≤ 256 ^ 7 := Nat.pow_le_pow_right (by omega) (by omega)
    have hor := Nat.two_pow_add_eq_or_of_lt (i := 8) (b := b.toNat) (by omega) (value rest)
    have hshift : value rest <<< 8 % 2 ^ 64 = 2 ^ 8 * value rest := by
      rw [Nat.shiftLeft_eq, Nat.mod_eq_of_lt (by omega)]
      omega
    rw [gather, UInt64.toNat_or, UInt64.toNat_shiftLeft, ih (by omega), UInt8.toNat_toUInt64,
      show (8 : UInt64).toNat % 64 = 8 from rfl, hshift, Nat.or_comm, ← hor, value]
    omega

theorem toNat_readUnsigned (bytes : Bytes) : (readUnsigned bytes).toNat = value (bytes.take 8) :=
  toNat_gather (by simp)

theorem value_leBytes (count : Nat) (word : UInt64) :
    value (leBytes count word) = word.toNat % 256 ^ count := by
  induction count generalizing word with
  | zero => simp [leBytes, value, Nat.mod_one]
  | succ n ih =>
    rw [leBytes, value, ih, UInt64.toNat_shiftRight, UInt64.toNat_toUInt8,
      show (8 : UInt64).toNat % 64 = 8 from rfl, Nat.shiftRight_eq_div_pow,
      show 256 ^ (n + 1) = 256 * 256 ^ n from Nat.pow_succ', Nat.mod_mul]

theorem take_leBytes {n count : Nat} (h : n ≤ count) (word : UInt64) :
    (leBytes count word).take n = leBytes n word := by
  induction n generalizing count word with
  | zero => rfl
  | succ n ih =>
    obtain ⟨m, rfl⟩ : ∃ m, count = m + 1 := ⟨count - 1, by omega⟩
    rw [leBytes, leBytes, List.take_succ_cons, ih (by omega)]

/-! ## The sign

The width enters as the distance of the shifts, a number between 0 and 63, so it is enough to know
what two shifts do to a word in general.
-/

/-- Shifting a word up and, with its sign, down again keeps its low bits as a two's complement
number. -/
theorem toInt_shiftLeft_shiftRight (word : UInt64) {s : Nat} (hs : s < 64)
    (hw : word.toNat < 2 ^ (64 - s)) :
    ((word <<< UInt64.ofNat s).toInt64 >>> (UInt64.ofNat s).toInt64).toInt
      = (word.toNat : Int).bmod (2 ^ (64 - s)) := by
  have hshift : ((UInt64.ofNat s).toInt64.toBitVec.smod 64).toNat = s ∧
      (UInt64.ofNat s).toNat % 64 = s := by
    clear hw
    interval_cases s <;> exact ⟨rfl, rfl⟩
  have hpow : 2 ^ s * 2 ^ (64 - s) = 2 ^ 64 := by
    rw [← Nat.pow_add]
    congr 1
    omega
  have hfit : 2 ^ s * word.toNat < 2 ^ 64 := by
    rw [← hpow]
    exact Nat.mul_lt_mul_of_pos_left hw (Nat.two_pow_pos s)
  have heven : 2 ∣ 2 ^ (64 - s) := Nat.pow_dvd_pow 2 (show 1 ≤ 64 - s by omega)
  rw [← Int64.toInt_toBitVec, Int64.toBitVec_shiftRight, BitVec.sshiftRight_eq', hshift.1,
    BitVec.toInt_sshiftRight, UInt64.toBitVec_toInt64, BitVec.toInt_eq_toNat_bmod,
    UInt64.toNat_toBitVec, UInt64.toNat_shiftLeft, hshift.2, Nat.shiftLeft_eq, Nat.mul_comm,
    Nat.mod_eq_of_lt hfit, ← hpow, Int.shiftRight_eq_div_pow, Int.natCast_mul,
    Int.mod_bmod_mul_of_pos _ _ (Nat.two_pow_pos s) heven]
  exact Int.mul_ediv_cancel_left _ (by positivity)

theorem toInt_readSigned (bytes : Bytes) :
    (readSigned bytes).toInt
      = (value (bytes.take 8) : Int).bmod (256 ^ (bytes.take 8).length) := by
  rw [readSigned]
  generalize hw : bytes.take 8 = w
  have hlen : w.length ≤ 8 := by simp [← hw]
  cases w with
  | nil => rfl
  | cons b rest =>
    have hg := toNat_gather hlen
    have hv := value_lt (b :: rest)
    rw [List.length_cons] at hlen
    have hwidth : 256 ^ (b :: rest).length = 2 ^ (64 - (64 - 8 * (rest.length + 1))) := by
      rw [show 256 = 2 ^ 8 from rfl, ← Nat.pow_mul, List.length_cons]
      congr 1
      omega
    have hshift : 64 - 8 * UInt64.ofNat (rest.length + 1)
        = UInt64.ofNat (64 - 8 * (rest.length + 1)) := by
      generalize rest.length = n at hlen ⊢
      have hn : n < 8 := hlen
      interval_cases n <;> rfl
    simp only [hshift]
    rw [hwidth, ← hg]
    exact toInt_shiftLeft_shiftRight _ (by omega) (by rw [hg, ← hwidth]; exact hv)

/-! ## Reading back what was written -/

/-- Does a number lie in the range of `count` bytes?  The signed range is the two's complement
one. -/
def FitsBytes (signed : Bool) (count : Nat) (n : Int) : Prop :=
  if signed then -256 ^ count ≤ 2 * n ∧ 2 * n < 256 ^ count else 0 ≤ n ∧ n < 256 ^ count

instance (signed : Bool) (count : Nat) (n : Int) : Decidable (FitsBytes signed count n) := by
  unfold FitsBytes
  infer_instance

theorem fitsBytes_zero (signed : Bool) (count : Nat) :
    FitsBytes signed count (0 : Int64).toInt := by
  rw [FitsBytes]
  cases signed <;> simp

/-- A word in a signed type differs from its number by a multiple of what its low bytes hold. -/
theorem toNat_toUInt64_emod (n : Int64) {count : Nat} (h : count ≤ 8) :
    ((n.toUInt64.toNat % 256 ^ count : Nat) : Int) = n.toInt % 256 ^ count := by
  have hdvd : (256 ^ count : Int) ∣ 2 ^ 64 := by
    rw [show (2 : Int) ^ 64 = 256 ^ 8 from rfl]
    exact pow_dvd_pow 256 h
  have hword : (n.toUInt64.toNat : Int) = n.toInt % 2 ^ 64 := by
    rw [← Int64.toInt_toBitVec, BitVec.toInt_eq_toNat_bmod,
      show (2 : Int) ^ 64 = ((2 ^ 64 : Nat) : Int) from rfl, Int.bmod_emod]
    exact (Int.emod_eq_of_lt (by omega) (by have := n.toUInt64.toNat_lt; omega)).symm
  rw [Int.natCast_mod, hword, Int.natCast_pow, Int.cast_ofNat_Int, Int.emod_emod_of_dvd _ hdvd]

theorem toInt_readReference (signed : Bool) (n : Int64) {count : Nat} (h : count < 8) :
    (readReference signed (leBytes count n.toUInt64)).toInt
      = if signed then n.toInt.bmod (256 ^ count) else n.toInt % 256 ^ count := by
  have htake : (leBytes count n.toUInt64).take 8 = leBytes count n.toUInt64 := by
    rw [List.take_of_length_le]
    rw [length_leBytes]
    omega
  have hvalue : ((value (leBytes count n.toUInt64) : Nat) : Int) = n.toInt % 256 ^ count := by
    rw [value_leBytes, toNat_toUInt64_emod n (by omega)]
  cases signed with
  | true =>
    simp only [readReference, if_true, toInt_readSigned, htake, hvalue, length_leBytes]
    have hcast : (256 ^ count : Int) = ((256 ^ count : Nat) : Int) := by push_cast; rfl
    rw [hcast, Int.emod_bmod]
  | false =>
    have hlt : value (leBytes count n.toUInt64) < 2 ^ 63 := by
      have := value_lt (leBytes count n.toUInt64)
      rw [length_leBytes] at this
      have : 256 ^ count ≤ 256 ^ 7 := Nat.pow_le_pow_right (by omega) (by omega)
      omega
    have hread : (readUnsigned (leBytes count n.toUInt64)).toNat
        = value (leBytes count n.toUInt64) := by rw [toNat_readUnsigned, htake]
    simp only [readReference, Bool.false_eq_true, if_false]
    rw [← hvalue, ← Int64.toInt_toBitVec, UInt64.toBitVec_toInt64, BitVec.toInt_eq_toNat_bmod,
      UInt64.toNat_toBitVec, hread]
    exact Int.bmod_eq_of_le_mul_two (by omega) (by omega)

/-- **A number comes back from its low bytes exactly if it lies in their range.** -/
theorem readReference_leBytes_iff (signed : Bool) (n : Int64) {count : Nat} (h : count < 8) :
    readReference signed (leBytes count n.toUInt64) = n ↔ FitsBytes signed count n.toInt := by
  have hpos : 0 < 256 ^ count := Nat.pow_pos (by omega)
  have hcast : (256 ^ count : Int) = ((256 ^ count : Nat) : Int) := by push_cast; rfl
  rw [← Int64.toInt_inj, toInt_readReference signed n h, FitsBytes, hcast]
  generalize 256 ^ count = m at hpos
  cases signed with
  | true =>
    simp only [if_true]
    constructor
    · intro heq
      have hlow := Int.le_bmod (x := n.toInt) hpos
      have hhigh := Int.bmod_lt (x := n.toInt) hpos
      omega
    · rintro ⟨hlow, hhigh⟩
      exact Int.bmod_eq_of_le_mul_two (by omega) (by omega)
  | false =>
    simp only [Bool.false_eq_true, if_false]
    constructor
    · intro heq
      have hlow := Int.emod_nonneg n.toInt (b := m) (by omega)
      have hhigh := Int.emod_lt_of_pos n.toInt (b := m) (by omega)
      omega
    · rintro ⟨hlow, hhigh⟩
      exact Int.emod_eq_of_lt hlow hhigh

end SignalRoute
