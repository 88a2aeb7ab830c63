import Mathlib.Data.Int.Bitwise
import Mathlib.Data.Nat.Bitwise

/-! # Bit operations of Python's integers

  Python's `&` and `|` on integers of any size and sign, which read a
  negative number as infinitely many sign bits (`<<` and `>>` are
  `Int.shiftLeft` and `Int.shiftRight`). Masks and shifts of such a number
  are slices of its two's complement words.
-/

namespace PyInt

scoped instance int_and : AndOp Int := ⟨Int.land⟩

scoped instance int_or : OrOp Int := ⟨Int.lor⟩

/-! ### Natural numbers -/

theorem or_natCast (m n : Nat) : (m : Int) ||| (n : Int) = ((m ||| n : Nat) : Int) := rfl

theorem shiftLeft_natCast (m n : Nat) : (m : Int).shiftLeft n = ((m <<< n : Nat) : Int) := rfl

/-! ### Masks and slices -/

/-- A mask of `k` bits sees the low `k` bits of two's complement. -/
theorem and_natCast (a : Int) {m k : Nat} (hm : m < 2 ^ k) :
    a &&& (m : Int) = (((BitVec.ofInt k a).toNat &&& m : Nat) : Int) := by
  -- beyond the mask both sides are zero
  have hzero : ∀ i, ¬ i < k → m.testBit i = false := by
    intro i hi
    have hpow : 2 ^ k ≤ 2 ^ i := Nat.pow_le_pow_right (by decide) (Nat.le_of_not_lt hi)
    exact Nat.testBit_lt_two_pow (Nat.lt_of_lt_of_le hm hpow)
  cases a with
  | ofNat n =>
    show ((n &&& m : Nat) : Int) = (((BitVec.ofInt k (n : Int)).toNat &&& m : Nat) : Int)
    congr 1
    apply Nat.eq_of_testBit_eq
    intro i
    rw [Nat.testBit_and, Nat.testBit_and, BitVec.ofInt_natCast, BitVec.toNat_ofNat,
      Nat.testBit_mod_two_pow]
    by_cases hi : i < k
    · simp [hi]
    · simp [hzero i hi]
  | negSucc n =>
    show ((Nat.ldiff m n : Nat) : Int) = _
    congr 1
    apply Nat.eq_of_testBit_eq
    intro i
    rw [Nat.testBit_ldiff, Nat.testBit_and, BitVec.ofInt_negSucc_eq_not_ofNat, ← BitVec.getLsbD,
      BitVec.getLsbD_not, BitVec.getLsbD_ofNat]
    by_cases hi : i < k
    · simp [hi, Bool.and_comm]
    · simp [hzero i hi]

/-- `a & (2 ** k - 1)` -/
theorem and_mask (a : Int) (k : Nat) :
    a &&& ((2 ^ k - 1 : Nat) : Int) = ((BitVec.ofInt k a).toNat : Int) := by
  have hpos : 0 < 2 ^ k := Nat.pow_pos (by decide)
  rw [and_natCast a (Nat.sub_lt hpos (by decide)), Nat.and_two_pow_sub_one_eq_mod,
    Nat.mod_eq_of_lt (BitVec.isLt _)]

/-- The low `k` bits of `a >> s` are a slice of `a`. -/
theorem ofInt_shiftRight (a : Int) {s k n : Nat} (hn : s + k ≤ n) :
    BitVec.ofInt k (a.shiftRight s) = (BitVec.ofInt n a).extractLsb' s k := by
  apply BitVec.eq_of_getLsbD_eq
  intro i hi
  have hin : s + i < n := by omega
  rw [BitVec.getLsbD_extractLsb']
  cases a with
  | ofNat m =>
    show (BitVec.ofInt k ((m >>> s : Nat) : Int)).getLsbD i =
      (decide (i < k) && (BitVec.ofInt n (m : Int)).getLsbD (s + i))
    rw [BitVec.ofInt_natCast, BitVec.ofInt_natCast, BitVec.getLsbD_ofNat, BitVec.getLsbD_ofNat,
      Nat.testBit_shiftRight]
    simp [hi, hin]
  | negSucc m =>
    show (BitVec.ofInt k (Int.negSucc (m >>> s))).getLsbD i = _
    rw [BitVec.ofInt_negSucc_eq_not_ofNat, BitVec.ofInt_negSucc_eq_not_ofNat, BitVec.getLsbD_not,
      BitVec.getLsbD_not, BitVec.getLsbD_ofNat, BitVec.getLsbD_ofNat, Nat.testBit_shiftRight]
    simp [hi, hin]

/-- `(a >> s) & (2 ** k - 1)` -/
theorem shiftRight_and_mask (a : Int) {s k n : Nat} (hn : s + k ≤ n) :
    a.shiftRight s &&& ((2 ^ k - 1 : Nat) : Int) =
      (((BitVec.ofInt n a).extractLsb' s k).toNat : Int) := by
  rw [and_mask, ofInt_shiftRight a hn]

/-- A number that fits `k` bits with a sign is the extension of its low `k`
    bits. -/
theorem signExtend_ofInt {a : Int} {k : Nat} (n : Nat) (hk : 0 < k)
    (hlo : -(2 ^ (k - 1) : Nat) ≤ a) (hhi : a < (2 ^ (k - 1) : Nat)) :
    (BitVec.ofInt k a).signExtend n = BitVec.ofInt n a := by
  have hself : (BitVec.ofInt k a).toInt = a := BitVec.toInt_ofInt_eq_self hk hlo hhi
  rw [BitVec.signExtend, hself]

end PyInt
