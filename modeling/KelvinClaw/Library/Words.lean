import Mathlib.Algebra.Ring.Int.Defs
import Mathlib.Algebra.Ring.Nat
import Mathlib.Tactic.SplitIfs

/-!
# Halves of a word

A word of 64 bits is made of two words of 32 bits, and taken apart into them again. As a signed
number it is positive exactly if its upper half is, or if that is zero and the lower half is not.
-/

namespace Systems

def joinHalves (high low : UInt32) : UInt64 := high.toUInt64 <<< 32 ||| low.toUInt64

def upperHalf (word : UInt64) : UInt32 := (word >>> 32).toUInt32

def lowerHalf (word : UInt64) : UInt32 := (word &&& 0xFFFFFFFF).toUInt32

theorem toNat_joinHalves (high low : UInt32) :
    (joinHalves high low).toNat = high.toNat * 2 ^ 32 + low.toNat := by
  have small : high.toNat * 2 ^ 32 < 2 ^ 64 := by
    have := high.toNat_lt
    omega
  have shifted : (high.toUInt64 <<< 32).toNat = high.toNat <<< 32 := by
    have places : (32 : UInt64).toNat % 64 = 32 := rfl
    rw [UInt64.toNat_shiftLeft, UInt32.toNat_toUInt64, places, Nat.shiftLeft_eq,
      Nat.mod_eq_of_lt small]
  -- the lower half fills the places that the shift has left empty
  rw [joinHalves, UInt64.toNat_or, shifted, UInt32.toNat_toUInt64,
    ← Nat.shiftLeft_add_eq_or_of_lt low.toNat_lt, Nat.shiftLeft_eq]

theorem toNat_upperHalf (word : UInt64) : (upperHalf word).toNat = word.toNat / 2 ^ 32 := by
  have bound := word.toNat_lt
  rw [upperHalf, UInt64.toNat_toUInt32, UInt64.toNat_shiftRight, Nat.shiftRight_eq_div_pow]
  refine Nat.mod_eq_of_lt ?_
  change word.toNat / 2 ^ 32 < 2 ^ 32
  omega

theorem toNat_lowerHalf (word : UInt64) : (lowerHalf word).toNat = word.toNat % 2 ^ 32 := by
  rw [lowerHalf, UInt64.toNat_toUInt32, UInt64.toNat_and]
  change (word.toNat &&& (2 ^ 32 - 1)) % 2 ^ 32 = _
  rw [Nat.and_two_pow_sub_one_eq_mod, Nat.mod_mod]

@[simp] theorem joinHalves_halves (word : UInt64) :
    joinHalves (upperHalf word) (lowerHalf word) = word := by
  apply UInt64.toNat_inj.mp
  rw [toNat_joinHalves, toNat_upperHalf, toNat_lowerHalf, Nat.mul_comm]
  exact Nat.div_add_mod _ _

@[simp] theorem upperHalf_joinHalves (high low : UInt32) :
    upperHalf (joinHalves high low) = high := by
  apply UInt32.toNat_inj.mp
  have := low.toNat_lt
  rw [toNat_upperHalf, toNat_joinHalves]
  omega

@[simp] theorem lowerHalf_joinHalves (high low : UInt32) :
    lowerHalf (joinHalves high low) = low := by
  apply UInt32.toNat_inj.mp
  have := low.toNat_lt
  rw [toNat_lowerHalf, toNat_joinHalves]
  omega

theorem toInt64_pos_iff {word : UInt64} :
    0 < word.toInt64 ↔ 0 < word.toNat ∧ word.toNat < 2 ^ 63 := by
  have int : word.toInt64.toInt = if 2 * word.toNat < 2 ^ 64 then (word.toNat : ℤ)
      else word.toNat - (2 ^ 64 : ℕ) := BitVec.toInt_eq_toNat_cond word.toBitVec
  have bound := word.toNat_lt
  rw [Int64.lt_iff_toInt_lt, Int64.toInt_zero, int]
  split_ifs <;> omega

theorem toInt32_pos_iff {word : UInt32} :
    0 < word.toInt32 ↔ 0 < word.toNat ∧ word.toNat < 2 ^ 31 := by
  have int : word.toInt32.toInt = if 2 * word.toNat < 2 ^ 32 then (word.toNat : ℤ)
      else word.toNat - (2 ^ 32 : ℕ) := BitVec.toInt_eq_toNat_cond word.toBitVec
  have bound := word.toNat_lt
  rw [Int32.lt_iff_toInt_lt, Int32.toInt_zero, int]
  split_ifs <;> omega

theorem toNatClampNeg_ofNat {n : ℕ} (fits : n < 2 ^ 31) : (Int32.ofNat n).toNatClampNeg = n := by
  rw [Int32.toNatClampNeg, Int32.toInt_ofNat_of_lt fits, Int.toNat_natCast]

theorem ofNat_nonneg {n : ℕ} (fits : n < 2 ^ 31) : 0 ≤ Int32.ofNat n := by
  rw [Int32.le_iff_toInt_le, Int32.toInt_ofNat_of_lt fits]
  exact Int.natCast_nonneg n

/-- The sign of a word is that of its upper half. -/
theorem toInt64_joinHalves_pos_iff {high low : UInt32} :
    0 < (joinHalves high low).toInt64 ↔ 0 < high.toInt32 ∨ high = 0 ∧ low ≠ 0 := by
  have bound := low.toNat_lt
  rw [toInt64_pos_iff, toInt32_pos_iff, toNat_joinHalves, ne_eq, ← UInt32.toNat_inj,
    ← UInt32.toNat_inj, UInt32.toNat_zero]
  omega

end Systems
