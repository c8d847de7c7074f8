/-!
# Signed and unsigned words of 32 bits

What the conversions between `int` and `uint32_t` do to the values.
-/

set_option autoImplicit false

namespace Foundation.MachineInt

theorem toUInt32_toNat (x : Int32) : (x.toUInt32.toNat : Int) = x.toInt % 4294967296 := by
  have bits := BitVec.toInt_eq_toNat_cond x.toBitVec
  have small := x.toUInt32.toNat_lt
  rw [Int32.toInt_toBitVec, Int32.toNat_toBitVec] at bits
  split at bits <;> omega

theorem toUInt32_toNat_of_nonneg {x : Int32} (nonneg : 0 ≤ x.toInt) :
    (x.toUInt32.toNat : Int) = x.toInt := by
  have value := toUInt32_toNat x
  have small := x.toInt_lt
  omega

/-- A sum of a signed and an unsigned word, read as signed again, is exact if it is not less
than the signed one. -/
theorem add_toInt32_toInt {x : Int32} {width : UInt32}
    (grows : x.toInt < (x.toUInt32 + width).toInt32.toInt) :
    (x.toUInt32 + width).toInt32.toInt = x.toInt + width.toNat := by
  have start := toUInt32_toNat x
  have stop := toUInt32_toNat (x.toUInt32 + width).toInt32
  rw [UInt32.toUInt32_toInt32, UInt32.toNat_add] at stop
  have lowest := x.le_toInt
  have highest := (x.toUInt32 + width).toInt32.toInt_lt
  have small := width.toNat_lt
  omega

/-- A step that stays below a signed word does not overflow. -/
theorem add_ofNat_toInt {x : Int32} {n : Nat} {stop : Int32} (below : x.toInt + n < stop.toInt) :
    (x + Int32.ofNat n).toInt = x.toInt + n := by
  have lowest := x.le_toInt
  have highest := stop.toInt_lt
  rw [Int32.toInt_add, Int32.toInt_ofNat', Int32.size, Int.add_bmod_bmod]
  exact Int.bmod_eq_of_le (by omega) (by omega)

theorem half_toInt {x : Int32} (nonneg : 0 ≤ x.toInt) : (x / 2).toInt = x.toInt / 2 := by
  rw [Int32.toInt_div_of_ne_right x 2 (by decide)]
  exact Int.tdiv_eq_ediv_of_nonneg nonneg

/-- `x & ~7` -/
theorem and_not_seven_toNat (x : UInt32) : (x &&& ~~~7).toNat = x.toNat / 8 * 8 := by
  have mask : (~~~7 : UInt32).toNat = 2 ^ 3 * (2 ^ 29 - 1) := by decide
  have small := x.toNat_lt
  have shifted : x.toNat / 8 * 8 = x.toNat / 2 ^ 3 * 2 ^ 3 := rfl
  rw [UInt32.toNat_and, mask, shifted]
  apply Nat.eq_of_testBit_eq
  intro bit
  rw [Nat.testBit_and, Nat.testBit_two_pow_mul, Nat.testBit_two_pow_sub_one,
    Nat.testBit_mul_two_pow, Nat.testBit_div_two_pow]
  by_cases low : bit < 3
  · simp [Nat.not_le.mpr low]
  · rw [Nat.sub_add_cancel (Nat.le_of_not_lt low)]
    by_cases inside : bit < 32
    · have counted : bit - 3 < 29 := by omega
      simp [Nat.le_of_not_lt low, counted]
    · have beyond : x.toNat < 2 ^ bit :=
        Nat.lt_of_lt_of_le small (Nat.pow_le_pow_right Nat.two_pos (Nat.le_of_not_lt inside))
      simp [Nat.testBit_lt_two_pow beyond]

end Foundation.MachineInt
