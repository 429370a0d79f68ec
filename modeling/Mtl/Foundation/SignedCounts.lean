import Mathlib.Algebra.Order.Ring.Int

/-! Signed 64-bit counts that are read as unsigned ones, and sums that stop at the top. -/
namespace Mtl.Foundation

private theorem toNat_cases (x : Int64) :
    (x.toUInt64.toNat : Int) = x.toInt ∧ 0 ≤ x.toInt ∨ (x.toUInt64.toNat : Int) = x.toInt + 2^64 ∧ x.toInt < 0 := by
  have hcond : x.toInt = if 2 * x.toUInt64.toNat < 2^64 then (x.toUInt64.toNat : Int)
      else (x.toUInt64.toNat : Int) - (2^64 : Nat) := BitVec.toInt_eq_toNat_cond x.toBitVec
  have hlt := x.toUInt64.toNat_lt
  split_ifs at hcond <;> omega

/-- A negative count is read as one beyond all others. -/
theorem toNat_toUInt64 (x : Int64) :
    (x.toUInt64.toNat : Int) = if 0 ≤ x.toInt then x.toInt else x.toInt + 2^64 := by
  have := toNat_cases x
  split_ifs <;> omega

/-- The order of two counts is kept unless they lie on the two sides of zero. -/
theorem toUInt64_le_iff {x y : Int64} (h : x.toInt ≤ y.toInt) :
    x.toUInt64 ≤ y.toUInt64 ↔ 0 ≤ x.toInt ∨ y.toInt < 0 := by
  have hx := toNat_cases x
  have hy := toNat_cases y
  have hbound := y.toInt_lt
  have hbound' := x.le_toInt
  rw [UInt64.le_iff_toNat_le]
  omega

/-- The sum, or the greatest count if that is less. -/
def saturatingAdd (a b : UInt64) : UInt64 := if a + b < a then 0xFFFFFFFFFFFFFFFF else a + b

theorem toNat_saturatingAdd (a b : UInt64) : (saturatingAdd a b).toNat = min (a.toNat + b.toNat) (2^64 - 1) := by
  have ha := a.toNat_lt
  have hb := b.toNat_lt
  have hsum := UInt64.toNat_add a b
  unfold saturatingAdd
  split_ifs with h
  all_goals rw [UInt64.lt_iff_toNat_lt] at h
  · have htop : (0xFFFFFFFFFFFFFFFF : UInt64).toNat = 2^64 - 1 := rfl
    rw [htop]
    omega
  · omega

/-- Below the top a sum is in the order of what is added. -/
theorem saturatingAdd_le_iff (a : UInt64) {b c : UInt64} :
    saturatingAdd a b ≤ saturatingAdd a c ↔ b ≤ c ∨ 2^64 - 1 ≤ a.toNat + c.toNat := by
  rw [UInt64.le_iff_toNat_le, UInt64.le_iff_toNat_le, toNat_saturatingAdd, toNat_saturatingAdd]
  omega

end Mtl.Foundation
