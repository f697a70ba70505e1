import Mathlib.Algebra.Ring.Nat

/-!
# Unsigned words read as signed ones

The value stays as it is below the sign bit and turns negative from there on.
-/

set_option autoImplicit false

namespace Narrowing

variable {x y : UInt64}

theorem toInt_toInt64 (h : x.toNat < 2 ^ 63) : x.toInt64.toInt = x.toNat := by
  change x.toBitVec.toInt = _
  rw [BitVec.toInt_eq_toNat_of_lt]
  · rfl
  · change 2 * x.toNat < 2 ^ 64
    omega

theorem toInt64_nonneg_iff : 0 ≤ x.toInt64 ↔ x.toNat < 2 ^ 63 := by
  rw [Int64.le_iff_toInt_le]
  constructor
  · intro h
    by_contra hge
    have hneg : x.toInt64.toInt = x.toNat - 2 ^ 64 := by
      change x.toBitVec.toInt = _
      rw [BitVec.toInt_eq_toNat_cond, if_neg]
      · rfl
      · change ¬ 2 * x.toNat < 2 ^ 64
        omega
    have hlt := x.toNat_lt
    rw [hneg] at h
    change 0 ≤ (x.toNat : Int) - 2 ^ 64 at h
    omega
  · intro h
    rw [toInt_toInt64 h]
    exact Int.natCast_nonneg _

theorem toInt64_le_toInt64 (hx : x.toNat < 2 ^ 63) (hy : y.toNat < 2 ^ 63) :
    x.toInt64 ≤ y.toInt64 ↔ x ≤ y := by
  rw [Int64.le_iff_toInt_le, toInt_toInt64 hx, toInt_toInt64 hy, UInt64.le_iff_toNat_le]
  exact Int.ofNat_le

end Narrowing
