import Mathlib.Data.Nat.Size
import Mathlib.Data.Nat.Bitwise
import Mathlib.Order.Compare

/-!
# Strings of bytes as numbers, and the distance of their exclusive or

The first byte is the most significant one, so strings of one length compare as the numbers
do. The distance of two numbers is the length of their exclusive or: it separates them, is
symmetric, and of three distances no one is above both of the others.
-/

set_option autoImplicit false

namespace XorMetric

def value : List UInt8 → ℕ
  | [] => 0
  | b :: bs => 2 ^ (8 * bs.length) * b.toNat + value bs

def xor (as bs : List UInt8) : List UInt8 := List.zipWith (· ^^^ ·) as bs

/-- The zeros above the first one bit. -/
def leadingZeros : List UInt8 → ℕ
  | [] => 0
  | b :: bs => if b = 0 then 8 + leadingZeros bs else 8 - b.toNat.size

/-- The length of the exclusive or. -/
def dist (m n : ℕ) : ℕ := (m ^^^ n).size

theorem length_xor {as bs : List UInt8} (h : as.length = bs.length) :
    (xor as bs).length = as.length := by
  rw [xor, List.length_zipWith, h, Nat.min_self]

theorem toNat_lt (b : UInt8) : b.toNat < 2 ^ 8 := b.toNat_lt

theorem value_lt (bs : List UInt8) : value bs < 2 ^ (8 * bs.length) := by
  induction bs with
  | nil => exact Nat.one_pos
  | cons b bs ih =>
    have hb : b.toNat + 1 ≤ 2 ^ 8 := toNat_lt b
    have hmul := Nat.mul_le_mul_left (2 ^ (8 * bs.length)) hb
    rw [Nat.mul_add, Nat.mul_one, ← Nat.pow_add] at hmul
    have hlen : 8 * (b :: bs).length = 8 * bs.length + 8 := by
      rw [List.length_cons, Nat.mul_add]
    rw [value, hlen]
    omega

theorem value_injective {as bs : List UInt8} (hlen : as.length = bs.length)
    (h : value as = value bs) : as = bs := by
  induction as generalizing bs with
  | nil =>
    cases bs with
    | nil => rfl
    | cons b bs => cases hlen
  | cons a as ih =>
    cases bs with
    | nil => cases hlen
    | cons b bs =>
      have hlen' : as.length = bs.length := Nat.succ.inj hlen
      have ha := value_lt as
      have hb := value_lt bs
      have hpos : 0 < 2 ^ (8 * bs.length) := Nat.two_pow_pos _
      rw [value, value, hlen'] at h
      rw [hlen'] at ha
      have hdiv := congrArg (· / 2 ^ (8 * bs.length)) h
      have hmod := congrArg (· % 2 ^ (8 * bs.length)) h
      simp only [Nat.mul_add_div hpos, Nat.mul_add_mod, Nat.div_eq_of_lt ha,
        Nat.div_eq_of_lt hb, Nat.mod_eq_of_lt ha, Nat.mod_eq_of_lt hb, Nat.add_zero] at hdiv hmod
      rw [UInt8.toNat_inj.mp hdiv, ih hlen' hmod]

/-- The exclusive or of the strings is that of the numbers. -/
theorem value_xor {as bs : List UInt8} (hlen : as.length = bs.length) :
    value (xor as bs) = value as ^^^ value bs := by
  induction as generalizing bs with
  | nil =>
    cases bs with
    | nil => rfl
    | cons b bs => cases hlen
  | cons a as ih =>
    cases bs with
    | nil => cases hlen
    | cons b bs =>
      have hlen' : as.length = bs.length := Nat.succ.inj hlen
      have hxor : xor (a :: as) (b :: bs) = (a ^^^ b) :: xor as bs := rfl
      have ha := value_lt as
      have hb := value_lt bs
      rw [hlen'] at ha
      have hab : value as ^^^ value bs < 2 ^ (8 * bs.length) := Nat.xor_lt_two_pow ha hb
      rw [hxor, value, value, value, ih hlen', length_xor hlen', hlen', UInt8.toNat_xor]
      apply Nat.eq_of_testBit_eq
      intro i
      rw [Nat.testBit_xor, Nat.testBit_two_pow_mul_add _ hab, Nat.testBit_two_pow_mul_add _ ha,
        Nat.testBit_two_pow_mul_add _ hb]
      split
      · rw [Nat.testBit_xor]
      · rw [Nat.testBit_xor]

/-- The zeros and the length of the number make up the whole string. -/
theorem leadingZeros_add_size (bs : List UInt8) :
    leadingZeros bs + (value bs).size = 8 * bs.length := by
  induction bs with
  | nil => rfl
  | cons b bs ih =>
    have hb := toNat_lt b
    have hlt := value_lt bs
    rw [leadingZeros, value, List.length_cons]
    split
    · rename_i hzero
      rw [hzero]
      have hmul : 2 ^ (8 * bs.length) * (0 : UInt8).toNat = 0 := Nat.mul_zero _
      rw [hmul, Nat.zero_add]
      omega
    · rename_i hne
      have hpos : 0 < b.toNat := by
        rcases Nat.eq_zero_or_pos b.toNat with h | h
        · exact absurd (UInt8.toNat_inj.mp h) hne
        · exact h
      have hsize : b.toNat.size ≤ 8 := Nat.size_le.mpr hb
      have hpos' : 0 < b.toNat.size := Nat.size_pos.mpr hpos
      -- the number is as long as its first byte and the bytes below it
      have hsum :
          (2 ^ (8 * bs.length) * b.toNat + value bs).size = 8 * bs.length + b.toNat.size := by
        apply Nat.le_antisymm
        · rw [Nat.size_le, Nat.pow_add]
          have hself : b.toNat + 1 ≤ 2 ^ b.toNat.size := Nat.lt_size_self _
          have hmul := Nat.mul_le_mul_left (2 ^ (8 * bs.length)) hself
          rw [Nat.mul_add, Nat.mul_one] at hmul
          omega
        · obtain ⟨k, hk⟩ : ∃ k, b.toNat.size = k + 1 := ⟨b.toNat.size - 1, by omega⟩
          have hle : 2 ^ k ≤ b.toNat := Nat.lt_size.mp (by omega)
          rw [hk, ← Nat.add_assoc, Nat.succ_le_iff, Nat.lt_size, Nat.pow_add]
          exact Nat.le_trans (Nat.mul_le_mul_left _ hle) (Nat.le_add_right _ _)
      rw [hsum]
      omega

theorem compare_toNat (a b : UInt8) : compare a b = compare a.toNat b.toNat := by
  simp only [compare, compareOfLessAndEq, UInt8.lt_iff_toNat_lt, ← UInt8.toNat_inj]

/-- The lexicographic order of strings of one length is the order of the numbers. -/
theorem compare_eq {as bs : List UInt8} (hlen : as.length = bs.length) :
    compare as bs = compare (value as) (value bs) := by
  induction as generalizing bs with
  | nil =>
    cases bs with
    | nil => rfl
    | cons b bs => cases hlen
  | cons a as ih =>
    cases bs with
    | nil => cases hlen
    | cons b bs =>
      have hlen' : as.length = bs.length := Nat.succ.inj hlen
      have ha := value_lt as
      have hb := value_lt bs
      rw [hlen'] at ha
      rw [List.compare_cons_cons, compare_toNat, ih hlen', value, value, hlen']
      generalize 2 ^ (8 * bs.length) = p at *
      rcases Nat.lt_trichotomy a.toNat b.toNat with h | h | h
      · have hmul := Nat.mul_le_mul_left p (Nat.succ_le_of_lt h)
        rw [Nat.mul_succ] at hmul
        have hcmp : compare a.toNat b.toNat = .lt := compare_lt_iff_lt.mpr h
        rw [hcmp, Ordering.lt_then, eq_comm, compare_lt_iff_lt]
        omega
      · have hcmp : compare a.toNat b.toNat = .eq := compare_eq_iff_eq.mpr h
        rw [hcmp, Ordering.eq_then, h]
        rcases Nat.lt_trichotomy (value as) (value bs) with h' | h' | h'
        · rw [compare_lt_iff_lt.mpr h', eq_comm, compare_lt_iff_lt]
          exact Nat.add_lt_add_left h' _
        · rw [h', compare_eq_iff_eq.mpr rfl, compare_eq_iff_eq.mpr rfl]
        · rw [compare_gt_iff_gt.mpr h', eq_comm, compare_gt_iff_gt]
          exact Nat.add_lt_add_left h' _
      · have hmul := Nat.mul_le_mul_left p (Nat.succ_le_of_lt h)
        rw [Nat.mul_succ] at hmul
        have hcmp : compare a.toNat b.toNat = .gt := compare_gt_iff_gt.mpr h
        rw [hcmp, Ordering.gt_then, eq_comm, compare_gt_iff_gt]
        omega

section Dist
variable {a b c : ℕ}

theorem dist_comm (a b : ℕ) : dist a b = dist b a := by
  rw [dist, dist, Nat.xor_comm]

theorem dist_eq_zero : dist a b = 0 ↔ a = b := by
  rw [dist, Nat.size_eq_zero, Nat.xor_eq_zero_iff]

/-- Numbers are within `2 ^ k` exactly when they agree above the last `k` bits. -/
theorem dist_le_iff {k : ℕ} : dist a b ≤ k ↔ a / 2 ^ k = b / 2 ^ k := by
  rw [dist, Nat.size_le, ← Nat.xor_eq_zero_iff, ← Nat.xor_div_two_pow]
  exact (Nat.div_eq_zero_iff_lt (Nat.two_pow_pos k)).symm

/-- No distance is above both of the others. -/
theorem dist_le_max (a b c : ℕ) : dist a c ≤ max (dist a b) (dist b c) := by
  rw [dist_le_iff]
  have hab := dist_le_iff.mp (Nat.le_max_left (dist a b) (dist b c))
  have hbc := dist_le_iff.mp (Nat.le_max_right (dist a b) (dist b c))
  exact hab.trans hbc

end Dist

end XorMetric
