import Mathlib.Algebra.Group.Nat.Defs

/-!
# Xorshift steps

A xorshift generator combines a word with shifts of itself. To the left, or to the right with
zeros coming in, such a step is injective; to the right with the sign bit coming in it takes
exactly every word and its complement together, and clears the sign.
-/

set_option autoImplicit false

namespace Xorshift

variable {w : ℕ} (k : ℕ) (x y : BitVec w)

def left : BitVec w := x ^^^ (x <<< k)

def right : BitVec w := x ^^^ (x >>> k)

def signedRight : BitVec w := x ^^^ x.sshiftRight k

theorem left_xor : left k (x ^^^ y) = left k x ^^^ left k y := by
  rw [left, left, left, BitVec.shiftLeft_xor_distrib]
  ac_rfl

theorem right_xor : right k (x ^^^ y) = right k x ^^^ right k y := by
  rw [right, right, right, BitVec.ushiftRight_xor_distrib]
  ac_rfl

theorem signedRight_xor :
    signedRight k (x ^^^ y) = signedRight k x ^^^ signedRight k y := by
  rw [signedRight, signedRight, signedRight, BitVec.sshiftRight_xor_distrib]
  ac_rfl

variable {k x y}

/-- A linear map takes two words together exactly when it takes their sum to zero. -/
theorem eq_iff_of_xor {f : BitVec w → BitVec w} (hf : ∀ x y, f (x ^^^ y) = f x ^^^ f y) :
    f x = f y ↔ f (x ^^^ y) = 0#w := by
  rw [hf, BitVec.xor_eq_zero_iff]

theorem left_eq_zero (hk : 0 < k) : left k x = 0#w ↔ x = 0#w := by
  rw [left, BitVec.xor_eq_zero_iff]
  constructor
  · intro h
    apply BitVec.eq_of_getLsbD_eq
    intro i _
    rw [BitVec.getLsbD_zero]
    -- each bit is the one `k` places below
    induction i using Nat.strongRecOn with
    | ind i ih =>
      rw [h, BitVec.getLsbD_shiftLeft]
      by_cases hi : i < k
      · simp [hi]
      · rw [ih (i - k) (by omega) (by omega), Bool.and_false]
  · rintro rfl
    exact (BitVec.zero_shiftLeft k).symm

theorem right_eq_zero (hk : 0 < k) : right k x = 0#w ↔ x = 0#w := by
  rw [right, BitVec.xor_eq_zero_iff]
  constructor
  · intro h
    have hbits : ∀ n i, w ≤ i + n → x.getLsbD i = false := by
      intro n
      induction n with
      | zero => exact fun i hi => BitVec.getLsbD_of_ge x i hi
      | succ n ih =>
        intro i hi
        rw [h, BitVec.getLsbD_ushiftRight]
        exact ih (k + i) (by omega)
    apply BitVec.eq_of_getLsbD_eq
    intro i _
    rw [hbits w i (by omega), BitVec.getLsbD_zero]
  · rintro rfl
    exact BitVec.zero_ushiftRight.symm

theorem signedRight_eq_zero (hk : 0 < k) :
    signedRight k x = 0#w ↔ x = 0#w ∨ x = BitVec.allOnes w := by
  rw [signedRight, BitVec.xor_eq_zero_iff]
  constructor
  · intro h
    have hbits : ∀ n i, w ≤ i + n → i < w → x.getLsbD i = x.msb := by
      intro n
      induction n with
      | zero => exact fun i hi hlt => absurd hlt (Nat.not_lt.mpr hi)
      | succ n ih =>
        intro i hi hlt
        rw [h, BitVec.getLsbD_sshiftRight, ← h]
        by_cases hki : k + i < w
        · rw [if_pos hki, ih (k + i) (by omega) hki]
          simp [hlt]
        · rw [if_neg hki]
          simp [hlt]
    cases hmsb : x.msb with
    | false =>
      left
      apply BitVec.eq_of_getLsbD_eq
      intro i hi
      rw [hbits w i (by omega) hi, hmsb, BitVec.getLsbD_zero]
    | true =>
      right
      apply BitVec.eq_of_getLsbD_eq
      intro i hi
      rw [hbits w i (by omega) hi, hmsb, BitVec.getLsbD_allOnes, decide_eq_true hi]
  · intro heq
    rcases heq with rfl | rfl
    · exact BitVec.zero_sshiftRight.symm
    · apply BitVec.eq_of_getLsbD_eq
      intro i hi
      rw [BitVec.getLsbD_sshiftRight, BitVec.msb_allOnes (by omega)]
      by_cases hki : k + i < w <;> simp [hi, hki]

theorem left_inj (hk : 0 < k) : left k x = left k y ↔ x = y := by
  rw [eq_iff_of_xor (left_xor k), left_eq_zero hk, BitVec.xor_eq_zero_iff]

theorem right_inj (hk : 0 < k) : right k x = right k y ↔ x = y := by
  rw [eq_iff_of_xor (right_xor k), right_eq_zero hk, BitVec.xor_eq_zero_iff]

theorem msb_signedRight : (signedRight k x).msb = false := by
  rw [signedRight, BitVec.msb_xor, BitVec.msb_sshiftRight, Bool.xor_self]

/-- Without a sign bit the two shifts to the right are one. -/
theorem signedRight_of_msb (h : x.msb = false) : signedRight k x = right k x := by
  rw [signedRight, right, BitVec.sshiftRight_eq_of_msb_false h]

theorem mul_div_mod_two {m d : ℕ} (hd : 0 < d) (hm : m % 2 = 1) (n : ℕ) :
    n * m / d % 2 = (n / d + n % d * m / d) % 2 := by
  have hsplit : n * m = d * (n / d * m) + n % d * m := by
    rw [← Nat.mul_assoc, ← Nat.add_mul, Nat.div_add_mod]
  rw [hsplit, Nat.mul_add_div hd, Nat.add_mod, Nat.mul_mod, hm, Nat.mul_one, Nat.mod_mod,
    ← Nat.add_mod]

/-- The products with an odd word differ where the words first do. -/
theorem getLsbD_mul_ne {m : BitVec w} {i : ℕ} (hi : i < w) (hm : m.toNat % 2 = 1)
    (hlow : ∀ j < i, x.getLsbD j = y.getLsbD j) (hbit : x.getLsbD i ≠ y.getLsbD i) :
    (x * m).getLsbD i ≠ (y * m).getLsbD i := by
  have hmod : x.toNat % 2 ^ i = y.toNat % 2 ^ i := by
    apply Nat.eq_of_testBit_eq
    intro j
    rw [Nat.testBit_mod_two_pow, Nat.testBit_mod_two_pow]
    by_cases hj : j < i
    · rw [decide_eq_true hj, Bool.true_and, Bool.true_and]
      exact hlow j hj
    · rw [decide_eq_false hj, Bool.false_and, Bool.false_and]
  have hd : 0 < 2 ^ i := Nat.two_pow_pos i
  have hbits {z : BitVec w} : (z * m).getLsbD i = decide (z.toNat * m.toNat / 2 ^ i % 2 = 1) := by
    rw [BitVec.getLsbD, BitVec.toNat_mul, Nat.testBit_mod_two_pow, decide_eq_true hi,
      Bool.true_and, Nat.testBit_eq_decide_div_mod_eq]
  rw [hbits, hbits, ne_eq, decide_eq_decide, mul_div_mod_two hd hm, mul_div_mod_two hd hm, hmod]
  rw [BitVec.getLsbD, BitVec.getLsbD, Nat.testBit_eq_decide_div_mod_eq,
    Nat.testBit_eq_decide_div_mod_eq, ne_eq, decide_eq_decide] at hbit
  omega

end Xorshift
