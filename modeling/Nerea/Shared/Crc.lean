import Mathlib.Data.List.Basic

/-!
# Cyclic redundancy checks, least significant bit first

A check is linear: the checks of two strings with a common end differ by what the difference
of their beginnings becomes when zeros follow. When the top bit of the polynomial is set a
step can be undone, so nothing is lost of a string that is no longer than the word.
-/

set_option autoImplicit false

namespace Crc

variable {w : ℕ} (poly : BitVec w)

/-- The polynomial comes in for a one that falls out. -/
def bitStep (c : BitVec w) : BitVec w :=
  if c.getLsbD 0 then (c >>> 1) ^^^ poly else c >>> 1

def steps : ℕ → BitVec w → BitVec w
  | 0, c => c
  | n + 1, c => steps n (bitStep poly c)

def byteStep (c : BitVec w) (b : UInt8) : BitVec w := steps poly 8 (c ^^^ b.toBitVec.setWidth w)

def update (c : BitVec w) (bs : List UInt8) : BitVec w := bs.foldl (byteStep poly) c

def checksum (init out : BitVec w) (bs : List UInt8) : BitVec w := update poly init bs ^^^ out

/-- The bytes as one word, the first one lowest. -/
def word (w : ℕ) : List UInt8 → BitVec w
  | [] => 0#w
  | b :: bs => b.toBitVec.setWidth w ^^^ (word w bs <<< 8)

theorem xor_cancel (x y z : BitVec w) : x ^^^ z ^^^ (y ^^^ z) = x ^^^ y := by
  have hswap : x ^^^ z ^^^ (y ^^^ z) = x ^^^ y ^^^ (z ^^^ z) := by ac_rfl
  rw [hswap, BitVec.xor_self, BitVec.xor_zero]

theorem bitStep_xor (c d : BitVec w) :
    bitStep poly (c ^^^ d) = bitStep poly c ^^^ bitStep poly d := by
  unfold bitStep
  rw [BitVec.getLsbD_xor, BitVec.ushiftRight_xor_distrib]
  cases c.getLsbD 0 <;> cases d.getLsbD 0
  · rfl
  · exact BitVec.xor_assoc _ _ _
  · simp only [Bool.xor_false, if_true, Bool.false_eq_true, if_false]
    ac_rfl
  · exact (xor_cancel _ _ _).symm

theorem steps_xor (n : ℕ) (c d : BitVec w) :
    steps poly n (c ^^^ d) = steps poly n c ^^^ steps poly n d := by
  induction n generalizing c d with
  | zero => rfl
  | succ n ih => rw [steps, bitStep_xor, ih, steps, steps]

theorem steps_add (m n : ℕ) (c : BitVec w) :
    steps poly (m + n) c = steps poly n (steps poly m c) := by
  induction m generalizing c with
  | zero => rw [Nat.zero_add, steps]
  | succ m ih => rw [Nat.succ_add, steps, ih, steps]

theorem update_append (c : BitVec w) (as bs : List UInt8) :
    update poly c (as ++ bs) = update poly (update poly c as) bs :=
  List.foldl_append

/-- What a string does to two states differs only by what their difference becomes. -/
theorem update_xor_update (c d : BitVec w) (bs : List UInt8) :
    update poly c bs ^^^ update poly d bs = steps poly (8 * bs.length) (c ^^^ d) := by
  induction bs generalizing c d with
  | nil => rfl
  | cons b bs ih =>
    have hlen : 8 * (b :: bs).length = 8 + 8 * bs.length := by
      rw [List.length_cons, Nat.mul_succ, Nat.add_comm]
    rw [hlen, steps_add, ← xor_cancel c d (b.toBitVec.setWidth w), steps_xor, ← byteStep,
      ← byteStep]
    exact ih _ _

/-- The checks of two strings with a common end differ by a word that the end does not enter. -/
theorem checksum_xor_checksum (init out : BitVec w) (as bs ends : List UInt8) :
    checksum poly init out (as ++ ends) ^^^ checksum poly init out (bs ++ ends)
      = steps poly (8 * ends.length) (update poly init as ^^^ update poly init bs) := by
  rw [checksum, checksum, xor_cancel, update_append, update_append, update_xor_update]

variable {poly}

/-- A step keeps the other bits one place lower, and the top bit tells whether a one fell out. -/
theorem bitStep_eq_zero (hpoly : poly.msb = true) {c : BitVec w} (h : bitStep poly c = 0#w) :
    c = 0#w := by
  have htop : (c >>> 1).msb = false := by
    rw [BitVec.msb_ushiftRight]
    rfl
  unfold bitStep at h
  split at h
  · rw [BitVec.xor_eq_zero_iff] at h
    rw [h, hpoly] at htop
    cases htop
  · rename_i hlow
    apply BitVec.eq_of_getLsbD_eq
    intro i _
    rw [BitVec.getLsbD_zero]
    cases i with
    | zero => exact Bool.eq_false_iff.mpr hlow
    | succ i =>
      have hbit := congrArg (fun x : BitVec w => x.getLsbD i) h
      simp only [BitVec.getLsbD_ushiftRight, BitVec.getLsbD_zero] at hbit
      rw [Nat.add_comm]
      exact hbit

theorem steps_injective (hpoly : poly.msb = true) {n : ℕ} {c d : BitVec w}
    (h : steps poly n c = steps poly n d) : c = d := by
  rw [← BitVec.xor_eq_zero_iff] at h ⊢
  rw [← steps_xor] at h
  generalize c ^^^ d = e at *
  induction n generalizing e with
  | zero => exact h
  | succ n ih => exact bitStep_eq_zero hpoly (ih _ h)

theorem update_injective (hpoly : poly.msb = true) {c d : BitVec w} {bs : List UInt8}
    (h : update poly c bs = update poly d bs) : c = d := by
  rw [← BitVec.xor_eq_zero_iff, update_xor_update] at h
  have hzero : steps poly (8 * bs.length) (c ^^^ d) = steps poly (8 * bs.length) (c ^^^ c) := by
    rw [h, steps_xor, BitVec.xor_self]
  have hxor := steps_injective hpoly hzero
  rw [BitVec.xor_self, BitVec.xor_eq_zero_iff] at hxor
  exact hxor

/-- Nothing falls out of a word that was moved up first. -/
theorem steps_shiftLeft {n : ℕ} {y : BitVec w} (h : ∀ i, w ≤ i + n → y.getLsbD i = false) :
    steps poly n (y <<< n) = y := by
  induction n with
  | zero => rw [steps, BitVec.shiftLeft_zero]
  | succ n ih =>
    have hlow : ¬ (y <<< (n + 1)).getLsbD 0 = true := by
      rw [BitVec.getLsbD_shiftLeft]
      simp
    have hdown : (y <<< (n + 1)) >>> 1 = y <<< n := by
      apply BitVec.eq_of_getLsbD_eq
      intro i hi
      rw [BitVec.getLsbD_ushiftRight, BitVec.getLsbD_shiftLeft, BitVec.getLsbD_shiftLeft]
      have hsub : 1 + i - (n + 1) = i - n := by omega
      rw [hsub]
      by_cases htop : 1 + i < w
      · have hle : 1 + i < n + 1 ↔ i < n := by omega
        simp [htop, hi, hle]
      · by_cases hin : i < n
        · simp [hin, htop]
        · rw [h (i - n) (by omega), Bool.and_false, Bool.and_false]
    rw [steps, bitStep, if_neg hlow, hdown]
    exact ih (fun i hi => h i (by omega))

theorem getLsbD_word_of_le (bs : List UInt8) {i : ℕ} (h : 8 * bs.length ≤ i) :
    (word w bs).getLsbD i = false := by
  induction bs generalizing i with
  | nil => exact BitVec.getLsbD_zero
  | cons b bs ih =>
    rw [List.length_cons, Nat.mul_succ] at h
    have hbyte : b.toBitVec.getLsbD i = false := BitVec.getLsbD_of_ge _ _ (by omega)
    rw [word, BitVec.getLsbD_xor, BitVec.getLsbD_setWidth, BitVec.getLsbD_shiftLeft, hbyte,
      ih (by omega), Bool.and_false, Bool.and_false, Bool.xor_false]

/-- As long as it fits into the word, a string enters as if all at once. -/
theorem update_eq_steps (c : BitVec w) {bs : List UInt8} (hlen : 8 * bs.length ≤ w) :
    update poly c bs = steps poly (8 * bs.length) (c ^^^ word w bs) := by
  induction bs generalizing c with
  | nil =>
    rw [word, BitVec.xor_zero]
    rfl
  | cons b bs ih =>
    have hlen' : 8 * (b :: bs).length = 8 + 8 * bs.length := by
      rw [List.length_cons, Nat.mul_succ, Nat.add_comm]
    have hup : steps poly 8 (word w bs <<< 8) = word w bs :=
      steps_shiftLeft (fun i hi => getLsbD_word_of_le bs (by omega))
    have hstep : update poly c (b :: bs) = update poly (byteStep poly c b) bs := rfl
    rw [hlen', steps_add, word, ← BitVec.xor_assoc, steps_xor, hup, hstep, ih _ (by omega),
      byteStep]

theorem word_injective {as bs : List UInt8} (hlen : as.length = bs.length)
    (hw : 8 * bs.length ≤ w) (h : word w as = word w bs) : as = bs := by
  induction as generalizing bs with
  | nil => exact (List.length_eq_zero_iff.mp hlen.symm).symm
  | cons a as ih =>
    cases bs with
    | nil => cases hlen
    | cons b bs =>
      have hlen' : as.length = bs.length := Nat.succ.inj hlen
      rw [List.length_cons, Nat.mul_succ] at hw
      have hbit : ∀ i, (word w (a :: as)).getLsbD i = (word w (b :: bs)).getLsbD i :=
        fun i => by rw [h]
      simp only [word, BitVec.getLsbD_xor, BitVec.getLsbD_setWidth,
        BitVec.getLsbD_shiftLeft] at hbit
      have hhead : a = b := by
        apply UInt8.toBitVec_inj.mp
        apply BitVec.eq_of_getLsbD_eq
        intro i hi
        have hi' := hbit i
        have hiw : i < w := by omega
        simpa [hi, hiw] using hi'
      have htail : word w as = word w bs := by
        apply BitVec.eq_of_getLsbD_eq
        intro i hi
        by_cases htop : i + 8 < w
        · have hi' := hbit (i + 8)
          have ha : a.toBitVec.getLsbD (i + 8) = false := BitVec.getLsbD_of_ge _ _ (by omega)
          have hb : b.toBitVec.getLsbD (i + 8) = false := BitVec.getLsbD_of_ge _ _ (by omega)
          have hnot : ¬ i + 8 < 8 := by omega
          simpa [htop, ha, hb, hnot] using hi'
        · rw [getLsbD_word_of_le as (by omega), getLsbD_word_of_le bs (by omega)]
      rw [hhead, ih hlen' (by omega) htail]

/-- Strings of one length that fit into the word have checks of their own, whatever follows. -/
theorem checksum_injective (hpoly : poly.msb = true) {init out : BitVec w}
    {as bs ends : List UInt8} (hlen : as.length = bs.length) (hw : 8 * bs.length ≤ w)
    (h : checksum poly init out (as ++ ends) = checksum poly init out (bs ++ ends)) :
    as = bs := by
  have hupdate : update poly init (as ++ ends) = update poly init (bs ++ ends) :=
    (BitVec.xor_left_inj _).mp h
  rw [update_append, update_append] at hupdate
  have hbegin := update_injective hpoly hupdate
  rw [update_eq_steps init (by omega), update_eq_steps init hw, hlen] at hbegin
  have hword := (BitVec.xor_right_inj _).mp (steps_injective hpoly hbegin)
  exact word_injective hlen hw hword

end Crc
