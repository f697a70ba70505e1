import Mathlib.Algebra.BigOperators.Fin
import Mathlib.Data.Matrix.Mul
import Mathlib.Tactic.Ring

/-!
# Rotating pairs of coordinates

The first coordinates of a vector are paired with as many that follow them, and each pair is
turned by its own cosine and sine; the other coordinates stay. The product of two vectors turned
in this way depends on the cosines and sines of the differences alone.
-/

set_option autoImplicit false

namespace PairRotation

open Matrix

universe u
variable {R : Type u} {n half : ℕ}

/-- The coordinate `i` is paired with `i + half`. -/
def rotate [Ring R] (h : half + half ≤ n) (x : Fin n → R) (cos sin : Fin half → R) : Fin n → R :=
  fun d =>
    if h₁ : d < half then
      x d * cos ⟨d, h₁⟩ - x ⟨d + half, by omega⟩ * sin ⟨d, h₁⟩
    else if h₂ : d < half + half then
      x ⟨d - half, by omega⟩ * sin ⟨d - half, by omega⟩ + x d * cos ⟨d - half, by omega⟩
    else x d

section Ring

variable [Ring R] (h : half + half ≤ n) (x : Fin n → R) (cos sin : Fin half → R)

theorem rotate_first (i : Fin half) : rotate h x cos sin ⟨i, by omega⟩ =
    x ⟨i, by omega⟩ * cos i - x ⟨i + half, by omega⟩ * sin i :=
  dif_pos i.isLt

theorem rotate_second (i : Fin half) : rotate h x cos sin ⟨i + half, by omega⟩ =
    x ⟨i, by omega⟩ * sin i + x ⟨i + half, by omega⟩ * cos i := by
  unfold rotate
  rw [dif_neg (Nat.not_lt.mpr (Nat.le_add_left half i)), dif_pos (Nat.add_lt_add_right i.isLt half)]
  simp only [Nat.add_sub_cancel]

theorem rotate_rest {d : Fin n} (hd : half + half ≤ d) : rotate h x cos sin d = x d := by
  unfold rotate
  rw [dif_neg (by omega), dif_neg (by omega)]

/-- Without an angle nothing turns. -/
theorem rotate_one_zero : rotate h x (fun _ => 1) (fun _ => 0) = x := by
  funext d
  unfold rotate
  split
  · rw [mul_one, mul_zero, sub_zero]
  · split
    · rw [mul_zero, mul_one, zero_add]
    · rfl

end Ring

/-- A sum over the pairs and the rest. -/
theorem sum_pairs [AddCommMonoid R] (h : half + half ≤ n) (f : Fin n → R) :
    ∑ d, f d = ∑ i : Fin half, (f ⟨i, by omega⟩ + f ⟨i + half, by omega⟩) +
      ∑ i : Fin (n - (half + half)), f ⟨half + half + i, by omega⟩ := by
  obtain ⟨m, rfl⟩ := Nat.exists_eq_add_of_le h
  have hm : half + half + m - (half + half) = m := Nat.add_sub_cancel_left _ _
  rw [Fin.sum_univ_add, Fin.sum_univ_add, Finset.sum_add_distrib]
  congr 1
  · congr 1
    apply Finset.sum_congr rfl
    intro i _
    congr 1
    apply Fin.ext
    exact Nat.add_comm half i
  · exact (Fin.sum_congr' (fun i : Fin m => f ⟨half + half + i, by omega⟩) hm).symm

variable [CommRing R] (h : half + half ≤ n) (x y : Fin n → R)

theorem dotProduct_rotate (cos sin cos' sin' : Fin half → R) :
    rotate h x cos sin ⬝ᵥ rotate h y cos' sin' =
      ∑ i : Fin half, ((x ⟨i, by omega⟩ * y ⟨i, by omega⟩ +
            x ⟨i + half, by omega⟩ * y ⟨i + half, by omega⟩) * (cos i * cos' i + sin i * sin' i) +
          (x ⟨i, by omega⟩ * y ⟨i + half, by omega⟩ -
            x ⟨i + half, by omega⟩ * y ⟨i, by omega⟩) * (sin i * cos' i - cos i * sin' i)) +
        ∑ i : Fin (n - (half + half)),
          x ⟨half + half + i, by omega⟩ * y ⟨half + half + i, by omega⟩ := by
  rw [dotProduct, sum_pairs h]
  congr 1
  · apply Finset.sum_congr rfl
    intro i _
    rw [rotate_first, rotate_first, rotate_second, rotate_second]
    ring
  · apply Finset.sum_congr rfl
    intro i _
    rw [rotate_rest h x cos sin (Nat.le_add_right _ _),
      rotate_rest h y cos' sin' (Nat.le_add_right _ _)]

/-- Angles with the same differences give the same product. -/
theorem dotProduct_rotate_congr {cos sin cos' sin' cos₁ sin₁ cos₁' sin₁' : Fin half → R}
    (hcos : ∀ i, cos i * cos' i + sin i * sin' i = cos₁ i * cos₁' i + sin₁ i * sin₁' i)
    (hsin : ∀ i, sin i * cos' i - cos i * sin' i = sin₁ i * cos₁' i - cos₁ i * sin₁' i) :
    rotate h x cos sin ⬝ᵥ rotate h y cos' sin' =
      rotate h x cos₁ sin₁ ⬝ᵥ rotate h y cos₁' sin₁' := by
  rw [dotProduct_rotate, dotProduct_rotate]
  simp only [hcos, hsin]

/-- A rotation keeps products, and so lengths. -/
theorem dotProduct_rotate_self {cos sin : Fin half → R}
    (hunit : ∀ i, cos i * cos i + sin i * sin i = 1) :
    rotate h x cos sin ⬝ᵥ rotate h y cos sin = x ⬝ᵥ y := by
  have hone : rotate h x cos sin ⬝ᵥ rotate h y cos sin =
      rotate h x (fun _ => 1) (fun _ => 0) ⬝ᵥ rotate h y (fun _ => 1) (fun _ => 0) := by
    apply dotProduct_rotate_congr
    · intro i
      rw [hunit]
      ring
    · intro i
      ring
  rw [hone, rotate_one_zero, rotate_one_zero]

end PairRotation
