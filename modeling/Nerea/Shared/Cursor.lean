import Mathlib.Data.List.Nodup

/-!
# A list with an index into it

The index is only kept in range. When an item is removed, what it points to stays the same
unless the item stood before it and others stand behind.
-/

set_option autoImplicit false

namespace Cursor

universe u
variable {α : Type u} {xs : List α} {n i a : ℕ}

/-- The index itself, or the last of `n`. -/
def clamp (n a : ℕ) : ℕ := if n ≤ a then n - 1 else a

theorem clamp_of_lt (h : a < n) : clamp n a = a :=
  if_neg (Nat.not_le.mpr h)

theorem clamp_lt (h : 0 < n) (a : ℕ) : clamp n a < n := by
  unfold clamp
  split <;> omega

theorem getElem?_eraseIdx_clamp (hnodup : xs.Nodup) (hi : i < xs.length) (ha : a < xs.length)
    (hne : i ≠ a) :
    (xs.eraseIdx i)[clamp (xs.eraseIdx i).length a]? = xs[a]? ↔ (i < a → a + 1 = xs.length) := by
  have hlen := List.length_eraseIdx_of_lt hi
  rcases Nat.lt_or_gt_of_ne hne with hlt | hgt
  · by_cases hlast : a + 1 = xs.length
    · have hclamp : clamp (xs.eraseIdx i).length a = a - 1 := by
        unfold clamp
        rw [if_pos (by omega)]
        omega
      rw [hclamp, List.getElem?_eraseIdx_of_ge (by omega), Nat.sub_add_cancel (by omega)]
      exact iff_of_true rfl fun _ => hlast
    · rw [clamp_of_lt (by omega), List.getElem?_eraseIdx_of_ge (Nat.le_of_lt hlt)]
      refine iff_of_false (fun h => ?_) fun h => hlast (h hlt)
      have hidx := (List.getElem?_inj (by omega) hnodup).mp h
      omega
  · rw [clamp_of_lt (by omega), List.getElem?_eraseIdx_of_lt hgt]
    exact iff_of_true rfl fun hlt => absurd hlt (Nat.lt_asymm hgt)

end Cursor
