import Mathlib.Data.List.DropRight

/-!
# Unicode white space

The characters with the White_Space property, which is what trimming removes in the
languages this development models.
-/

set_option autoImplicit false

namespace Whitespace

def isWhiteSpace (c : Char) : Bool :=
  let n := c.toNat
  (0x09 ≤ n && n ≤ 0x0D) || n == 0x20 || n == 0x85 || n == 0xA0 || n == 0x1680 ||
    (0x2000 ≤ n && n ≤ 0x200A) || n == 0x2028 || n == 0x2029 || n == 0x202F ||
    n == 0x205F || n == 0x3000

def trimBoth (p : Char → Bool) (s : List Char) : List Char :=
  ((s.dropWhile p).reverse.dropWhile p).reverse

theorem forall_mem_dropWhile {p : Char → Bool} {s : List Char} :
    (∀ c ∈ s.dropWhile p, p c = true) ↔ ∀ c ∈ s, p c = true := by
  induction s with
  | nil => rfl
  | cons c s ih =>
    by_cases hc : p c = true
    · rw [List.dropWhile_cons_of_pos hc, ih]
      simp [hc]
    · rw [List.dropWhile_cons_of_neg hc]

theorem trimBoth_eq_nil {p : Char → Bool} {s : List Char} :
    trimBoth p s = [] ↔ ∀ c ∈ s, p c = true := by
  rw [trimBoth, List.reverse_eq_nil_iff, List.dropWhile_eq_nil_iff,
    ← forall_mem_dropWhile (s := s)]
  constructor
  · intro h c hc
    exact h c (List.mem_reverse.mpr hc)
  · intro h c hc
    exact h c (List.mem_reverse.mp hc)

end Whitespace
