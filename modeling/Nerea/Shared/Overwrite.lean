import Mathlib.Data.List.Basic

/-!
# Writing at a position of a file

A descriptor writes where it stands, whatever others have done to the file meanwhile: what
was there is overwritten and a gap before it is filled. A file that is written piece by
piece by one descriptor holds at each time the pieces written so far.
-/

set_option autoImplicit false

namespace Overwrite

universe u
variable {α : Type u}

/-- An empty write does not even fill the gap. -/
def overwrite (gap : α) (file : List α) (off : ℕ) (piece : List α) : List α :=
  if piece.isEmpty then file
  else file.take off ++ List.replicate (off - file.length) gap ++ piece ++
    file.drop (off + piece.length)

theorem overwrite_nil (gap : α) (file : List α) (off : ℕ) : overwrite gap file off [] = file := rfl

theorem overwrite_take (gap : α) (xs : List α) (off n : ℕ) :
    overwrite gap (xs.take off) off ((xs.drop off).take n) = xs.take (off + n) := by
  rw [List.take_add, overwrite]
  split
  · rename_i hempty
    rw [List.isEmpty_iff.mp hempty, List.append_nil]
  · rename_i hempty
    have hoff : off < xs.length := by
      refine Nat.lt_of_not_le fun hle => hempty ?_
      rw [List.drop_eq_nil_of_le hle, List.take_nil]
      rfl
    have hlength : (xs.take off).length = off := List.length_take_of_le (Nat.le_of_lt hoff)
    have hdrop : (xs.take off).drop (off + ((xs.drop off).take n).length) = [] :=
      List.drop_eq_nil_of_le (by omega)
    rw [hlength, Nat.sub_self, List.replicate_zero, List.append_nil, List.take_take, Nat.min_self,
      hdrop, List.append_nil]

theorem length_overwrite (gap : α) (file : List α) (off : ℕ) {piece : List α} (h : piece ≠ []) :
    (overwrite gap file off piece).length = max file.length (off + piece.length) := by
  rw [overwrite, if_neg (by simpa using h)]
  simp only [List.length_append, List.length_take, List.length_replicate, List.length_drop]
  omega

theorem length_le_overwrite (gap : α) (file : List α) (off : ℕ) (piece : List α) :
    file.length ≤ (overwrite gap file off piece).length := by
  by_cases h : piece = []
  · have hsame : overwrite gap file off piece = file := by rw [h, overwrite_nil]
    exact Nat.le_of_eq (congrArg List.length hsame.symm)
  · rw [length_overwrite gap file off h]
    exact Nat.le_max_left _ _

theorem le_length_overwrite (gap : α) (file : List α) (off : ℕ) (piece : List α)
    (h : off ≤ file.length) : off + piece.length ≤ (overwrite gap file off piece).length := by
  by_cases hnil : piece = []
  · rw [hnil, overwrite_nil]
    exact h
  · rw [length_overwrite gap file off hnil]
    exact Nat.le_max_right _ _

variable (gap : α) {file piece xs : List α} {off k : ℕ}

theorem getElem?_overwrite_of_mem (h : off ≤ k) (hk : k < off + piece.length) :
    (overwrite gap file off piece)[k]? = piece[k - off]? := by
  have hne : ¬ piece.isEmpty = true := by
    intro hempty
    rw [List.isEmpty_iff.mp hempty, List.length_nil] at hk
    omega
  have hbefore : (file.take off ++ List.replicate (off - file.length) gap).length = off := by
    simp only [List.length_append, List.length_take, List.length_replicate]
    omega
  rw [overwrite, if_neg hne, List.getElem?_append_left, List.getElem?_append_right, hbefore]
  · omega
  · rw [List.length_append, hbefore]
    exact hk

theorem getElem?_overwrite_of_lt (h : k < off) (hk : k < file.length) :
    (overwrite gap file off piece)[k]? = file[k]? := by
  rw [overwrite]
  split
  · rfl
  · have htake : k < (file.take off).length := by
      rw [List.length_take]
      omega
    rw [List.append_assoc, List.append_assoc, List.getElem?_append_left htake,
      List.getElem?_take_of_lt h]

theorem getElem?_overwrite_of_le (h : off + piece.length ≤ k) :
    (overwrite gap file off piece)[k]? = file[k]? := by
  rw [overwrite]
  split
  · rfl
  · have hbefore : (file.take off ++ List.replicate (off - file.length) gap ++ piece).length =
        off + piece.length := by
      simp only [List.length_append, List.length_take, List.length_replicate]
      omega
    rw [List.getElem?_append_right (hbefore.symm ▸ h), hbefore, List.getElem?_drop]
    congr 1
    omega

/-- A piece of `xs` is written where it stands in `xs`: what agreed with `xs` still does, and so
does the piece. -/
theorem getElem?_overwrite_of_prefix (hpiece : piece <+: xs.drop off)
    (hk : (off ≤ k ∧ k < off + piece.length) ∨ (k < file.length ∧ file[k]? = xs[k]?)) :
    (overwrite gap file off piece)[k]? = xs[k]? := by
  by_cases hmem : off ≤ k ∧ k < off + piece.length
  · rw [getElem?_overwrite_of_mem gap hmem.1 hmem.2]
    have hlt : k - off < piece.length := by omega
    obtain ⟨rest, hrest⟩ := hpiece
    have hxs : (xs.drop off)[k - off]? = xs[k]? := by
      rw [List.getElem?_drop, Nat.add_sub_cancel' hmem.1]
    rw [← hxs, ← hrest, List.getElem?_append_left hlt]
  · obtain ⟨hlt, hfile⟩ := hk.resolve_left hmem
    rw [← hfile]
    rcases Nat.lt_or_ge k off with hbefore | hafter
    · exact getElem?_overwrite_of_lt gap hbefore hlt
    · exact getElem?_overwrite_of_le gap (by omega)

end Overwrite
