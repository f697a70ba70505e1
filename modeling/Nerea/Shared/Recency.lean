import Mathlib.Data.List.Nodup
import Mathlib.Data.List.Basic

/-!
# Elements in the order in which they were first seen

The list has every element once, the one first seen last in front. A bounded queue of it is
a first part of the list, and reading such a queue from the wrong end is right only when
everything is read.
-/

set_option autoImplicit false

namespace Recency

universe u
variable {α : Type u} {l : List α}

/-- A full queue loses its last element to a new one. -/
theorem dropLast_take {cap : ℕ} (hpos : 0 < cap) (hfull : cap ≤ (l.take cap).length) (x : α) :
    x :: (l.take cap).dropLast = (x :: l).take cap := by
  obtain ⟨n, rfl⟩ := Nat.exists_eq_add_of_lt hpos
  rw [List.length_take] at hfull
  rw [Nat.zero_add, List.take_succ_cons, List.dropLast_eq_take, List.take_take, List.length_take]
  congr 2
  omega

/-- A queue that is not full holds everything. -/
theorem take_eq_self {cap : ℕ} (hroom : (l.take cap).length < cap) : l.take cap = l := by
  rw [List.length_take] at hroom
  exact List.take_of_length_le (by omega)

/-- The oldest `n` are the newest `n` when there are no more than `n`. -/
theorem take_reverse_perm_iff (hl : l.Nodup) {n : ℕ} (hn : 0 < n) :
    (l.reverse.take n).Perm (l.take n) ↔ l.length ≤ n := by
  constructor
  · intro hperm
    by_contra hlt
    cases l with
    | nil => exact hlt (Nat.zero_le n)
    | cons x l =>
      have hx : x ∈ (x :: l).take n := by
        obtain ⟨k, rfl⟩ := Nat.exists_eq_add_of_lt hn
        rw [Nat.zero_add, List.take_succ_cons]
        exact List.mem_cons_self
      have hx := hperm.mem_iff.mpr hx
      rw [List.take_reverse, List.mem_reverse] at hx
      obtain ⟨k, hk⟩ := Nat.exists_eq_add_of_lt (Nat.not_le.mp hlt)
      have hdrop : (x :: l).length - n = k + 1 := by omega
      rw [hdrop, List.drop_succ_cons] at hx
      exact (List.nodup_cons.mp hl).1 (List.mem_of_mem_drop hx)
  · intro hle
    rw [List.take_of_length_le hle, List.take_of_length_le (by rw [List.length_reverse]; exact hle)]
    exact List.reverse_perm l

variable [DecidableEq α] {x : α}

def note (x : α) (l : List α) : List α := if x ∈ l then l else x :: l

theorem note_of_mem (h : x ∈ l) : note x l = l :=
  if_pos h

theorem note_of_not_mem (h : x ∉ l) : note x l = x :: l :=
  if_neg h

theorem nodup_note (h : l.Nodup) (x : α) : (note x l).Nodup := by
  unfold note
  split
  · exact h
  · exact List.nodup_cons.mpr ⟨‹_›, h⟩

end Recency
