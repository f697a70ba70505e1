import Mathlib.Data.List.Basic

/-!
# Bounded logs

A log that is appended to and then trimmed to a capacity from its front. What it holds is
always the last part of everything that was ever appended, and once something was dropped it
is full.
-/

set_option autoImplicit false

namespace BoundedLog

universe u
variable {α : Type u} {cap : ℕ} {history log new : List α}

def trim (cap : ℕ) (l : List α) : List α := l.drop (l.length - cap)

theorem length_trim_le (cap : ℕ) (l : List α) : (trim cap l).length ≤ cap := by
  rw [trim, List.length_drop]
  omega

theorem trim_sublist (cap : ℕ) (l : List α) : (trim cap l).Sublist l :=
  List.drop_sublist _ l

/-- The log is what the history leaves when its first part is dropped. -/
structure Holds (cap : ℕ) (history log : List α) : Prop where
  dropped : ∃ first, history = first ++ log ∧ (first ≠ [] → log.length = cap)
  length_le : log.length ≤ cap

theorem Holds.refl (h : log.length ≤ cap) : Holds cap log log :=
  ⟨⟨[], rfl, fun hne => absurd rfl hne⟩, h⟩

theorem Holds.append (h : Holds cap history log) (new : List α) :
    Holds cap (history ++ new) (trim cap (log ++ new)) := by
  obtain ⟨first, rfl, hfull⟩ := h.dropped
  refine ⟨⟨first ++ (log ++ new).take ((log ++ new).length - cap), ?_, ?_⟩,
    length_trim_le cap _⟩
  · rw [trim, List.append_assoc, List.append_assoc, List.take_append_drop]
  · intro hne
    rw [trim, List.length_drop]
    have hle := h.length_le
    by_cases hfirst : first = []
    · rw [hfirst, List.nil_append] at hne
      have hpos : (log ++ new).length - cap ≠ 0 := by
        intro hzero
        rw [hzero] at hne
        exact hne List.take_zero
      omega
    · have hlength := hfull hfirst
      rw [List.length_append]
      omega

end BoundedLog
