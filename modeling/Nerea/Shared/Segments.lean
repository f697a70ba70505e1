import Mathlib.Data.List.Basic

/-!
# Delimited segments of a byte stream

A stream is a list; a delimiter cuts it into segments, of which only the nonempty
ones count. The question is when cutting the stream into pieces first, and each
piece at the delimiter afterwards, yields the same segments: exactly when no piece
ends in the middle of a segment.
-/

set_option autoImplicit false

namespace Segments

universe u
variable {α : Type u} {d : α}

/-- The nonempty parts between occurrences of `d`. -/
def segments [BEq α] (d : α) (xs : List α) : List (List α) :=
  (xs.splitOn d).filter fun s => !s.isEmpty

/-- A cut between `xs` and `ys` that touches the delimiter, or one of the two ends. -/
def CleanCut (d : α) (xs ys : List α) : Prop :=
  xs = [] ∨ ys = [] ∨ xs.getLast? = some d ∨ ys.head? = some d

theorem cleanCut_append_iff {xs ys : List α} (zs : List α) (hys : ys ≠ []) :
    CleanCut d xs (ys ++ zs) ↔ CleanCut d xs ys := by
  obtain ⟨y, ys', rfl⟩ := List.exists_cons_of_ne_nil hys
  simp [CleanCut]

theorem not_cleanCut_cons {a : α} {xs ys : List α} (hxs : xs ≠ [])
    (h : ¬CleanCut d (a :: xs) ys) : ¬CleanCut d xs ys := by
  intro hc
  apply h
  rcases hc with hx | hy | hx | hy
  · exact absurd hx hxs
  · exact Or.inr (Or.inl hy)
  · refine Or.inr (Or.inr (Or.inl ?_))
    rw [List.getLast?_cons_of_ne_nil hxs]
    exact hx
  · exact Or.inr (Or.inr (Or.inr hy))

@[simp] theorem segments_nil [BEq α] : segments d [] = [] := by
  simp [segments, List.splitOn_nil]

variable [BEq α] [LawfulBEq α]

theorem segments_append_cons (xs ys : List α) :
    segments d (xs ++ d :: ys) = segments d xs ++ segments d ys := by
  simp [segments, List.splitOn_append_cons_self]

@[simp] theorem segments_cons_self (ys : List α) : segments d (d :: ys) = segments d ys := by
  simpa using segments_append_cons (d := d) [] ys

@[simp] theorem segments_concat_self (xs : List α) :
    segments d (xs ++ [d]) = segments d xs := by
  simpa using segments_append_cons (d := d) xs []

theorem segments_of_not_mem {xs : List α} (h : d ∉ xs) (hne : xs ≠ []) :
    segments d xs = [xs] := by
  simp [segments, List.splitOn_eq_singleton h, hne]

theorem segments_of_cleanCut {xs ys : List α} (h : CleanCut d xs ys) :
    segments d (xs ++ ys) = segments d xs ++ segments d ys := by
  rcases h with rfl | rfl | hx | hy
  · simp
  · simp
  · obtain ⟨init, rfl⟩ := List.getLast?_eq_some_iff.mp hx
    simp [segments_append_cons]
  · obtain ⟨rest, rfl⟩ := List.head?_eq_some_iff.mp hy
    simp [segments_append_cons]

theorem segments_cons_cons {a b : α} (ha : a ≠ d) (hb : b ≠ d) (ys : List α) :
    (segments d (a :: b :: ys)).length = (segments d (b :: ys)).length := by
  have hne := List.splitOn_ne_nil d ys
  simp only [segments, List.splitOn_cons_eq_if_modifyHead, beq_iff_eq, ha, hb, if_false]
  cases hs : ys.splitOn d with
  | nil => exact absurd hs hne
  | cons s ss => simp

theorem length_segments_of_not_cleanCut {xs ys : List α} (h : ¬CleanCut d xs ys) :
    (segments d xs).length + (segments d ys).length = (segments d (xs ++ ys)).length + 1 := by
  induction xs with
  | nil => exact absurd (Or.inl rfl) h
  | cons a xs ih =>
    cases xs with
    | nil =>
      cases ys with
      | nil => exact absurd (Or.inr (Or.inl rfl)) h
      | cons b ys =>
        have ha : a ≠ d := by
          rintro rfl
          exact h (Or.inr (Or.inr (Or.inl rfl)))
        have hb : b ≠ d := by
          rintro rfl
          exact h (Or.inr (Or.inr (Or.inr rfl)))
        rw [segments_of_not_mem (by simpa using Ne.symm ha) (by simp)]
        simp only [List.singleton_append, segments_cons_cons ha hb, List.length_singleton]
        omega
    | cons c cs =>
      have hih := ih (not_cleanCut_cons (by simp) h)
      by_cases ha : a = d
      · subst ha
        simpa using hih
      by_cases hc : c = d
      · subst hc
        have hsplit (zs : List α) :
            segments c (a :: c :: zs) = [a] :: segments c zs := by
          have hac : c ∉ [a] := by simpa using Ne.symm ha
          have happ := segments_append_cons (d := c) [a] zs
          rwa [segments_of_not_mem hac (by simp)] at happ
        simp only [List.cons_append, segments_cons_self, hsplit, List.length_cons] at hih ⊢
        omega
      · simp only [List.cons_append, segments_cons_cons ha hc] at hih ⊢
        exact hih

/-- Every piece but the last ends where the delimiter, or the end of the stream, is. -/
def CleanCuts (d : α) : List (List α) → Prop
  | [] => True
  | r :: rs => CleanCut d r rs.flatten ∧ CleanCuts d rs

theorem flatMap_segments {rs : List (List α)} (h : CleanCuts d rs) :
    rs.flatMap (segments d) = segments d rs.flatten := by
  induction rs with
  | nil => simp
  | cons r rs ih =>
    rw [List.flatMap_cons, List.flatten_cons, ih h.2, segments_of_cleanCut h.1]

theorem length_segments_flatten_le (rs : List (List α)) :
    (segments d rs.flatten).length ≤ (rs.flatMap (segments d)).length := by
  induction rs with
  | nil => simp
  | cons r rs ih =>
    simp only [List.flatMap_cons, List.flatten_cons, List.length_append]
    by_cases h : CleanCut d r rs.flatten
    · rw [segments_of_cleanCut h, List.length_append]
      omega
    · have hlen := length_segments_of_not_cleanCut h
      omega

/-- Counting segments is enough to tell whether every cut was clean. -/
theorem cleanCuts_of_length {rs : List (List α)}
    (h : (rs.flatMap (segments d)).length = (segments d rs.flatten).length) :
    CleanCuts d rs := by
  induction rs with
  | nil => trivial
  | cons r rs ih =>
    simp only [List.flatMap_cons, List.flatten_cons, List.length_append] at h
    have hle := length_segments_flatten_le (d := d) rs
    by_cases hc : CleanCut d r rs.flatten
    · rw [segments_of_cleanCut hc, List.length_append] at h
      exact ⟨hc, ih (by omega)⟩
    · have hlen := length_segments_of_not_cleanCut hc
      omega

end Segments
