import Mathlib.Data.List.Basic

/-!
# Binary search with a comparator

The comparator tells of an element whether it lies below, at or above the place that is looked
for. On a list where the elements below come first and those above last, the search finds an
element at the place if there is one, and else the place to insert one.
-/

set_option autoImplicit false

namespace BinarySearch

universe u
variable {α : Type u} (f : α → Ordering)

/-- The comparator at an index inside the list. -/
def orderAt (l : List α) (i : ℕ) : Ordering := (l[i]?.map f).getD .gt

/-- The loop halves the part that is left; a turn for every element is more than enough. -/
def loop (l : List α) : ℕ → ℕ → ℕ → ℕ
  | 0, _, base => base
  | turns + 1, size, base =>
    if 1 < size then
      let half := size / 2
      let mid := base + half
      loop l turns (size - half) (if orderAt f l mid = .gt then base else mid)
    else base

/-- `binary_search_by`: the index of a match, or the index to insert at. -/
def search (l : List α) : Except ℕ ℕ :=
  if l.length = 0 then .error 0
  else
    let base := loop f l l.length l.length 0
    match orderAt f l base with
    | .eq => .ok base
    | .lt => .error (base + 1)
    | .gt => .error base

/-- Below, then at, then above. -/
def Partitioned (l : List α) : Prop :=
  l.Pairwise (fun x y => (f y = .lt → f x = .lt) ∧ (f x = .gt → f y = .gt))

variable {f} {l : List α}

theorem orderAt_eq {i : ℕ} (h : i < l.length) : orderAt f l i = f l[i] := by
  rw [orderAt, List.getElem?_eq_getElem h]
  rfl

theorem Partitioned.lt_of_lt (hl : Partitioned f l) {i j : ℕ} (hij : i ≤ j) (hj : j < l.length)
    (h : orderAt f l j = .lt) : orderAt f l i = .lt := by
  rcases Nat.eq_or_lt_of_le hij with rfl | hlt
  · exact h
  · have hi := Nat.lt_trans hlt hj
    rw [orderAt_eq hj] at h
    rw [orderAt_eq hi]
    exact (List.pairwise_iff_getElem.mp hl i j hi hj hlt).1 h

theorem Partitioned.gt_of_gt (hl : Partitioned f l) {i j : ℕ} (hij : i ≤ j) (hj : j < l.length)
    (h : orderAt f l i = .gt) : orderAt f l j = .gt := by
  rcases Nat.eq_or_lt_of_le hij with rfl | hlt
  · exact h
  · have hi := Nat.lt_trans hlt hj
    rw [orderAt_eq hi] at h
    rw [orderAt_eq hj]
    exact (List.pairwise_iff_getElem.mp hl i j hi hj hlt).2 h

/-- The part that is left starts at an element that is not above, unless it starts the list,
and everything after the part is above. -/
theorem Partitioned.loop_spec (hl : Partitioned f l) {turns size base : ℕ} (hturns : size ≤ turns)
    (hsize : 0 < size) (hle : base + size ≤ l.length)
    (hbase : base = 0 ∨ orderAt f l base ≠ .gt)
    (hafter : ∀ i, base + size ≤ i → i < l.length → orderAt f l i = .gt) :
    loop f l turns size base < l.length ∧
    (loop f l turns size base = 0 ∨ orderAt f l (loop f l turns size base) ≠ .gt) ∧
    ∀ i, loop f l turns size base < i → i < l.length → orderAt f l i = .gt := by
  induction turns generalizing size base with
  | zero => omega
  | succ turns ih =>
    rw [loop]
    by_cases hone : 1 < size
    · rw [if_pos hone]
      have hhalf : 0 < size / 2 ∧ size / 2 < size := by omega
      simp only
      split
      · rename_i hgt
        apply ih (by omega) (by omega) (by omega) hbase
        intro i hi hlt
        exact hl.gt_of_gt (i := base + size / 2) (by omega) hlt hgt
      · rename_i hgt
        apply ih (by omega) (by omega) (by omega) (Or.inr hgt)
        intro i hi hlt
        exact hafter i (by omega) hlt
    · rw [if_neg hone]
      exact ⟨by omega, hbase, fun i hi hlt => hafter i (by omega) hlt⟩

/-- A match is an element at the place; without one the list splits at the index. -/
theorem Partitioned.search_spec (hl : Partitioned f l) :
    (∃ i x, search f l = .ok i ∧ x ∈ l ∧ f x = .eq) ∨
    ∃ i, search f l = .error i ∧ i ≤ l.length ∧ (∀ x ∈ l.take i, f x = .lt) ∧
      ∀ x ∈ l.drop i, f x = .gt := by
  unfold search
  by_cases hlen : l.length = 0
  · rw [if_pos hlen]
    right
    rw [List.length_eq_zero_iff.mp hlen]
    exact ⟨0, rfl, Nat.le_refl 0, fun x hx => absurd hx List.not_mem_nil,
      fun x hx => absurd hx List.not_mem_nil⟩
  · rw [if_neg hlen]
    simp only
    obtain ⟨hlt, hbase, hafter⟩ := hl.loop_spec (Nat.le_refl l.length) (Nat.pos_of_ne_zero hlen)
      (Nat.le_of_eq (Nat.zero_add _)) (Or.inl rfl)
      (fun i hi hlt => absurd hlt (by omega))
    generalize loop f l l.length l.length 0 = base at *
    cases hcmp : orderAt f l base with
    | eq =>
      exact Or.inl ⟨base, l[base], rfl, List.getElem_mem hlt, (orderAt_eq hlt).symm.trans hcmp⟩
    | lt =>
      refine Or.inr ⟨base + 1, rfl, hlt, ?_, ?_⟩
      · intro x hx
        obtain ⟨i, hi, rfl⟩ := List.mem_take_iff_getElem.mp hx
        have hi' : i < l.length := by omega
        exact (orderAt_eq hi').symm.trans (hl.lt_of_lt (by omega) hlt hcmp)
      · intro x hx
        obtain ⟨i, hi, rfl⟩ := List.mem_drop_iff_getElem.mp hx
        have hi' : base + 1 + i < l.length := by omega
        exact (orderAt_eq hi').symm.trans (hafter _ (by omega) hi')
    | gt =>
      have hzero : base = 0 := hbase.resolve_right (fun h => h hcmp)
      subst hzero
      refine Or.inr ⟨0, rfl, Nat.zero_le _, fun x hx => absurd hx List.not_mem_nil, ?_⟩
      intro x hx
      obtain ⟨i, hi, rfl⟩ := List.mem_drop_iff_getElem.mp hx
      have hi' : 0 + i < l.length := by omega
      exact (orderAt_eq hi').symm.trans (hl.gt_of_gt (Nat.zero_le _) hi' hcmp)

/-- What is inserted at an index comes between what was before it and the rest. -/
theorem insertIdx_eq (x : α) {i : ℕ} (h : i ≤ l.length) :
    l.insertIdx i x = l.take i ++ x :: l.drop i := by
  induction l generalizing i with
  | nil =>
    have hi : i = 0 := Nat.le_zero.mp h
    subst hi
    rfl
  | cons y l ih =>
    cases i with
    | zero => rfl
    | succ i =>
      rw [List.insertIdx_succ_cons, ih (Nat.le_of_succ_le_succ h), List.take_succ_cons,
        List.drop_succ_cons, List.cons_append]

end BinarySearch
