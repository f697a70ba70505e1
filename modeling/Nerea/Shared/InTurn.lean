import Mathlib.Logic.Function.Basic

/-!
# Filling a cell in turns

A caller checks a cell, waits, and fills the cell without checking again. Callers that begin
only while no other is between its check and its assignment are there one at a time, and the
cell stays empty for each until it fills it.
-/

set_option autoImplicit false

universe u v w
variable {ι : Type u} {F : Type v} {γ : Type w}

/-- At most one caller is under way, and the cell is empty while one is. -/
structure InTurn (underWay : F → Prop) (phase : ι → F) (cell : Option γ) : Prop where
  alone : ∀ i j, underWay (phase i) → underWay (phase j) → i = j
  vacant : ∀ i, underWay (phase i) → cell = none

namespace InTurn

variable {underWay : F → Prop} {phase : ι → F} {cell : Option γ}

theorem idle (h : ∀ i, ¬ underWay (phase i)) (cell : Option γ) : InTurn underWay phase cell :=
  ⟨fun i _ hi => absurd hi (h i), fun i hi => absurd hi (h i)⟩

variable [DecidableEq ι]

/-- A caller goes on that was under way, or that is not any more. -/
theorem advance (h : InTurn underWay phase cell) {i : ι} {f : F}
    (hf : underWay f → underWay (phase i)) :
    InTurn underWay (Function.update phase i f) cell := by
  have hback : ∀ j, underWay (Function.update phase i f j) → underWay (phase j) := by
    intro j hj
    by_cases heq : j = i
    · rw [heq, Function.update_self] at hj
      exact heq ▸ hf hj
    · rwa [Function.update_of_ne heq] at hj
  exact ⟨fun j k hj hk => h.alone j k (hback j hj) (hback k hk),
    fun j hj => h.vacant j (hback j hj)⟩

/-- The one that was under way is done, whatever is in the cell now. -/
theorem leave (h : InTurn underWay phase cell) {i : ι} (hi : underWay (phase i)) {f : F}
    (hf : ¬ underWay f) (cell' : Option γ) :
    InTurn underWay (Function.update phase i f) cell' := by
  refine idle (fun j hj => ?_) cell'
  by_cases heq : j = i
  · rw [heq, Function.update_self] at hj
    exact hf hj
  · rw [Function.update_of_ne heq] at hj
    exact heq (h.alone j i hj hi)

/-- A caller finds the cell empty, and no other under way. -/
theorem enter (hcell : cell = none) (h : ∀ j, ¬ underWay (phase j)) (i : ι) (f : F) :
    InTurn underWay (Function.update phase i f) cell := by
  have honly : ∀ j, underWay (Function.update phase i f j) → j = i := by
    intro j hj
    by_contra heq
    rw [Function.update_of_ne heq] at hj
    exact h j hj
  exact ⟨fun j k hj hk => (honly j hj).trans (honly k hk).symm, fun _ _ => hcell⟩

end InTurn
