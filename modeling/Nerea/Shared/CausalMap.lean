import Mathlib.Data.List.Basic

/-!
# Causal list functions

A function that computes every output from the inputs up to its own position. Running one
over a list in two parts is running it once, and an output needs no later input.
-/

set_option autoImplicit false

namespace CausalMap

universe u v w
variable {α : Type u} {β : Type v} {γ : Type w}

/-- The outputs of `f` over a list that continues the history `hist`. -/
def causalMap (f : List α → α → β) : List α → List α → List β
  | _, [] => []
  | hist, x :: xs => f hist x :: causalMap f (hist ++ [x]) xs

@[simp] theorem causalMap_nil (f : List α → α → β) (hist : List α) :
    causalMap f hist [] = [] := rfl

theorem causalMap_singleton (f : List α → α → β) (hist : List α) (x : α) :
    causalMap f hist [x] = [f hist x] := rfl

@[simp] theorem length_causalMap (f : List α → α → β) (hist xs : List α) :
    (causalMap f hist xs).length = xs.length := by
  induction xs generalizing hist with
  | nil => rfl
  | cons x xs ih => simp [causalMap, ih]

theorem causalMap_append (f : List α → α → β) (hist xs ys : List α) :
    causalMap f hist (xs ++ ys) = causalMap f hist xs ++ causalMap f (hist ++ xs) ys := by
  induction xs generalizing hist with
  | nil => simp
  | cons x xs ih => simp [causalMap, ih]

theorem getElem?_causalMap (f : List α → α → β) (hist xs : List α) (i : Nat) :
    (causalMap f hist xs)[i]? = xs[i]?.map (f (hist ++ xs.take i)) := by
  induction xs generalizing hist i with
  | nil => simp
  | cons x xs ih =>
    cases i with
    | zero => simp [causalMap]
    | succ i => simp [causalMap, ih]

theorem eq_causalMap {f : List α → α → β} {xs : List α} {ys : List β}
    (h : ∀ i : Nat, ys[i]? = xs[i]?.map (f (xs.take i))) : ys = causalMap f [] xs := by
  apply List.ext_getElem?
  intro i
  rw [h, getElem?_causalMap, List.nil_append]

theorem take_causalMap (f : List α → α → β) (hist xs : List α) (n : Nat) :
    (causalMap f hist xs).take n = causalMap f hist (xs.take n) := by
  induction xs generalizing hist n with
  | nil => simp
  | cons x xs ih =>
    cases n with
    | zero => simp
    | succ n => simp [causalMap, ih]

theorem zipWith_causalMap (f : List α → α → β) (g : α → β → γ) (hist xs : List α) :
    List.zipWith g xs (causalMap f hist xs) =
      causalMap (fun h x => g x (f h x)) hist xs := by
  induction xs generalizing hist with
  | nil => rfl
  | cons x xs ih => simp [causalMap, ih]

theorem causalMap_map (f : List β → β → γ) (g : α → β) (hist xs : List α) :
    causalMap f (hist.map g) (xs.map g) = causalMap (fun h x => f (h.map g) (g x)) hist xs := by
  induction xs generalizing hist with
  | nil => rfl
  | cons x xs ih =>
    have hhist : hist.map g ++ [g x] = (hist ++ [x]).map g := by simp
    simp only [List.map_cons, causalMap, hhist, ih]

end CausalMap
