import Mathlib.Algebra.BigOperators.Group.List.Basic
import Mathlib.Algebra.Field.Defs
import Mathlib.Algebra.Module.Defs
import Mathlib.Algebra.Order.Monoid.Unbundled.WithTop

/-!
# Softmax over scores that may be minus infinity

Scores live in `WithBot R`, where `⊥` is what a mask adds. Masked scores get weight
zero and change neither the maximum nor the sum, so they may be left out together with
the values they would have weighted. The exponential is any function.
-/

set_option autoImplicit false

namespace MaskedSoftmax

universe u v

theorem foldr_max_append_bot {R : Type u} [LinearOrder R] (xs : List (WithBot R)) (n : Nat) :
    (xs ++ List.replicate n ⊥).foldr max ⊥ = xs.foldr max ⊥ := by
  rw [List.foldr_append]
  congr 1
  induction n with
  | zero => rfl
  | succ n ih => simp [List.replicate_succ, ih]

variable {R : Type u} [Field R] [LinearOrder R] (exp : R → R)

/-- `exp (x - m)` with `exp (-∞) = 0`. -/
def expSub (m x : WithBot R) : R :=
  match x, m with
  | none, _ => 0
  | some x, none => exp x
  | some x, some m => exp (x - m)

def softmax (xs : List (WithBot R)) : List R :=
  let num := xs.map (expSub exp (xs.foldr max ⊥))
  num.map (· / num.sum)

@[simp] theorem length_softmax (xs : List (WithBot R)) :
    (softmax exp xs).length = xs.length := by
  simp [softmax]

theorem softmax_append_bot (xs : List (WithBot R)) (n : Nat) :
    softmax exp (xs ++ List.replicate n ⊥) = softmax exp xs ++ List.replicate n 0 := by
  have hbot : expSub exp (xs.foldr max ⊥) ⊥ = 0 := rfl
  rw [softmax, foldr_max_append_bot]
  simp [softmax, hbot]

variable {V : Type v} [AddCommMonoid V] [Module R V]

def attend (scores : List (WithBot R)) (vs : List V) : V :=
  (List.zipWith (· • ·) (softmax exp scores) vs).sum

/-- Masked scores and their values may be left out. -/
theorem attend_append_bot {scores : List (WithBot R)} {vs : List V}
    (h : scores.length = vs.length) (ws : List V) :
    attend exp (scores ++ List.replicate ws.length ⊥) (vs ++ ws) = attend exp scores vs := by
  have hzero : (List.zipWith (· • ·) (List.replicate ws.length (0 : R)) ws).sum = 0 := by
    clear h
    induction ws with
    | nil => rfl
    | cons w ws ih => simp [List.replicate_succ, ih]
  rw [attend, softmax_append_bot, List.zipWith_append (by simp [h]), List.sum_append, hzero,
    add_zero, attend]

end MaskedSoftmax
