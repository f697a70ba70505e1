import Mathlib.Data.Matrix.Mul
import Mathlib.Data.Rat.Floor
import Mathlib.Logic.Equiv.Fin.Basic

/-!
# Laurelia: scalars, shapes and configuration

The model's tensors over an arbitrary field with a linear order instead of `f32`, so
that arithmetic is exact. A batch of one sequence is a list of rows, one for each
position; a row is a vector with its width in its type, and a reshape of the last axis
is an index bijection.
-/

set_option autoImplicit false

namespace Nerea.Laurelia

universe u

/-- The functions of analysis that the kernels call. -/
structure Elementary (R : Type u) where
  exp : R → R
  cos : R → R
  sin : R → R
  sqrt : R → R
  powf : R → R → R

abbrev Vec (R : Type u) (n : ℕ) := Fin n → R

/-- `Config`, for head counts that are a multiple of the number of key/value groups. -/
structure Config where
  dim : ℕ
  heads : ℕ
  kv_groups : ℕ
  ffn_dim : ℕ
  emb_num : ℕ
  rotary_pct : ℚ
  kv_groups_dvd : kv_groups ∣ heads

abbrev Config.head_dim (c : Config) : ℕ := c.dim / c.heads

variable {R : Type u}

/-- `reshape` of a row `(n * d)` to `(n, d)`. -/
def splitHeads {n d : ℕ} (x : Vec R (n * d)) : Fin n → Vec R d :=
  fun h j => x (finProdFinEquiv (h, j))

def mergeHeads {n d : ℕ} (x : Fin n → Vec R d) : Vec R (n * d) :=
  fun i => x (finProdFinEquiv.symm i).1 (finProdFinEquiv.symm i).2

/-- `Tensor::narrow` along the positions. -/
def narrow {α : Type u} (xs : List α) (start len : ℕ) : List α := (xs.drop start).take len

end Nerea.Laurelia
