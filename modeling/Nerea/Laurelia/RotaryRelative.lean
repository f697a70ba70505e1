import Nerea.Laurelia.ChunkCausality
import Nerea.Shared.PairRotation

/-!
# The rotary embedding is relative

The rotation turns the pairs that the tables are made for, so the product of a query and a key
depends on the distance of their positions, and lengths are kept. A position gives the same
rotation wherever the tables end and however the sequence is cut.
-/

set_option autoImplicit false

namespace Nerea.Laurelia

open Matrix

universe u
variable {R : Type u} [Field R] {E : Elementary R} {head_dim : ℕ} {rotary_pct : ℚ}

namespace RoPE

/-- A head rotated at a position. -/
def giro (r : RoPE E head_dim rotary_pct) (x : Vec R head_dim) (pos : ℕ) : Vec R head_dim :=
  r.rotatePartial x (freqRow E E.cos head_dim _ r.base pos)
    (freqRow E E.sin head_dim _ r.base pos)

theorem half_add_half_le (r : RoPE E head_dim rotary_pct) :
    rotaryHalf head_dim rotary_pct + rotaryHalf head_dim rotary_pct ≤ head_dim := by
  rw [rotaryHalf_add_self r.head_dim_even]
  exact rotaryDim_le head_dim rotary_pct

/-- The code rotates the pairs of the tables. -/
theorem rotatePartial_eq (r : RoPE E head_dim rotary_pct) (x : Vec R head_dim)
    (cos sin : Vec R (rotaryHalf head_dim rotary_pct)) :
    r.rotatePartial x cos sin = PairRotation.rotate r.half_add_half_le x cos sin := by
  have hself := rotaryHalf_add_self r.head_dim_even rotary_pct
  unfold rotatePartial
  split
  · rename_i hzero
    have hhalf : rotaryHalf head_dim rotary_pct = 0 := by
      rw [rotaryHalf, hzero]
    funext d
    exact (PairRotation.rotate_rest r.half_add_half_le x cos sin (by omega)).symm
  · funext d
    unfold PairRotation.rotate
    simp only [hself]

theorem giro_of_le (r : RoPE E head_dim rotary_pct) (x : Vec R head_dim) (pos : ℕ)
    {d : Fin head_dim} (hd : rotaryDim head_dim rotary_pct ≤ d) : r.giro x pos d = x d := by
  unfold giro
  rw [rotatePartial_eq]
  apply PairRotation.rotate_rest
  rw [rotaryHalf_add_self r.head_dim_even]
  exact hd

/-- A position has its rotation in tables of any length. -/
theorem giro_congr {r r' : RoPE E head_dim rotary_pct} (hbase : r'.base = r.base) :
    r'.giro = r.giro := by
  funext x pos
  unfold giro
  rw [hbase, rotatePartial_eq, rotatePartial_eq]

theorem forward_getElem? {n m : ℕ} (r : RoPE E head_dim rotary_pct)
    (q : List (Fin n → Vec R head_dim)) (k : List (Fin m → Vec R head_dim)) (offset : ℕ)
    (hlength : q.length = k.length) (i : ℕ) :
    (r.forward q k offset).1[i]? = q[i]?.map (fun row h => r.giro (row h) (offset + i)) ∧
      (r.forward q k offset).2[i]? = k[i]?.map (fun row h => r.giro (row h) (offset + i)) := by
  rw [forward_eq r offset hlength, getElem?_rotateFrom, getElem?_rotateFrom]
  exact ⟨rfl, rfl⟩

section Addition

variable (hcos : ∀ a b, E.cos (a + b) = E.cos a * E.cos b - E.sin a * E.sin b)
  (hsin : ∀ a b, E.sin (a + b) = E.sin a * E.cos b + E.cos a * E.sin b)
  (hunit : ∀ a, E.cos a * E.cos a + E.sin a * E.sin a = 1)

include hunit in
theorem dotProduct_giro_self (r : RoPE E head_dim rotary_pct) (x : Vec R head_dim) (pos : ℕ) :
    r.giro x pos ⬝ᵥ r.giro x pos = x ⬝ᵥ x := by
  unfold giro
  rw [rotatePartial_eq]
  exact PairRotation.dotProduct_rotate_self _ x x fun i => hunit _

include hcos hsin hunit in
theorem dotProduct_giro_add (r : RoPE E head_dim rotary_pct) (q k : Vec R head_dim)
    (m n s : ℕ) : r.giro q (m + s) ⬝ᵥ r.giro k (n + s) = r.giro q m ⬝ᵥ r.giro k n := by
  unfold giro
  rw [rotatePartial_eq, rotatePartial_eq, rotatePartial_eq, rotatePartial_eq]
  apply PairRotation.dotProduct_rotate_congr
  · intro i
    simp only [freqRow, Nat.cast_add, add_mul, hcos, hsin]
    linear_combination (E.cos (m * invFreq E head_dim r.base i) *
      E.cos (n * invFreq E head_dim r.base i) + E.sin (m * invFreq E head_dim r.base i) *
      E.sin (n * invFreq E head_dim r.base i)) * hunit (s * invFreq E head_dim r.base i)
  · intro i
    simp only [freqRow, Nat.cast_add, add_mul, hcos, hsin]
    linear_combination (E.sin (m * invFreq E head_dim r.base i) *
      E.cos (n * invFreq E head_dim r.base i) - E.cos (m * invFreq E head_dim r.base i) *
      E.sin (n * invFreq E head_dim r.base i)) * hunit (s * invFreq E head_dim r.base i)

end Addition

/-- What the rotary embedding promises. -/
structure Relativa (r : RoPE E head_dim rotary_pct) : Prop where
  producto : ∀ q k m n s, r.giro q (m + s) ⬝ᵥ r.giro k (n + s) = r.giro q m ⬝ᵥ r.giro k n
  norma : ∀ x pos, r.giro x pos ⬝ᵥ r.giro x pos = x ⬝ᵥ x
  resto : ∀ x pos (d : Fin head_dim), rotaryDim head_dim rotary_pct ≤ d → r.giro x pos d = x d
  /-- Whatever tables `r'` has and wherever the call starts. -/
  posicion : ∀ r' : RoPE E head_dim rotary_pct, r'.base = r.base →
    ∀ {n m : ℕ} (q : List (Fin n → Vec R head_dim)) (k : List (Fin m → Vec R head_dim))
      (offset : ℕ), q.length = k.length → ∀ i,
      (r'.forward q k offset).1[i]? = q[i]?.map (fun row h => r.giro (row h) (offset + i)) ∧
      (r'.forward q k offset).2[i]? = k[i]?.map (fun row h => r.giro (row h) (offset + i))

/-- For any even head size, rotated fraction, base and tables. -/
theorem rotary_relative (head_dim : ℕ) (rotary_pct : ℚ)
    (r : RoPE realElementary head_dim rotary_pct) : r.Relativa where
  producto := by
    intro q k m n s
    apply r.dotProduct_giro_add
    · exact Real.cos_add
    · exact Real.sin_add
    · intro a
      rw [← sq, ← sq]
      exact Real.cos_sq_add_sin_sq a
  norma := by
    intro x pos
    apply r.dotProduct_giro_self
    intro a
    rw [← sq, ← sq]
    exact Real.cos_sq_add_sin_sq a
  resto := fun x pos _ hd => r.giro_of_le x pos hd
  posicion := by
    intro r' hbase n m q k offset hlength i
    rw [← giro_congr hbase]
    exact r'.forward_getElem? q k offset hlength i

end RoPE
end Nerea.Laurelia
