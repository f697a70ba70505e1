import Nerea.Laurelia.Config

/-!
# Partial rotary embedding

The tables hold, for every position below `max_seq_len`, the cosines and sines of the
position times each inverse frequency. A slice that ends beyond the tables is taken
from tables rebuilt to its end. Either way the rotation of a row depends on its
position alone.
-/

set_option autoImplicit false

namespace Nerea.Laurelia

universe u
variable {R : Type u} [Field R] {E : Elementary R}

/-- `int(head_dim * rotary_pct)` rounded down to even. -/
def rotaryDim (head_dim : ℕ) (rotary_pct : ℚ) : ℕ :=
  if 1 ≤ rotary_pct then head_dim
  else
    let rd := ⌊(head_dim : ℚ) * rotary_pct⌋₊
    rd - rd % 2

abbrev rotaryHalf (head_dim : ℕ) (rotary_pct : ℚ) : ℕ := rotaryDim head_dim rotary_pct / 2

theorem rotaryDim_le (head_dim : ℕ) (rotary_pct : ℚ) :
    rotaryDim head_dim rotary_pct ≤ head_dim := by
  unfold rotaryDim
  split
  · exact le_refl _
  · rename_i h
    refine (Nat.sub_le _ _).trans (Nat.floor_le_of_le ?_)
    calc (head_dim : ℚ) * rotary_pct ≤ (head_dim : ℚ) * 1 :=
          mul_le_mul_of_nonneg_left (le_of_not_ge h) (Nat.cast_nonneg _)
      _ = head_dim := mul_one _

theorem rotaryHalf_add_self {head_dim : ℕ} (heven : head_dim % 2 = 0) (rotary_pct : ℚ) :
    rotaryHalf head_dim rotary_pct + rotaryHalf head_dim rotary_pct =
      rotaryDim head_dim rotary_pct := by
  have hmod : rotaryDim head_dim rotary_pct % 2 = 0 := by
    unfold rotaryDim
    split
    · exact heven
    · dsimp only
      omega
  unfold rotaryHalf
  omega

/-- `1.0 / base.powf(2.0 * k / head_dim)` -/
def invFreq (E : Elementary R) (head_dim : ℕ) (base : R) (k : ℕ) : R :=
  1 / E.powf base (2 * (k : R) / (head_dim : R))

/-- `.powf(-0.5)` -/
def Elementary.rsqrt (E : Elementary R) (x : R) : R := E.powf x (-(1 / 2))

def freqRow (E : Elementary R) (f : R → R) (head_dim n : ℕ) (base : R) (pos : ℕ) : Vec R n :=
  fun k => f ((pos : R) * invFreq E head_dim base k)

def freqTable (E : Elementary R) (f : R → R) (head_dim n : ℕ) (base : R) (len : ℕ) :
    List (Vec R n) :=
  (List.range len).map (freqRow E f head_dim n base)

/-- Only tables of the right contents can be built, and only for even head sizes.
`Attention::new` asks for `block_size` positions and base 10000. -/
structure RoPE (E : Elementary R) (head_dim : ℕ) (rotary_pct : ℚ) where
  max_seq_len : ℕ
  base : R
  cos_cache : List (Vec R (rotaryHalf head_dim rotary_pct))
  sin_cache : List (Vec R (rotaryHalf head_dim rotary_pct))
  head_dim_even : head_dim % 2 = 0
  cos_cache_eq : cos_cache = freqTable E E.cos head_dim _ base max_seq_len
  sin_cache_eq : sin_cache = freqTable E E.sin head_dim _ base max_seq_len

namespace RoPE
variable {head_dim : ℕ} {rotary_pct : ℚ}

def new (E : Elementary R) (head_dim max_seq_len : ℕ) (base : R) (rotary_pct : ℚ)
    (head_dim_even : head_dim % 2 = 0) : RoPE E head_dim rotary_pct where
  max_seq_len := max_seq_len
  base := base
  cos_cache := freqTable E E.cos head_dim _ base max_seq_len
  sin_cache := freqTable E E.sin head_dim _ base max_seq_len
  head_dim_even := head_dim_even
  cos_cache_eq := rfl
  sin_cache_eq := rfl

def cacheSlice (r : RoPE E head_dim rotary_pct) (offset seq_len : ℕ) :
    List (Vec R (rotaryHalf head_dim rotary_pct)) ×
      List (Vec R (rotaryHalf head_dim rotary_pct)) :=
  let last := offset + seq_len
  if r.max_seq_len < last then
    let rebuilt := new E head_dim last r.base rotary_pct r.head_dim_even
    (narrow rebuilt.cos_cache offset seq_len, narrow rebuilt.sin_cache offset seq_len)
  else (narrow r.cos_cache offset seq_len, narrow r.sin_cache offset seq_len)

/-- Rota solo las primeras `rotary_dim` dims; el resto pasa sin cambio. -/
def rotatePartial (r : RoPE E head_dim rotary_pct) (x : Vec R head_dim)
    (cos sin : Vec R (rotaryHalf head_dim rotary_pct)) : Vec R head_dim :=
  if rotaryDim head_dim rotary_pct = 0 then x
  else fun d =>
    have hhalf := rotaryHalf_add_self r.head_dim_even rotary_pct
    have hle := rotaryDim_le head_dim rotary_pct
    if h : d < rotaryHalf head_dim rotary_pct then
      x d * cos ⟨d, h⟩ - x ⟨d + rotaryHalf head_dim rotary_pct, by omega⟩ * sin ⟨d, h⟩
    else if h' : d < rotaryDim head_dim rotary_pct then
      x ⟨d - rotaryHalf head_dim rotary_pct, by omega⟩ *
          sin ⟨d - rotaryHalf head_dim rotary_pct, by omega⟩ +
        x d * cos ⟨d - rotaryHalf head_dim rotary_pct, by omega⟩
    else x d

/-- `rotate_partial` on a row of heads at each position. -/
def rotateRows {n : ℕ} (r : RoPE E head_dim rotary_pct) (x : List (Fin n → Vec R head_dim))
    (cos sin : List (Vec R (rotaryHalf head_dim rotary_pct))) :
    List (Fin n → Vec R head_dim) :=
  List.zipWith (fun row cs => fun h => r.rotatePartial (row h) cs.1 cs.2) x (cos.zip sin)

def forward {n m : ℕ} (r : RoPE E head_dim rotary_pct) (q : List (Fin n → Vec R head_dim))
    (k : List (Fin m → Vec R head_dim)) (offset : ℕ) :
    List (Fin n → Vec R head_dim) × List (Fin m → Vec R head_dim) :=
  let seq_len := q.length
  let (cos, sin) := r.cacheSlice offset seq_len
  (r.rotateRows q cos sin, r.rotateRows k cos sin)

def rotateAt {n : ℕ} (r : RoPE E head_dim rotary_pct) (pos : ℕ)
    (row : Fin n → Vec R head_dim) : Fin n → Vec R head_dim :=
  fun h => r.rotatePartial (row h) (freqRow E E.cos head_dim _ r.base pos)
    (freqRow E E.sin head_dim _ r.base pos)

def rotateFrom {n : ℕ} (r : RoPE E head_dim rotary_pct) :
    ℕ → List (Fin n → Vec R head_dim) → List (Fin n → Vec R head_dim)
  | _, [] => []
  | pos, row :: rows => r.rotateAt pos row :: rotateFrom r (pos + 1) rows

theorem narrow_freqTable (f : R → R) (n : ℕ) (base : R) {len offset seq_len : ℕ}
    (h : offset + seq_len ≤ len) :
    narrow (freqTable E f head_dim n base len) offset seq_len =
      (List.range' offset seq_len).map (freqRow E f head_dim n base) := by
  rw [narrow, freqTable, ← List.map_drop, ← List.map_take, List.range_eq_range',
    List.drop_range', List.take_range'_of_length_ge (by omega), Nat.zero_add, Nat.mul_one]

/-- Rebuilding the tables does not change the slice. -/
theorem cacheSlice_eq (r : RoPE E head_dim rotary_pct) (offset seq_len : ℕ) :
    r.cacheSlice offset seq_len =
      ((List.range' offset seq_len).map (freqRow E E.cos head_dim _ r.base),
        (List.range' offset seq_len).map (freqRow E E.sin head_dim _ r.base)) := by
  unfold cacheSlice
  dsimp only
  split
  · rw [new, narrow_freqTable _ _ _ (le_refl _), narrow_freqTable _ _ _ (le_refl _)]
  · rename_i h
    rw [r.cos_cache_eq, r.sin_cache_eq, narrow_freqTable _ _ _ (le_of_not_gt h),
      narrow_freqTable _ _ _ (le_of_not_gt h)]

theorem rotateRows_range' {n : ℕ} (r : RoPE E head_dim rotary_pct) (pos : ℕ)
    (rows : List (Fin n → Vec R head_dim)) :
    r.rotateRows rows
        ((List.range' pos rows.length).map (freqRow E E.cos head_dim _ r.base))
        ((List.range' pos rows.length).map (freqRow E E.sin head_dim _ r.base)) =
      r.rotateFrom pos rows := by
  induction rows generalizing pos with
  | nil => rfl
  | cons row rows ih =>
    have hrows := ih (pos + 1)
    simp only [rotateRows, List.length_cons, List.range'_succ, List.map_cons,
      List.zip_cons_cons, List.zipWith_cons_cons, rotateFrom] at hrows ⊢
    rw [hrows]
    rfl

theorem forward_eq {n m : ℕ} (r : RoPE E head_dim rotary_pct)
    {q : List (Fin n → Vec R head_dim)} {k : List (Fin m → Vec R head_dim)} (offset : ℕ)
    (h : q.length = k.length) :
    r.forward q k offset = (r.rotateFrom offset q, r.rotateFrom offset k) := by
  simp only [forward, cacheSlice_eq, rotateRows_range']
  rw [h, rotateRows_range']

@[simp] theorem length_rotateFrom {n : ℕ} (r : RoPE E head_dim rotary_pct) (pos : ℕ)
    (rows : List (Fin n → Vec R head_dim)) : (r.rotateFrom pos rows).length = rows.length := by
  induction rows generalizing pos with
  | nil => rfl
  | cons row rows ih => simp [rotateFrom, ih]

theorem rotateFrom_append {n : ℕ} (r : RoPE E head_dim rotary_pct) (pos : ℕ)
    (xs ys : List (Fin n → Vec R head_dim)) :
    r.rotateFrom pos (xs ++ ys) = r.rotateFrom pos xs ++ r.rotateFrom (pos + xs.length) ys := by
  induction xs generalizing pos with
  | nil => rfl
  | cons x xs ih => simp [rotateFrom, ih, Nat.add_assoc, Nat.add_comm]

theorem take_rotateFrom {n : ℕ} (r : RoPE E head_dim rotary_pct) (pos : ℕ)
    (rows : List (Fin n → Vec R head_dim)) (i : ℕ) :
    (r.rotateFrom pos rows).take i = r.rotateFrom pos (rows.take i) := by
  induction rows generalizing pos i with
  | nil => simp [rotateFrom]
  | cons row rows ih =>
    cases i with
    | zero => rfl
    | succ i => simp [rotateFrom, ih]

theorem getElem?_rotateFrom {n : ℕ} (r : RoPE E head_dim rotary_pct) (pos : ℕ)
    (rows : List (Fin n → Vec R head_dim)) (i : ℕ) :
    (r.rotateFrom pos rows)[i]? = rows[i]?.map (r.rotateAt (pos + i)) := by
  induction rows generalizing pos i with
  | nil => simp [rotateFrom]
  | cons row rows ih =>
    cases i with
    | zero => simp [rotateFrom]
    | succ i =>
      simp only [rotateFrom, List.getElem?_cons_succ, ih]
      congr 2
      omega

end RoPE
end Nerea.Laurelia
