import Nerea.Laurelia.Rope
import Nerea.Shared.CausalMap
import Nerea.Shared.MaskedSoftmax

/-!
# Grouped-query attention

`forward` attends over the whole sequence under a causal mask; `forward_with_cache`
appends the new keys and values to the cached ones and masks only when there was no
cache. Both are compared with `attendNew`, the output for a row that comes after a
given history of rows.
-/

set_option autoImplicit false

namespace Nerea.Laurelia

open CausalMap MaskedSoftmax Matrix

universe u
variable {R : Type u} [Field R] [LinearOrder R] {E : Elementary R} {c : Config}

theorem group_lt {g n i : ℕ} (hdvd : g ∣ n) (hi : i < n) : i / (n / g) < g := by
  apply Nat.div_lt_of_lt_mul
  rwa [Nat.div_mul_cancel hdvd]

/-- `repeat_kv` on one row: head `h` reads group `h / repeats`. -/
def repeatKv {V : Type u} {num_heads num_kv_groups : ℕ} (hdvd : num_kv_groups ∣ num_heads)
    (x : Fin num_kv_groups → V) : Fin num_heads → V :=
  if h : num_kv_groups = num_heads then fun i => x (i.cast h.symm)
  else
    let repeats := num_heads / num_kv_groups
    fun i => x ⟨i / repeats, group_lt hdvd i.isLt⟩

/-- Keys and values of the positions so far, in groups, the keys already rotated. -/
structure KVCache (R : Type u) (c : Config) where
  cached_k : List (Fin c.kv_groups → Vec R c.head_dim)
  cached_v : List (Fin c.kv_groups → Vec R c.head_dim)

structure Attention (E : Elementary R) (c : Config) where
  q_proj : Matrix (Fin (c.heads * c.head_dim)) (Fin c.dim) R
  k_proj : Matrix (Fin (c.kv_groups * c.head_dim)) (Fin c.dim) R
  v_proj : Matrix (Fin (c.kv_groups * c.head_dim)) (Fin c.dim) R
  o_proj : Matrix (Fin c.dim) (Fin (c.heads * c.head_dim)) R
  rope : RoPE E c.head_dim c.rotary_pct
  causal : Bool

namespace Attention

def scores (E : Elementary R) {d : ℕ} (q : Vec R d) (k : List (Vec R d)) : List (WithBot R) :=
  k.map fun kj => ↑((q ⬝ᵥ kj) / E.sqrt (d : R))

/-- `causal_mask`: row `i` sees column `j` when `j ≤ i + (kv_len - q_len)`. -/
def causalMask (R : Type u) [Zero R] (q_len kv_len : ℕ) : List (List (WithBot R)) :=
  let diag : ℤ := kv_len - q_len
  (List.range q_len).map fun i : ℕ =>
    (List.range kv_len).map fun j : ℕ => if (j : ℤ) > i + diag then ⊥ else 0

/-- `sdpa` on rows of heads, each head on its own. -/
def sdpa {n d : ℕ} (E : Elementary R) (q k v : List (Fin n → Vec R d)) (is_causal : Bool) :
    List (Fin n → Vec R d) :=
  if is_causal then
    List.zipWith (fun qi mask => fun h =>
        attend E.exp (List.zipWith (· + ·) (scores E (qi h) (k.map (· h))) mask)
          (v.map (· h)))
      q (causalMask R q.length k.length)
  else q.map fun qi => fun h => attend E.exp (scores E (qi h) (k.map (· h))) (v.map (· h))

variable (a : Attention E c)

def forward (x : List (Vec R c.dim)) (offset : ℕ) : List (Vec R c.dim) :=
  let q : List (Fin c.heads → Vec R c.head_dim) := x.map fun r => splitHeads (a.q_proj *ᵥ r)
  let k : List (Fin c.kv_groups → Vec R c.head_dim) :=
    x.map fun r => splitHeads (a.k_proj *ᵥ r)
  let v : List (Fin c.kv_groups → Vec R c.head_dim) :=
    x.map fun r => splitHeads (a.v_proj *ᵥ r)
  let (q, k) := a.rope.forward q k offset
  let k := k.map (repeatKv c.kv_groups_dvd)
  let v := v.map (repeatKv c.kv_groups_dvd)
  let out := sdpa E q k v (a.causal && decide (x.length > 1))
  out.map fun r => a.o_proj *ᵥ mergeHeads r

def forwardWithCache (x : List (Vec R c.dim)) (offset : ℕ) (cache : Option (KVCache R c)) :
    List (Vec R c.dim) × KVCache R c :=
  let q_new : List (Fin c.heads → Vec R c.head_dim) :=
    x.map fun r => splitHeads (a.q_proj *ᵥ r)
  let k_new : List (Fin c.kv_groups → Vec R c.head_dim) :=
    x.map fun r => splitHeads (a.k_proj *ᵥ r)
  let v_new : List (Fin c.kv_groups → Vec R c.head_dim) :=
    x.map fun r => splitHeads (a.v_proj *ᵥ r)
  let (q_new, k_new) := a.rope.forward q_new k_new offset
  let (k_full, v_full) := match cache with
    | some kv => (kv.cached_k ++ k_new, kv.cached_v ++ v_new)
    | none => (k_new, v_new)
  let new_cache : KVCache R c := ⟨k_full, v_full⟩
  let k_exp := k_full.map (repeatKv c.kv_groups_dvd)
  let v_exp := v_full.map (repeatKv c.kv_groups_dvd)
  let out := sdpa E q_new k_exp v_exp (a.causal && cache.isNone && decide (x.length > 1))
  (out.map fun r => a.o_proj *ᵥ mergeHeads r, new_cache)

/-- What a cache over the rows `xs` must hold. -/
def cacheOf (xs : List (Vec R c.dim)) : KVCache R c where
  cached_k := a.rope.rotateFrom 0 (xs.map fun r => splitHeads (a.k_proj *ᵥ r))
  cached_v := xs.map fun r => splitHeads (a.v_proj *ᵥ r)

/-- The output for one rotated query over given keys and values. -/
def attendAll (q : Fin c.heads → Vec R c.head_dim) (kv : KVCache R c) : Vec R c.dim :=
  a.o_proj *ᵥ mergeHeads fun h =>
    attend E.exp (scores E (q h) ((kv.cached_k.map (repeatKv c.kv_groups_dvd)).map (· h)))
      ((kv.cached_v.map (repeatKv c.kv_groups_dvd)).map (· h))

def attendNew (hist : List (Vec R c.dim)) (x : Vec R c.dim) : Vec R c.dim :=
  a.attendAll (a.rope.rotateAt hist.length (splitHeads (a.q_proj *ᵥ x)))
    (a.cacheOf (hist ++ [x]))

omit [LinearOrder R] in
theorem scores_append {d : ℕ} (q : Vec R d) (k k' : List (Vec R d)) :
    scores E q (k ++ k') = scores E q k ++ scores E q k' := by
  simp [scores]

omit [LinearOrder R] in
theorem getElem?_causalMask {n i : ℕ} (h : i < n) :
    (causalMask R n n)[i]? =
      some (List.replicate (i + 1) 0 ++ List.replicate (n - (i + 1)) ⊥) := by
  simp only [causalMask, List.getElem?_map, List.getElem?_range h, Option.map_some,
    Option.some.injEq]
  apply List.ext_getElem
  · simp
    omega
  · intro j hj _
    simp only [List.getElem_map, List.getElem_range, List.getElem_append, List.length_replicate,
      List.getElem_replicate]
    split <;> split <;> first | rfl | omega

omit [LinearOrder R] in
theorem zipWith_scores_mask {d i : ℕ} (q : Vec R d) {k : List (Vec R d)} (h : i ≤ k.length) :
    List.zipWith (· + ·) (scores E q k)
        (List.replicate i 0 ++ List.replicate (k.length - i) ⊥) =
      scores E q (k.take i) ++ List.replicate (k.drop i).length ⊥ := by
  have hzero (xs : List (WithBot R)) :
      List.zipWith (· + ·) xs (List.replicate xs.length 0) = xs := by
    induction xs with
    | nil => rfl
    | cons x xs ih => simp [List.replicate_succ, ih]
  have hbot (xs : List (WithBot R)) :
      List.zipWith (· + ·) xs (List.replicate xs.length ⊥) = List.replicate xs.length ⊥ := by
    induction xs with
    | nil => rfl
    | cons x xs ih => simp [List.replicate_succ, ih]
  have htake : (scores E q (k.take i)).length = i := by simp [scores, h]
  have hdrop : (scores E q (k.drop i)).length = k.length - i := by simp [scores]
  conv_lhs => rw [← List.take_append_drop i k, scores_append]
  rw [List.take_append_drop, List.zipWith_append (by simp [htake])]
  congr 1
  · simpa [htake] using hzero (scores E q (k.take i))
  · simpa [hdrop] using hbot (scores E q (k.drop i))

/-- Under the mask, row `i` attends to the keys and values up to `i`. -/
theorem getElem?_sdpa {n d : ℕ} {q k v : List (Fin n → Vec R d)} (hk : k.length = q.length)
    (hv : v.length = q.length) (i : ℕ) :
    (sdpa E q k v true)[i]? = q[i]?.map fun qi => fun h =>
      attend E.exp (scores E (qi h) ((k.take (i + 1)).map (· h)))
        ((v.take (i + 1)).map (· h)) := by
  by_cases hi : i < q.length
  · simp only [sdpa, hk, if_true, List.getElem?_zipWith, getElem?_causalMask hi,
      List.getElem?_eq_getElem hi, Option.map_some, Option.some.injEq]
    funext h
    have hlen : (k.map (· h)).length = q.length := by simp [hk]
    have hmask := zipWith_scores_mask (E := E) (q[i] h) (k := k.map (· h)) (i := i + 1)
      (by omega)
    have hdrop : ((k.map (· h)).drop (i + 1)).length = ((v.map (· h)).drop (i + 1)).length := by
      simp [hk, hv]
    rw [hlen, hdrop] at hmask
    rw [hmask, List.map_take, List.map_take]
    have hlens : (scores E (q[i] h) ((k.map (· h)).take (i + 1))).length =
        ((v.map (· h)).take (i + 1)).length := by
      simp [scores, hk, hv]
    have hattend := attend_append_bot E.exp hlens ((v.map (· h)).drop (i + 1))
    rwa [List.take_append_drop] at hattend
  · have hq : q[i]? = none := List.getElem?_eq_none (by omega)
    simp [sdpa, List.getElem?_zipWith, hq]

/-- Without a cache the two forward passes are one, and leave the cache of their rows. -/
theorem forwardWithCache_none (x : List (Vec R c.dim)) :
    a.forwardWithCache x 0 none = (a.forward x 0, a.cacheOf x) := by
  simp only [forwardWithCache, forward, Option.isNone_none, Bool.and_true, Prod.mk.injEq,
    true_and]
  rw [RoPE.forward_eq _ _ (by simp)]
  rfl

/-- Full attention computes every row from the rows up to it. -/
theorem forward_eq (hcausal : a.causal = true) (x : List (Vec R c.dim)) :
    a.forward x 0 = causalMap a.attendNew [] x := by
  apply eq_causalMap
  intro i
  simp only [forward, hcausal, Bool.true_and]
  rw [RoPE.forward_eq _ _ (by simp)]
  by_cases hlen : x.length > 1
  · simp only [hlen, decide_true, List.getElem?_map]
    rw [getElem?_sdpa (by simp) (by simp), RoPE.getElem?_rotateFrom]
    cases hi : x[i]? with
    | none => simp [hi]
    | some xi =>
      obtain ⟨hlt, -⟩ := List.getElem?_eq_some_iff.mp hi
      have htake : x.take i ++ [xi] = x.take (i + 1) := by
        rw [List.take_add_one, hi, Option.toList_some]
      have hilen : (x.take i).length = i := by simp; omega
      simp [hi, attendNew, attendAll, htake, hilen, cacheOf, List.map_take,
        ← RoPE.take_rotateFrom]
  · match x, hlen with
    | [], _ => simp [sdpa, RoPE.rotateFrom]
    | [x₀], _ =>
      cases i with
      | zero => simp [sdpa, RoPE.rotateFrom, attendNew, attendAll, cacheOf]
      | succ i => simp [sdpa, RoPE.rotateFrom]
    | _ :: _ :: _, hlen => exact absurd (by simp) hlen

/-- One row over the cache of its history gives that row's output and extends the cache. -/
theorem forwardWithCache_some (hist : List (Vec R c.dim)) (x : Vec R c.dim) :
    a.forwardWithCache [x] hist.length (some (a.cacheOf hist)) =
      ([a.attendNew hist x], a.cacheOf (hist ++ [x])) := by
  have hcache : a.cacheOf (hist ++ [x]) =
      ⟨(a.cacheOf hist).cached_k ++
          a.rope.rotateFrom hist.length [splitHeads (a.k_proj *ᵥ x)],
        (a.cacheOf hist).cached_v ++ [splitHeads (a.v_proj *ᵥ x)]⟩ := by
    simp [cacheOf, RoPE.rotateFrom_append]
  simp only [forwardWithCache, List.map_cons, List.map_nil, Option.isNone_some, Bool.and_false,
    Bool.false_and]
  rw [RoPE.forward_eq _ _ (by simp), attendNew, hcache]
  simp [sdpa, attendAll, RoPE.rotateFrom]

end Attention
end Nerea.Laurelia
