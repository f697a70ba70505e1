import Nerea.Laurelia.Attention
import Mathlib.Algebra.BigOperators.Fin

/-!
# The model

Norm, feed-forward part, blocks and the whole network, with and without the caches.
Everything but attention treats each position on its own, so a block is causal and its
cached pass needs the rows of the positions before only through the cache.
-/

set_option autoImplicit false

namespace Nerea.Laurelia

open CausalMap Matrix

universe u
variable {R : Type u} [Field R] [LinearOrder R] {E : Elementary R} {c : Config}

structure RMSNorm (R : Type u) (dim : ℕ) where
  weight : Vec R dim
  eps : R

/-- `x * rsqrt(mean(x^2, dim=-1) + eps) * weight` -/
def RMSNorm.forward {dim : ℕ} (E : Elementary R) (n : RMSNorm R dim) (x : Vec R dim) :
    Vec R dim :=
  let msq := (∑ j, x j ^ 2) / (dim : R)
  let msq := E.rsqrt (msq + n.eps)
  fun i => x i * msq * n.weight i

def silu (E : Elementary R) (x : R) : R := x / (1 + E.exp (-x))

structure MLP (R : Type u) (c : Config) where
  fc1 : Matrix (Fin (2 * c.ffn_dim)) (Fin c.dim) R
  fc2 : Matrix (Fin c.dim) (Fin c.ffn_dim) R

/-- `fc2(x * silu(gate))`, where `fc1` gives `x` and `gate` in two chunks. -/
def MLP.forward (E : Elementary R) (m : MLP R c) (x : Vec R c.dim) : Vec R c.dim :=
  let h : Fin 2 → Vec R c.ffn_dim := splitHeads (m.fc1 *ᵥ x)
  let x := h 0
  let gate := fun j => silu E (h 1 j)
  m.fc2 *ᵥ fun j => x j * gate j

/-- `Block::new` builds every attention causal. -/
structure Block (E : Elementary R) (c : Config) where
  ln_1 : RMSNorm R c.dim
  attn : Attention E c
  ln_2 : RMSNorm R c.dim
  mlp : MLP R c
  attn_causal : attn.causal = true

namespace Block
variable (b : Block E c)

def forward (x : List (Vec R c.dim)) : List (Vec R c.dim) :=
  let h := b.attn.forward (x.map (b.ln_1.forward E)) 0
  let x := List.zipWith (· + ·) x h
  let h := (x.map (b.ln_2.forward E)).map (b.mlp.forward E)
  List.zipWith (· + ·) x h

def forwardWithCache (x : List (Vec R c.dim)) (offset : ℕ) (cache : Option (KVCache R c)) :
    List (Vec R c.dim) × KVCache R c :=
  let h := x.map (b.ln_1.forward E)
  let (h, new_cache) := b.attn.forwardWithCache h offset cache
  let x := List.zipWith (· + ·) x h
  let h := (x.map (b.ln_2.forward E)).map (b.mlp.forward E)
  (List.zipWith (· + ·) x h, new_cache)

def afterAttention (x h : Vec R c.dim) : Vec R c.dim :=
  (x + h) + b.mlp.forward E (b.ln_2.forward E (x + h))

/-- The output for the row `x` after the rows `hist`. -/
def outNew (hist : List (Vec R c.dim)) (x : Vec R c.dim) : Vec R c.dim :=
  b.afterAttention x (b.attn.attendNew (hist.map (b.ln_1.forward E)) (b.ln_1.forward E x))

def cacheOf (xs : List (Vec R c.dim)) : KVCache R c :=
  b.attn.cacheOf (xs.map (b.ln_1.forward E))

omit [LinearOrder R] in
theorem zipWith_mlp (x h : List (Vec R c.dim)) :
    List.zipWith (· + ·) (List.zipWith (· + ·) x h)
        (((List.zipWith (· + ·) x h).map (b.ln_2.forward E)).map (b.mlp.forward E)) =
      List.zipWith b.afterAttention x h := by
  rw [List.map_map, List.zipWith_map_right, List.zipWith_self, List.map_zipWith]
  rfl

theorem forward_eq (x : List (Vec R c.dim)) : b.forward x = causalMap b.outNew [] x := by
  have hattn := causalMap_map b.attn.attendNew (b.ln_1.forward E) [] x
  rw [List.map_nil] at hattn
  rw [forward, zipWith_mlp, b.attn.forward_eq b.attn_causal, hattn, zipWith_causalMap]
  rfl

theorem forwardWithCache_none (x : List (Vec R c.dim)) :
    b.forwardWithCache x 0 none = (b.forward x, b.cacheOf x) := by
  simp only [forwardWithCache, forward, Attention.forwardWithCache_none, cacheOf]

theorem forwardWithCache_some (hist : List (Vec R c.dim)) (x : Vec R c.dim) :
    b.forwardWithCache [x] hist.length (some (b.cacheOf hist)) =
      ([b.outNew hist x], b.cacheOf (hist ++ [x])) := by
  have hattn := b.attn.forwardWithCache_some (hist.map (b.ln_1.forward E)) (b.ln_1.forward E x)
  rw [List.length_map] at hattn
  simp only [forwardWithCache, cacheOf, List.map_cons, List.map_nil, hattn, List.map_append]
  rfl

end Block

structure LLM (E : Elementary R) (c : Config) where
  embeddings : Fin c.emb_num → Vec R c.dim
  blocks : List (Block E c)
  norm_f : RMSNorm R c.dim
  lm_head : Matrix (Fin c.emb_num) (Fin c.dim) R

namespace LLM
variable (m : LLM E c)

/-- One row of the embedding table; an id outside the vocabulary is an error. -/
def embedToken (t : ℕ) : Option (Vec R c.dim) :=
  if h : t < c.emb_num then some (m.embeddings ⟨t, h⟩) else none

def embed (input_ids : List ℕ) : Option (List (Vec R c.dim)) := input_ids.mapM m.embedToken

def logits (x : Vec R c.dim) : Vec R c.emb_num := m.lm_head *ᵥ m.norm_f.forward E x

def forward (input_ids : List ℕ) : Option (List (Vec R c.emb_num)) :=
  match m.embed input_ids with
  | none => none
  | some x => some ((m.blocks.foldl (fun x block => block.forward x) x).map m.logits)

/-- The loop over the blocks with their caches; too few caches are an index panic. -/
def runBlocks : List (Block E c) → List (Option (KVCache R c)) → List (Vec R c.dim) → ℕ →
    Option (List (Vec R c.dim) × List (Option (KVCache R c)))
  | [], caches, x, _ => some (x, caches)
  | _ :: _, [], _, _ => none
  | block :: blocks, cache :: caches, x, offset =>
    let (h, new_cache) := block.forwardWithCache x offset cache
    match runBlocks blocks caches h offset with
    | none => none
    | some (x, caches) => some (x, some new_cache :: caches)

def forwardWithCache (input_ids : List ℕ) (offset : ℕ) (caches : List (Option (KVCache R c))) :
    Option (List (Vec R c.emb_num) × List (Option (KVCache R c))) :=
  match m.embed input_ids with
  | none => none
  | some x =>
    match runBlocks m.blocks caches x offset with
    | none => none
    | some (x, caches) => some (x.map m.logits, caches)

end LLM
end Nerea.Laurelia
