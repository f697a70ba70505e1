import Nerea.Laurelia.CacheEquivalence
import Mathlib.Analysis.SpecialFunctions.Pow.Real
import Mathlib.Analysis.SpecialFunctions.Trigonometric.Basic

/-!
# What an output depends on when the sequence is fed in chunks

Only the chunk fed to empty caches is masked. Its outputs depend on the tokens up to
their own position; an output of any later chunk depends on the tokens up to the end of
that chunk, and on the later ones within it when the chunk has more than one token.
-/

set_option autoImplicit false

namespace Nerea.Laurelia

universe u
variable {R : Type u} [Field R] [LinearOrder R] {E : Elementary R} {c : Config}

theorem Attention.length_sdpa {n d : ℕ} (q k v : List (Fin n → Vec R d)) (is_causal : Bool) :
    (Attention.sdpa E q k v is_causal).length = q.length := by
  cases is_causal <;> simp [Attention.sdpa, Attention.causalMask]

theorem Attention.length_forwardWithCache (a : Attention E c) (x : List (Vec R c.dim))
    (offset : ℕ) (cache : Option (KVCache R c)) :
    (a.forwardWithCache x offset cache).1.length = x.length := by
  rw [Attention.forwardWithCache]
  rw [RoPE.forward_eq _ _ (by simp)]
  cases cache <;> simp [Attention.length_sdpa]

theorem Block.length_forwardWithCache (b : Block E c) (x : List (Vec R c.dim)) (offset : ℕ)
    (cache : Option (KVCache R c)) :
    (b.forwardWithCache x offset cache).1.length = x.length := by
  simp [Block.forwardWithCache, Attention.length_forwardWithCache]

namespace LLM
variable (m : LLM E c)

theorem runBlocks_total {blocks : List (Block E c)} {caches : List (Option (KVCache R c))}
    (h : caches.length = blocks.length) (x : List (Vec R c.dim)) (offset : ℕ) :
    ∃ y caches', runBlocks blocks caches x offset = some (y, caches') ∧
      y.length = x.length ∧ caches'.length = blocks.length := by
  induction blocks generalizing caches x with
  | nil => exact ⟨x, caches, rfl, rfl, h⟩
  | cons b blocks ih =>
    cases caches with
    | nil => simp at h
    | cons cache caches =>
      obtain ⟨y, caches', hrun, hy, hcaches⟩ :=
        ih (show caches.length = blocks.length by simpa using h)
          (b.forwardWithCache x offset cache).1
      refine ⟨y, some (b.forwardWithCache x offset cache).2 :: caches', ?_, ?_, ?_⟩
      · simp only [runBlocks, hrun]
      · rw [hy, b.length_forwardWithCache]
      · simp [hcaches]

omit [LinearOrder R] in
theorem embed_total {ids : List ℕ} (h : ∀ t ∈ ids, t < c.emb_num) :
    ∃ x, m.embed ids = some x := by
  induction ids with
  | nil => exact ⟨[], rfl⟩
  | cons t ts ih =>
    obtain ⟨x, hx⟩ := ih fun u hu => h u (List.mem_cons_of_mem t hu)
    refine ⟨m.embeddings ⟨t, h t List.mem_cons_self⟩ :: x, ?_⟩
    simp [embed_cons, hx, embedToken, h t List.mem_cons_self]

theorem forwardWithCache_total {ids : List ℕ} (h : ∀ t ∈ ids, t < c.emb_num) (offset : ℕ)
    {caches : List (Option (KVCache R c))} (hcaches : caches.length = m.blocks.length) :
    ∃ out caches', m.forwardWithCache ids offset caches = some (out, caches') ∧
      out.length = ids.length ∧ caches'.length = m.blocks.length := by
  obtain ⟨x, hx⟩ := m.embed_total h
  obtain ⟨y, caches', hrun, hy, hcaches'⟩ := runBlocks_total hcaches x offset
  refine ⟨y.map m.logits, caches', ?_, ?_, hcaches'⟩
  · simp only [forwardWithCache, hx, hrun]
  · rw [List.length_map, hy, m.length_embed hx]

theorem feed_total {chunks : List (List ℕ)} (h : ∀ t ∈ chunks.flatten, t < c.emb_num)
    (offset : ℕ) {caches : List (Option (KVCache R c))}
    (hcaches : caches.length = m.blocks.length) :
    ∃ outs, m.feed caches offset chunks = some outs ∧
      outs.length = chunks.flatten.length := by
  induction chunks generalizing caches offset with
  | nil => exact ⟨[], rfl, rfl⟩
  | cons chunk chunks ih =>
    obtain ⟨out, caches', hout, hlen, hcaches'⟩ := m.forwardWithCache_total
      (fun t ht => h t (List.mem_append_left _ ht)) offset hcaches
    obtain ⟨outs, houts, hlens⟩ := ih (fun t ht => h t (List.mem_append_right _ ht))
      (offset + chunk.length) hcaches'
    refine ⟨out ++ outs, ?_, by simp [hlen, hlens]⟩
    simp only [feed, hout, houts]

theorem feed_cons_eq_some {caches caches' : List (Option (KVCache R c))} {offset : ℕ}
    {chunk : List ℕ} {chunks : List (List ℕ)} {out outs : List (Vec R c.emb_num)}
    (hout : m.forwardWithCache chunk offset caches = some (out, caches'))
    (h : m.feed caches offset (chunk :: chunks) = some outs) :
    ∃ rest, m.feed caches' (offset + chunk.length) chunks = some rest ∧ outs = out ++ rest := by
  simp only [feed, hout] at h
  cases hrest : m.feed caches' (offset + chunk.length) chunks with
  | none => simp [hrest] at h
  | some rest => exact ⟨rest, rfl, by simpa [hrest] using h.symm⟩

/-- The number of tokens up to the end of the chunk that position `i` is in. -/
def chunkEnd : List ℕ → ℕ → ℕ
  | [], i => i + 1
  | n :: lens, i => if i < n then n else n + chunkEnd lens (i - n)

/-- The number of tokens that the output at position `i` may depend on: those up to `i`
in the first chunk, those up to the end of its chunk in a later one. -/
def visible : List ℕ → ℕ → ℕ
  | [], i => i + 1
  | n :: lens, i => if i < n then i + 1 else n + chunkEnd lens (i - n)

theorem take_add_append {a b : List ℕ} {as bs : List ℕ} {n : ℕ} (hlen : a.length = b.length)
    (h : (a ++ as).take (a.length + n) = (b ++ bs).take (a.length + n)) :
    a = b ∧ as.take n = bs.take n := by
  rw [List.take_length_add_append] at h
  rw [hlen, List.take_length_add_append] at h
  exact List.append_inj h hlen

/-- Over caches already filled, an output depends on the tokens up to the end of its
chunk. -/
theorem feed_eq_upto_chunkEnd {as bs : List (List ℕ)}
    (hlens : as.map List.length = bs.map List.length) {offset : ℕ}
    {caches : List (Option (KVCache R c))} (hcaches : caches.length = m.blocks.length)
    (hvoc : ∀ t ∈ as.flatten, t < c.emb_num) {oa ob : List (Vec R c.emb_num)}
    (ha : m.feed caches offset as = some oa) (hb : m.feed caches offset bs = some ob) {i : ℕ}
    (heq : as.flatten.take (chunkEnd (as.map List.length) i) =
      bs.flatten.take (chunkEnd (as.map List.length) i)) : oa[i]? = ob[i]? := by
  induction as generalizing bs offset caches oa ob i with
  | nil =>
    have hbs : bs = [] := by simpa using hlens.symm
    subst hbs
    rw [Option.some.inj (ha.symm.trans hb)]
  | cons a as ih =>
    match bs, hlens with
    | b :: bs, hlens =>
      obtain ⟨hlen, htail⟩ : a.length = b.length ∧ as.map List.length = bs.map List.length := by
        simpa using hlens
      obtain ⟨out, caches', hout, hlenOut, hcaches'⟩ := m.forwardWithCache_total
        (fun t ht => hvoc t (List.mem_append_left _ ht)) offset hcaches
      simp only [List.map_cons, List.flatten_cons, chunkEnd] at heq
      by_cases hi : i < a.length
      · rw [if_pos hi] at heq
        obtain ⟨rfl, -⟩ := take_add_append (n := 0) hlen heq
        obtain ⟨outsA, -, rfl⟩ := m.feed_cons_eq_some hout ha
        obtain ⟨outsB, -, rfl⟩ := m.feed_cons_eq_some hout hb
        rw [List.getElem?_append_left (by omega), List.getElem?_append_left (by omega)]
      · rw [if_neg hi] at heq
        obtain ⟨rfl, hrest⟩ := take_add_append hlen heq
        obtain ⟨outsA, hoa, rfl⟩ := m.feed_cons_eq_some hout ha
        obtain ⟨outsB, hob, rfl⟩ := m.feed_cons_eq_some hout hb
        rw [List.getElem?_append_right (by omega), List.getElem?_append_right (by omega), hlenOut]
        exact ih htail hcaches' (fun t ht => hvoc t (List.mem_append_right _ ht)) hoa hob hrest

omit [LinearOrder R] in
theorem embed_take {ids : List ℕ} {x : List (Vec R c.dim)} (h : m.embed ids = some x) (n : ℕ) :
    m.embed (ids.take n) = some (x.take n) := by
  induction ids generalizing x n with
  | nil => simp_all
  | cons t ts ih =>
    cases n with
    | zero => simp
    | succ n =>
      rw [embed_cons] at h
      rw [List.take_succ_cons, embed_cons]
      cases ht : m.embedToken t with
      | none => simp [ht] at h
      | some y =>
        cases hts : m.embed ts with
        | none => simp [ht, hts] at h
        | some ys =>
          simp only [ht, hts, Option.map_some, Option.bind_some, Option.some.injEq] at h
          simp [ih hts, ← h]

/-- In the first chunk the mask is on, so the output at `i` is that of the tokens up to it. -/
theorem prefill_eq_upto {a b : List ℕ} {outA outB : List (Vec R c.emb_num)}
    {cachesA cachesB : List (Option (KVCache R c))}
    (ha : m.forwardWithCache a 0 m.noCaches = some (outA, cachesA))
    (hb : m.forwardWithCache b 0 m.noCaches = some (outB, cachesB)) {i : ℕ}
    (heq : a.take (i + 1) = b.take (i + 1)) : outA[i]? = outB[i]? := by
  have hprefill {ids : List ℕ} {out : List (Vec R c.emb_num)}
      {caches : List (Option (KVCache R c))}
      (h : m.forwardWithCache ids 0 m.noCaches = some (out, caches)) :
      ∃ x, m.embed (ids.take (i + 1)) = some x ∧
        out.take (i + 1) = (stack m.blocks x).map m.logits := by
    rw [forwardWithCache] at h
    cases hx : m.embed ids with
    | none => simp [hx] at h
    | some x =>
      obtain ⟨caches', hrun, -⟩ := runBlocks_prefill m.blocks x
      simp only [hx, noCaches, hrun, Option.some.injEq, Prod.mk.injEq] at h
      refine ⟨x.take (i + 1), m.embed_take hx _, ?_⟩
      rw [← h.1, ← List.map_take, take_stack]
  obtain ⟨x, hx, houtA⟩ := hprefill ha
  obtain ⟨y, hy, houtB⟩ := hprefill hb
  rw [heq, hy] at hx
  obtain rfl := Option.some.inj hx
  have hget := congrArg (·[i]?) (houtA.trans houtB.symm)
  simpa using hget

/-- Two runs with the same schedule give the same output at position `i` when their
tokens agree up to `i`, for the first chunk, or up to the end of the chunk of `i`. -/
theorem feed_eq_upto_visible {as bs : List (List ℕ)}
    (hlens : as.map List.length = bs.map List.length)
    (hvocA : ∀ t ∈ as.flatten, t < c.emb_num) (hvocB : ∀ t ∈ bs.flatten, t < c.emb_num) {i : ℕ}
    (heq : as.flatten.take (visible (as.map List.length) i) =
      bs.flatten.take (visible (as.map List.length) i)) :
    ∃ oa ob, m.feed m.noCaches 0 as = some oa ∧ m.feed m.noCaches 0 bs = some ob ∧
      oa[i]? = ob[i]? := by
  have hcaches : m.noCaches.length = m.blocks.length := List.length_replicate
  obtain ⟨oa, hoa, -⟩ := m.feed_total hvocA 0 hcaches
  obtain ⟨ob, hob, -⟩ := m.feed_total hvocB 0 hcaches
  refine ⟨oa, ob, hoa, hob, ?_⟩
  match as, bs, hlens with
  | [], [], _ => rw [Option.some.inj (hoa.symm.trans hob)]
  | a :: as, b :: bs, hlens =>
    obtain ⟨hlen, htail⟩ : a.length = b.length ∧ as.map List.length = bs.map List.length := by
      simpa using hlens
    simp only [List.map_cons, List.flatten_cons, visible] at heq
    by_cases hi : i < a.length
    · rw [if_pos hi] at heq
      obtain ⟨outA, cachesA, houtA, hlenA, -⟩ := m.forwardWithCache_total
        (fun t ht => hvocA t (List.mem_append_left _ ht)) 0 hcaches
      obtain ⟨outB, cachesB, houtB, hlenB, -⟩ := m.forwardWithCache_total
        (fun t ht => hvocB t (List.mem_append_left _ ht)) 0 hcaches
      obtain ⟨restA, -, rfl⟩ := m.feed_cons_eq_some houtA hoa
      obtain ⟨restB, -, rfl⟩ := m.feed_cons_eq_some houtB hob
      rw [List.getElem?_append_left (by omega), List.getElem?_append_left (by omega)]
      apply m.prefill_eq_upto houtA houtB
      rwa [List.take_append_of_le_length (by omega),
        List.take_append_of_le_length (by omega)] at heq
    · rw [if_neg hi] at heq
      obtain ⟨rfl, hrest⟩ := take_add_append hlen heq
      obtain ⟨out, caches', hout, hlenOut, hcaches'⟩ := m.forwardWithCache_total
        (fun t ht => hvocA t (List.mem_append_left _ ht)) 0 hcaches
      obtain ⟨restA, hrestA, rfl⟩ := m.feed_cons_eq_some hout hoa
      obtain ⟨restB, hrestB, rfl⟩ := m.feed_cons_eq_some hout hob
      rw [List.getElem?_append_right (by omega), List.getElem?_append_right (by omega), hlenOut]
      exact m.feed_eq_upto_chunkEnd htail hcaches'
        (fun t ht => hvocA t (List.mem_append_right _ ht)) hrestA hrestB hrest

theorem chunkEnd_singletons {lens : List ℕ} (h : ∀ n ∈ lens, n = 1) (i : ℕ) :
    chunkEnd lens i = i + 1 := by
  induction lens generalizing i with
  | nil => rfl
  | cons n lens ih =>
    obtain rfl := h n List.mem_cons_self
    rw [chunkEnd, ih fun k hk => h k (List.mem_cons_of_mem _ hk)]
    split <;> omega

/-- With single tokens after the first chunk, as `generate` feeds them, no output depends
on a later token. -/
theorem visible_singletons {n : ℕ} {lens : List ℕ} (h : ∀ k ∈ lens, k = 1) (i : ℕ) :
    visible (n :: lens) i = i + 1 := by
  rw [visible, chunkEnd_singletons h]
  split <;> omega

end LLM

section Averaging

open MaskedSoftmax Matrix

noncomputable def realElementary : Elementary ℝ where
  exp := Real.exp
  cos := Real.cos
  sin := Real.sin
  sqrt := Real.sqrt
  powf := fun x y => x ^ y

def averagingConfig : Config where
  dim := 2
  heads := 1
  kv_groups := 1
  ffn_dim := 0
  emb_num := 2
  rotary_pct := 0
  kv_groups_dvd := dvd_refl 1

noncomputable def averagingAttention : Attention realElementary averagingConfig where
  q_proj := 0
  k_proj := 0
  v_proj := fun _ _ => 1
  o_proj := fun _ _ => 1
  rope := RoPE.new realElementary averagingConfig.head_dim 4 10000 averagingConfig.rotary_pct rfl
  causal := true

noncomputable def unitNorm : RMSNorm ℝ averagingConfig.dim := ⟨fun _ => 1, 1⟩

noncomputable def averagingBlock : Block realElementary averagingConfig :=
  ⟨unitNorm, averagingAttention, unitNorm, ⟨0, 0⟩, rfl⟩

noncomputable def averaging : LLM realElementary averagingConfig where
  embeddings := fun t _ => (t.val : ℝ)
  blocks := [averagingBlock]
  norm_f := unitNorm
  lm_head := fun _ _ => 1

theorem repeatKv_const {V : Type} {num_heads num_kv_groups : ℕ}
    (hdvd : num_kv_groups ∣ num_heads) (v : V) :
    repeatKv hdvd (fun _ => v) = fun _ => v := by
  unfold repeatKv
  split <;> rfl

theorem attend_zeros (exp : ℝ → ℝ) (hexp : exp 0 ≠ 0) {d : ℕ} (a b v : Vec ℝ d) :
    attend exp [0, 0, 0] [a, b, v] = (3⁻¹ : ℝ) • (a + b + v) := by
  have h0 : expSub exp (0 : WithBot ℝ) 0 = exp 0 := by
    change exp (0 - 0) = exp 0
    rw [sub_self]
  have hsum : exp 0 / (exp 0 + (exp 0 + exp 0)) = 3⁻¹ := by
    field_simp
    norm_num
  simp only [attend, softmax, List.foldr, max_bot_right, max_self, List.map_cons, List.map_nil,
    h0, List.sum_cons, List.sum_nil, add_zero, hsum, List.zipWith_cons_cons,
    List.zipWith_nil_left, smul_add, add_assoc]

theorem averagingAttention_rotateAt {n : ℕ} (pos : ℕ)
    (row : Fin n → Vec ℝ averagingConfig.head_dim) :
    averagingAttention.rope.rotateAt pos row = row := by
  have hdim : rotaryDim averagingConfig.head_dim averagingConfig.rotary_pct = 0 := by
    simp [rotaryDim, averagingConfig]
  unfold RoPE.rotateAt RoPE.rotatePartial
  simp only [if_pos hdim]

theorem averagingAttention_some (x y z : Vec ℝ averagingConfig.dim) :
    (averagingAttention.forwardWithCache [y, z] 1
      (some (averagingAttention.cacheOf [x]))).1 =
      List.replicate 2 (fun _ => 2 / 3 * ((∑ j, x j) + (∑ j, y j) + (∑ j, z j))) := by
  have hq (r : Vec ℝ averagingConfig.dim) : (splitHeads (averagingAttention.q_proj *ᵥ r) :
      Fin averagingConfig.heads → Vec ℝ averagingConfig.head_dim) = fun _ => 0 := by
    rw [show averagingAttention.q_proj = 0 from rfl, Matrix.zero_mulVec]
    rfl
  have hv (r : Vec ℝ averagingConfig.dim) : (splitHeads (averagingAttention.v_proj *ᵥ r) :
      Fin averagingConfig.kv_groups → Vec ℝ averagingConfig.head_dim) =
        fun _ _ => ∑ j, r j := by
    funext h j
    simp [splitHeads, averagingAttention, Matrix.mulVec, dotProduct]
  have ho (r : Vec ℝ (averagingConfig.heads * averagingConfig.head_dim)) :
      averagingAttention.o_proj *ᵥ r = fun _ => ∑ j, r j := by
    funext j
    simp [averagingAttention, Matrix.mulVec, dotProduct]
  have hscore (ks : List (Vec ℝ averagingConfig.head_dim)) :
    Attention.scores realElementary 0 ks = List.replicate ks.length 0 := by
    simp [Attention.scores]
  have hexp : realElementary.exp 0 ≠ 0 := by simp [realElementary]
  simp only [Attention.forwardWithCache, Attention.cacheOf]
  rw [RoPE.forward_eq _ _ (by simp)]
  simp only [List.map_cons, List.map_nil, hq, hv, RoPE.rotateFrom, averagingAttention_rotateAt,
    Attention.sdpa, Option.isNone_some, Bool.and_false, Bool.false_and, Bool.false_eq_true,
    if_false, List.cons_append, List.nil_append, hscore, List.length_cons, List.length_nil,
    List.replicate, attend_zeros _ hexp, ho, repeatKv_const]
  have hsum : (∑ j, mergeHeads (fun _ : Fin averagingConfig.heads =>
      ((3⁻¹ : ℝ) • ((fun _ => ∑ j, x j) + (fun _ => ∑ j, y j) + fun _ => ∑ j, z j) :
        Vec ℝ averagingConfig.head_dim)) j) =
      2 / 3 * ((∑ j, x j) + (∑ j, y j) + (∑ j, z j)) := by
    simp only [mergeHeads, Pi.smul_apply, Pi.add_apply, smul_eq_mul, Finset.sum_const,
      Finset.card_univ, Fintype.card_fin, nsmul_eq_mul]
    simp [averagingConfig]
    ring
  rw [hsum]

theorem averagingBlock_some (x y z : Vec ℝ averagingConfig.dim) :
    (averagingBlock.forwardWithCache [y, z] 1 (some (averagingBlock.cacheOf [x]))).1 =
      [y, z].map fun r => r + fun _ => 2 / 3 *
        ((∑ j, unitNorm.forward realElementary x j) + (∑ j, unitNorm.forward realElementary y j) +
          ∑ j, unitNorm.forward realElementary z j) := by
  have hmlp (r : Vec ℝ averagingConfig.dim) : averagingBlock.mlp.forward realElementary r = 0 := by
    rw [MLP.forward, show averagingBlock.mlp.fc2 = 0 from rfl, Matrix.zero_mulVec]
  have hattn := averagingAttention_some (unitNorm.forward realElementary x)
    (unitNorm.forward realElementary y) (unitNorm.forward realElementary z)
  simp only [Block.forwardWithCache, Block.cacheOf, List.map_cons, List.map_nil,
    show averagingBlock.attn = averagingAttention from rfl,
    show averagingBlock.ln_1 = unitNorm from rfl, hattn, List.replicate,
    List.zipWith_cons_cons, List.zipWith_nil_left, hmlp, add_zero]

noncomputable def normConst (a : ℝ) : ℝ := a * realElementary.rsqrt (a ^ 2 + 1)

theorem normConst_zero : normConst 0 = 0 := zero_mul _

theorem normConst_pos {a : ℝ} (h : 0 < a) : 0 < normConst a :=
  mul_pos h (Real.rpow_pos_of_pos (by positivity) _)

theorem sum_dim (a : ℝ) : ∑ _j : Fin averagingConfig.dim, a = 2 * a := by
  change ∑ _j : Fin 2, a = 2 * a
  rw [Fin.sum_univ_two, two_mul]

theorem unitNorm_const (a : ℝ) :
    unitNorm.forward realElementary (fun _ => a) = fun _ => normConst a := by
  funext j
  have hmean : (∑ _j : Fin averagingConfig.dim, a ^ 2) / (averagingConfig.dim : ℝ) = a ^ 2 := by
    rw [sum_dim, averagingConfig]
    exact mul_div_cancel_left₀ _ two_ne_zero
  simp only [RMSNorm.forward, hmean, unitNorm, mul_one, normConst]

theorem averaging_feed {t : ℕ} (ht : t < averagingConfig.emb_num) :
    ∃ outs, averaging.feed averaging.noCaches 0 [[0], [0, t]] = some outs ∧
      outs[1]? = some fun _ => 2 * normConst (4 / 3 * normConst t) := by
  have hembed {u : ℕ} (hu : u < averagingConfig.emb_num) :
      averaging.embedToken u = some fun _ => (u : ℝ) := dif_pos hu
  have hblocks : averaging.blocks = [averagingBlock] := rfl
  have hlogits (a : ℝ) : averaging.logits (fun _ => a) = fun _ => 2 * normConst a := by
    rw [LLM.logits, show averaging.norm_f = unitNorm from rfl, unitNorm_const]
    funext j
    simp only [averaging, Matrix.mulVec, dotProduct, one_mul, sum_dim]
  have hblock := averagingBlock_some (fun _ => ((0 : ℕ) : ℝ)) (fun _ => ((0 : ℕ) : ℝ))
    (fun _ => (t : ℝ))
  have hrow : ((fun _ => ((0 : ℕ) : ℝ)) + fun _ => 2 / 3 * (2 * normConst t) :
      Vec ℝ averagingConfig.dim) = fun _ => 4 / 3 * normConst t := by
    funext j
    simp only [Pi.add_apply, Nat.cast_zero, zero_add]
    ring
  simp only [unitNorm_const, Nat.cast_zero, normConst_zero, sum_dim, mul_zero, zero_add,
    List.map_cons, List.map_nil] at hblock
  have hlen (x : Vec ℝ averagingConfig.dim) : (averagingBlock.forward [x]).length = 1 := by
    rw [Block.forward_eq, CausalMap.length_causalMap, List.length_singleton]
  simp only [LLM.feed, LLM.forwardWithCache, LLM.noCaches, LLM.embed_cons, LLM.embed_nil,
    hblocks, hembed ht, hembed (u := 0) (by decide), Option.map_some, Option.bind_some,
    LLM.runBlocks, List.length_cons, List.length_nil, List.replicate,
    Block.forwardWithCache_none, Nat.cast_zero, hblock, zero_add]
  refine ⟨_, rfl, ?_⟩
  rw [List.getElem?_append_right (by simp [hlen])]
  simp only [List.length_map, hlen, ← hlogits, ← hrow, List.map_cons, List.cons_append,
    List.getElem?_cons_zero, Nat.cast_zero, Nat.sub_self]

/-- Position 1 sees the token after it in its chunk, since the cache is not empty. -/
theorem averaging_not_causal :
    ¬ ∀ (c : Config) (m : LLM realElementary c) (as bs : List (List ℕ)),
      as.map List.length = bs.map List.length → (∀ chunk ∈ as, 1 ≤ chunk.length) →
      (∀ t ∈ as.flatten, t < c.emb_num) → (∀ t ∈ bs.flatten, t < c.emb_num) →
      ∀ i, as.flatten.take (i + 1) = bs.flatten.take (i + 1) →
        ∀ oa ob, m.feed m.noCaches 0 as = some oa → m.feed m.noCaches 0 bs = some ob →
          oa[i]? = ob[i]? := by
  intro hcausal
  obtain ⟨oa, hoa, hzero⟩ := averaging_feed (t := 0) (by decide)
  obtain ⟨ob, hob, hone⟩ := averaging_feed (t := 1) (by decide)
  have heq := hcausal averagingConfig averaging [[0], [0, 0]] [[0], [0, 1]] rfl (by decide)
    (by decide) (by decide) 1 rfl oa ob hoa hob
  rw [hzero, hone, Nat.cast_zero, normConst_zero, mul_zero, normConst_zero] at heq
  have hrow := congrFun (Option.some.inj heq) ⟨0, by decide⟩
  have hpos : 0 < normConst (4 / 3 * normConst ((1 : ℕ) : ℝ)) :=
    normConst_pos (mul_pos (by norm_num) (normConst_pos (by norm_num)))
  linarith

theorem averaging_visible :
    ∃ oa ob, averaging.feed averaging.noCaches 0 [[0, 1], [1, 0], [0]] = some oa ∧
      averaging.feed averaging.noCaches 0 [[0, 1], [1, 0], [1]] = some ob ∧ oa[2]? = ob[2]? := by
  have hlens : ([[0, 1], [1, 0], [0]] : List (List ℕ)).map List.length =
    [[0, 1], [1, 0], [1]].map List.length := rfl
  exact averaging.feed_eq_upto_visible hlens (by decide) (by decide) rfl

end Averaging
end Nerea.Laurelia
