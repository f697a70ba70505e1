import Nerea.Laurelia.Sampling
import Nerea.Laurelia.ChunkCausality

/-!
# The generation loop

The prompt is fed token by token, then every sampled token but the end token. Each pass
is given the number of tokens fed before it, which is also what every layer's cache
holds, rotated at its own position.
-/

set_option autoImplicit false

namespace Nerea.Laurelia

universe u
variable {R : Type u} [Field R] [LinearOrder R] {E : Elementary R} {c : Config}

/-- What is sampled in each round, from the logits and the tokens before it. -/
structure Sampler (R : Type u) (vocab : ℕ) where
  next : ℕ → Vec R vocab → List ℕ → ℕ
  next_lt : 0 < vocab → ∀ k logits tokens, next k logits tokens < vocab

/-- `LLM::sample` on a sequence of random numbers. -/
def sampler (E : Elementary R) (vocab : ℕ) (temperature : R) (top_k : ℕ)
    (top_p repetition_penalty : R) (draws : ℕ → R) : Sampler R vocab where
  next k logits tokens :=
    LLM.sample E logits tokens temperature top_k top_p repetition_penalty (draws k)
  next_lt hvocab _ _ _ := multinomial_lt _ _ hvocab

/-- A call of `forward_with_cache`, with the caches before it. -/
structure Call (R : Type u) (c : Config) where
  token : ℕ
  offset : ℕ
  caches : List (Option (KVCache R c))

/-- The locals of `generate`, with the calls and samples made so far. -/
structure GenState (R : Type u) (c : Config) where
  logits : Vec R c.emb_num
  caches : List (Option (KVCache R c))
  tokens : List ℕ
  gen : List ℕ
  calls : List (Call R c)
  samples : List ℕ

namespace LLM
variable (m : LLM E c)

/-- `logits = self.forward_with_cache(&t, i, &mut caches)?` -/
def feedToken (t i : ℕ) (st : GenState R c) : Except (GenState R c) (GenState R c) :=
  let st := { st with calls := st.calls ++ [⟨t, i, st.caches⟩] }
  match m.forwardWithCache [t] i st.caches with
  | some ([logits], caches) => .ok { st with logits := logits, caches := caches }
  | _ => .error st

def feedPrompt : List ℕ → ℕ → GenState R c → Except (GenState R c) (GenState R c)
  | [], _, st => .ok st
  | t :: ts, i, st =>
    match m.feedToken t i st with
    | .error st => .error st
    | .ok st => feedPrompt ts (i + 1) st

/-- The rounds left and the number of the next one. -/
def genRounds (s : Sampler R c.emb_num) (eos_token_id : Option ℕ) (prompt_len : ℕ) :
    ℕ → ℕ → GenState R c → Except (GenState R c) (GenState R c)
  | 0, _, st => .ok st
  | rounds + 1, gen_i, st =>
    let next := s.next gen_i st.logits st.tokens
    let st := { st with samples := st.samples ++ [next] }
    if eos_token_id = some next then .ok st
    else
      let st := { st with tokens := st.tokens ++ [next], gen := st.gen ++ [next] }
      match m.feedToken next (prompt_len + gen_i) st with
      | .error st => .error st
      | .ok st => genRounds s eos_token_id prompt_len rounds (gen_i + 1) st

/-- An error keeps the calls made until then. -/
def generateWith (s : Sampler R c.emb_num) (input_ids : List ℕ) (max_new_tokens : ℕ)
    (eos_token_id : Option ℕ) : Except (GenState R c) (List ℕ × GenState R c) :=
  let prompt_len := input_ids.length
  let st : GenState R c :=
    { logits := 0, caches := m.noCaches, tokens := input_ids, gen := [], calls := [],
      samples := [] }
  match m.feedPrompt input_ids 0 st with
  | .error st => .error st
  | .ok st =>
    match m.genRounds s eos_token_id prompt_len max_new_tokens 0 st with
    | .error st => .error st
    | .ok st => .ok (st.tokens.take prompt_len ++ st.gen, st)

def generate (input_ids : List ℕ) (max_new_tokens : ℕ) (temperature : R) (top_k : ℕ)
    (top_p repetition_penalty : R) (eos_token_id : Option ℕ) (draws : ℕ → R) :
    Except (GenState R c) (List ℕ × GenState R c) :=
  m.generateWith (sampler E c.emb_num temperature top_k top_p repetition_penalty draws)
    input_ids max_new_tokens eos_token_id

end LLM

/-- The positions that a layer's cache holds. -/
def HoldsPositions (n : ℕ) : Option (KVCache R c) → Prop
  | none => n = 0
  | some kv => kv.cached_k.length = n ∧ kv.cached_v.length = n

/-- The caches after the tokens `fed`: none yet, or every layer's rotated keys and values. -/
structure CachesAfter (m : LLM E c) (fed : List ℕ) (caches : List (Option (KVCache R c))) :
    Prop where
  layers : caches.length = m.blocks.length
  positions : ∀ cache ∈ caches, HoldsPositions fed.length cache
  rotated : ∃ hist, m.embed fed = some hist ∧
    (fed = [] ∧ caches = m.noCaches ∨ CachesHold m.blocks caches hist)

/-- The `i`-th call feeds the `i`-th token at offset `i`, after all tokens before it. -/
structure InStep (m : LLM E c) (fed : List ℕ) (i : ℕ) (call : Call R c) : Prop where
  token : fed[i]? = some call.token
  offset : call.offset = i
  caches : CachesAfter m (fed.take i) call.caches

structure CallsInStep (m : LLM E c) (fed : List ℕ) (calls : List (Call R c)) : Prop where
  count : calls.length = fed.length
  each : ∀ i call, calls[i]? = some call → InStep m fed i call

theorem holdsPositions_of_hold {blocks : List (Block E c)}
    {caches : List (Option (KVCache R c))} {hist : List (Vec R c.dim)}
    (hlayers : caches.length = blocks.length) (h : CachesHold blocks caches hist) :
    ∀ cache ∈ caches, HoldsPositions hist.length cache := by
  induction blocks generalizing caches hist with
  | nil =>
    rw [List.eq_nil_of_length_eq_zero hlayers]
    simp
  | cons b blocks ih =>
    match caches, h with
    | cache :: caches, ⟨hcache, hhold⟩ =>
      have hlen : (b.forward hist).length = hist.length := by
        rw [b.forward_eq, CausalMap.length_causalMap]
      have hrest := ih (by simpa using hlayers) hhold
      rw [hlen] at hrest
      intro cache' hmem
      rcases List.mem_cons.mp hmem with rfl | hmem
      · rw [hcache]
        simp [HoldsPositions, Block.cacheOf, Attention.cacheOf]
      · exact hrest cache' hmem

theorem CachesAfter.of_hold {m : LLM E c} {fed : List ℕ}
    {caches : List (Option (KVCache R c))} {hist : List (Vec R c.dim)}
    (hlayers : caches.length = m.blocks.length) (hembed : m.embed fed = some hist)
    (h : CachesHold m.blocks caches hist) : CachesAfter m fed caches where
  layers := hlayers
  positions := m.length_embed hembed ▸ holdsPositions_of_hold hlayers h
  rotated := ⟨hist, hembed, Or.inr h⟩

theorem cachesAfter_nil (m : LLM E c) : CachesAfter m [] m.noCaches where
  layers := List.length_replicate
  positions := by
    intro cache hcache
    rw [List.eq_of_mem_replicate hcache]
    rfl
  rotated := ⟨[], rfl, Or.inl ⟨rfl, rfl⟩⟩

/-- One token more in every layer. -/
theorem CachesAfter.step {m : LLM E c} {fed : List ℕ} {caches : List (Option (KVCache R c))}
    (h : CachesAfter m fed caches) {t : ℕ} (ht : t < c.emb_num) :
    ∃ logits caches', m.forwardWithCache [t] fed.length caches = some ([logits], caches') ∧
      CachesAfter m (fed ++ [t]) caches' := by
  obtain ⟨hist, hembed, hhold⟩ := h.rotated
  have hone : m.embed [t] = some [m.embeddings ⟨t, ht⟩] := by
    simp [LLM.embed_cons, LLM.embedToken, ht]
  have hall : m.embed (fed ++ [t]) = some (hist ++ [m.embeddings ⟨t, ht⟩]) := by
    simp [LLM.embed_append, hembed, hone]
  obtain ⟨out, caches', hrun, -, hlayers⟩ :=
    m.forwardWithCache_total (show ∀ u ∈ [t], u < c.emb_num by simpa using ht) fed.length h.layers
  have hkeep : ∃ logits, out = [logits] ∧
      CachesHold m.blocks caches' (hist ++ [m.embeddings ⟨t, ht⟩]) := by
    simp only [LLM.forwardWithCache, hone] at hrun
    rcases hhold with ⟨rfl, rfl⟩ | hhold
    · obtain rfl : hist = [] := (Option.some.inj hembed).symm
      obtain ⟨caches'', hprefill, hhold⟩ :=
        runBlocks_prefill m.blocks [m.embeddings ⟨t, ht⟩]
      have hlen := length_stack m.blocks [m.embeddings ⟨t, ht⟩]
      obtain ⟨y, hy⟩ := List.length_eq_one_iff.mp hlen
      simp only [LLM.noCaches, List.length_nil, hprefill, hy, Option.some.injEq,
        Prod.mk.injEq] at hrun
      exact ⟨_, hrun.1.symm, hrun.2 ▸ hhold⟩
    · obtain ⟨y, caches'', hstep, hhold, -⟩ :=
        runBlocks_step hhold (m.embeddings ⟨t, ht⟩)
      rw [m.length_embed hembed] at hstep
      simp only [hstep, Option.some.injEq, Prod.mk.injEq] at hrun
      exact ⟨_, hrun.1.symm, hrun.2 ▸ hhold⟩
  obtain ⟨logits, rfl, hhold⟩ := hkeep
  exact ⟨logits, caches', hrun, CachesAfter.of_hold hlayers hall hhold⟩

theorem CallsInStep.append {m : LLM E c} {fed : List ℕ} {calls : List (Call R c)}
    {caches : List (Option (KVCache R c))} (h : CallsInStep m fed calls)
    (hcaches : CachesAfter m fed caches) (t : ℕ) :
    CallsInStep m (fed ++ [t]) (calls ++ [⟨t, fed.length, caches⟩]) where
  count := by simp [h.count]
  each := by
    intro i call hi
    rcases lt_or_ge i calls.length with hlt | hge
    · rw [List.getElem?_append_left hlt] at hi
      have hstep := h.each i call hi
      rw [h.count] at hlt
      refine ⟨?_, hstep.offset, ?_⟩
      · rw [List.getElem?_append_left hlt, hstep.token]
      · rw [List.take_append_of_le_length hlt.le]
        exact hstep.caches
    · rw [List.getElem?_append_right hge, List.getElem?_singleton] at hi
      split at hi
      · rename_i hzero
        have hcount := h.count
        obtain rfl : i = fed.length := by omega
        rw [← Option.some.inj hi]
        exact ⟨by simp, rfl, by simpa using hcaches⟩
      · cases hi

/-- The calls so far were in step and the caches are ready for the next. -/
structure Fed (m : LLM E c) (fed : List ℕ) (st : GenState R c) : Prop where
  calls : CallsInStep m fed st.calls
  caches : CachesAfter m fed st.caches

theorem Fed.feedToken {m : LLM E c} {fed : List ℕ} {st : GenState R c} (h : Fed m fed st)
    {t : ℕ} (ht : t < c.emb_num) :
    ∃ st', m.feedToken t fed.length st = .ok st' ∧ Fed m (fed ++ [t]) st' ∧
      st'.tokens = st.tokens ∧ st'.gen = st.gen ∧ st'.samples = st.samples := by
  obtain ⟨logits, caches', hrun, hcaches⟩ := h.caches.step ht
  refine ⟨{ st with
    calls := st.calls ++ [⟨t, fed.length, st.caches⟩], logits := logits, caches := caches' },
    ?_, ⟨h.calls.append h.caches t, hcaches⟩, rfl, rfl, rfl⟩
  simp only [LLM.feedToken, hrun]

theorem Fed.feedToken_error {m : LLM E c} {fed : List ℕ} {st : GenState R c}
    (h : Fed m fed st) {t : ℕ} (ht : c.emb_num ≤ t) :
    ∃ st', m.feedToken t fed.length st = .error st' ∧ CallsInStep m (fed ++ [t]) st'.calls := by
  refine ⟨{ st with calls := st.calls ++ [⟨t, fed.length, st.caches⟩] }, ?_,
    h.calls.append h.caches t⟩
  simp [LLM.feedToken, LLM.forwardWithCache, LLM.embed_cons, LLM.embedToken, Nat.not_lt.mpr ht]

theorem feedPrompt_ok {m : LLM E c} {ids fed : List ℕ} {st : GenState R c} (h : Fed m fed st)
    (hids : ∀ t ∈ ids, t < c.emb_num) :
    ∃ st', m.feedPrompt ids fed.length st = .ok st' ∧ Fed m (fed ++ ids) st' ∧
      st'.tokens = st.tokens ∧ st'.gen = st.gen ∧ st'.samples = st.samples := by
  induction ids generalizing fed st with
  | nil => exact ⟨st, rfl, by simpa using h, rfl, rfl, rfl⟩
  | cons t ids ih =>
    obtain ⟨st₁, hfeed, hfed, htokens, hgen, hsamples⟩ :=
      h.feedToken (hids t List.mem_cons_self)
    obtain ⟨st₂, hrest, hfed, htokens', hgen', hsamples'⟩ :=
      ih hfed fun u hu => hids u (List.mem_cons_of_mem t hu)
    rw [List.length_append, List.length_singleton] at hrest
    rw [List.append_assoc, List.singleton_append] at hfed
    refine ⟨st₂, ?_, hfed, htokens'.trans htokens, hgen'.trans hgen, hsamples'.trans hsamples⟩
    simp only [LLM.feedPrompt, hfeed, hrest]

/-- The prompt is fed up to the first id that the embedding table lacks. -/
theorem feedPrompt_error {m : LLM E c} {before fed : List ℕ} {st : GenState R c} {t : ℕ}
    (h : Fed m fed st) (hbefore : ∀ u ∈ before, u < c.emb_num) (ht : c.emb_num ≤ t)
    (after : List ℕ) :
    ∃ st', m.feedPrompt (before ++ t :: after) fed.length st = .error st' ∧
      CallsInStep m (fed ++ before ++ [t]) st'.calls := by
  induction before generalizing fed st with
  | nil =>
    obtain ⟨st', hfeed, hcalls⟩ := h.feedToken_error ht
    refine ⟨st', ?_, by simpa using hcalls⟩
    simp only [List.nil_append, LLM.feedPrompt, hfeed]
  | cons u before ih =>
    obtain ⟨st₁, hfeed, hfed, -⟩ := h.feedToken (hbefore u List.mem_cons_self)
    obtain ⟨st₂, hrest, hcalls⟩ := ih hfed fun v hv => hbefore v (List.mem_cons_of_mem u hv)
    rw [List.length_append, List.length_singleton] at hrest
    refine ⟨st₂, ?_, by simpa using hcalls⟩
    simp only [List.cons_append, LLM.feedPrompt, hfeed, hrest]

/-- What the rounds have sampled: `gen`, and the end token if they stopped before the limit. -/
def Stopped (eos_token_id : Option ℕ) (limit : ℕ) (gen samples : List ℕ) : Prop :=
  samples = gen ∧ gen.length = limit ∨
    ∃ e, eos_token_id = some e ∧ samples = gen ++ [e] ∧ gen.length < limit

theorem genRounds_spec {m : LLM E c} (s : Sampler R c.emb_num) (eos_token_id : Option ℕ)
    (prompt_len : ℕ) (hvocab : 0 < c.emb_num) (rounds : ℕ) {st : GenState R c}
    (h : Fed m st.tokens st) (hlen : st.tokens.length = prompt_len + st.gen.length) :
    ∃ st' new sampled, m.genRounds s eos_token_id prompt_len rounds st.gen.length st = .ok st' ∧
      Fed m st'.tokens st' ∧ st'.tokens = st.tokens ++ new ∧ st'.gen = st.gen ++ new ∧
      st'.samples = st.samples ++ sampled ∧ (∀ t ∈ new, eos_token_id ≠ some t) ∧
      Stopped eos_token_id rounds new sampled := by
  induction rounds generalizing st with
  | zero =>
    exact ⟨st, [], [], rfl, h, by simp, by simp, by simp, by simp, Or.inl ⟨rfl, rfl⟩⟩
  | succ rounds ih =>
    have hnext := s.next_lt hvocab st.gen.length st.logits st.tokens
    generalize hn : s.next st.gen.length st.logits st.tokens = next at hnext
    by_cases heos : eos_token_id = some next
    · refine ⟨{ st with samples := st.samples ++ [next] }, [], [next], ?_, ?_, by simp, by simp,
        rfl, by simp, Or.inr ⟨next, heos, rfl, Nat.succ_pos _⟩⟩
      · simp only [LLM.genRounds, hn, if_pos heos]
      · exact ⟨h.calls, h.caches⟩
    · have hfed : Fed m st.tokens { st with
          samples := st.samples ++ [next]
          tokens := st.tokens ++ [next]
          gen := st.gen ++ [next] } := ⟨h.calls, h.caches⟩
      obtain ⟨st₁, hfeed, hfed, htokens, hgen, hsamples⟩ := hfed.feedToken hnext
      dsimp only at htokens hgen hsamples
      rw [hlen] at hfeed
      obtain ⟨st₂, new, sampled, hrest, hfed, htokens', hgen', hsamples', hne, hstop⟩ :=
        ih (htokens ▸ hfed) (by simp [htokens, hgen, hlen, Nat.add_assoc])
      refine ⟨st₂, next :: new, next :: sampled, ?_, hfed, ?_, ?_, ?_, ?_, ?_⟩
      · rw [hgen, List.length_append, List.length_singleton] at hrest
        simp only [LLM.genRounds, hn, if_neg heos, hfeed, hrest]
      · simp [htokens', htokens]
      · simp [hgen', hgen]
      · simp [hsamples', hsamples]
      · simpa using ⟨heos, hne⟩
      · rcases hstop with ⟨rfl, hlen⟩ | ⟨e, he, rfl, hlen⟩
        · exact Or.inl ⟨rfl, by simp [hlen]⟩
        · exact Or.inr ⟨e, he, rfl, by simpa using hlen⟩

/-- What a finished `generate` has done. -/
structure Generated (m : LLM E c) (ids : List ℕ) (max_new_tokens : ℕ)
    (eos_token_id : Option ℕ) (out : List ℕ) (st : GenState R c) : Prop where
  output : out = ids ++ st.gen
  limit : st.gen.length ≤ max_new_tokens
  no_eos : ∀ t ∈ st.gen, eos_token_id ≠ some t
  stopped : Stopped eos_token_id max_new_tokens st.gen st.samples
  in_step : CallsInStep m out st.calls

/-- Every call was in step. The ids were all in the vocabulary and the generation is
finished, or the first one outside it ended the prompt with an error. -/
def Outcome (m : LLM E c) (ids : List ℕ) (max_new_tokens : ℕ) (eos_token_id : Option ℕ) :
    Except (GenState R c) (List ℕ × GenState R c) → Prop
  | .ok (out, st) => (∀ u ∈ ids, u < c.emb_num) ∧
      Generated m ids max_new_tokens eos_token_id out st
  | .error st => ∃ before u after, ids = before ++ u :: after ∧
      (∀ v ∈ before, v < c.emb_num) ∧ c.emb_num ≤ u ∧ CallsInStep m (before ++ [u]) st.calls

theorem generateWith_outcome (m : LLM E c) (s : Sampler R c.emb_num) (t : ℕ) (ts : List ℕ)
    (max_new_tokens : ℕ) (eos_token_id : Option ℕ) :
    Outcome m (t :: ts) max_new_tokens eos_token_id
      (m.generateWith s (t :: ts) max_new_tokens eos_token_id) := by
  have hstart : ∀ ids, Fed m [] (⟨0, m.noCaches, ids, [], [], []⟩ : GenState R c) := fun ids =>
    ⟨⟨rfl, by simp⟩, cachesAfter_nil m⟩
  by_cases hids : ∀ u ∈ t :: ts, u < c.emb_num
  · obtain ⟨st₁, hprompt, hfed, htokens, hgen, hsamples⟩ := feedPrompt_ok (hstart (t :: ts)) hids
    dsimp only at htokens hgen hsamples
    rw [List.nil_append] at hfed
    have hvocab := Nat.zero_lt_of_lt (hids t List.mem_cons_self)
    obtain ⟨st₂, new, sampled, hrun, hfed, htokens', hgen', hsamples', hne, hstop⟩ :=
      genRounds_spec s eos_token_id (t :: ts).length hvocab max_new_tokens
        (htokens ▸ hfed) (by simp [htokens, hgen])
    rw [hgen] at hrun
    rw [hgen, List.nil_append] at hgen'
    rw [hsamples, List.nil_append] at hsamples'
    have hout : st₂.tokens.take (t :: ts).length ++ st₂.gen = (t :: ts) ++ new := by
      rw [htokens', htokens, List.take_left, hgen']
    have hcalls := hfed.calls
    rw [htokens', htokens] at hcalls
    simp only [List.length_nil] at hprompt hrun
    simp only [LLM.generateWith, hprompt, hrun, Outcome]
    refine ⟨hids, hout.trans (hgen' ▸ rfl), ?_, hgen' ▸ hne, hgen' ▸ hsamples' ▸ hstop,
      hout ▸ hcalls⟩
    rw [hgen']
    rcases hstop with ⟨-, hlen⟩ | ⟨_, -, -, hlen⟩
    · exact hlen.le
    · exact hlen.le
  · cases hfind : (t :: ts).find? fun u => decide (c.emb_num ≤ u) with
    | none =>
      rw [List.find?_eq_none] at hfind
      exact absurd (fun u hu => by simpa using hfind u hu) hids
    | some u =>
      obtain ⟨hu, before, after, hsplit, hbefore⟩ := List.find?_eq_some_iff_append.mp hfind
      have hu : c.emb_num ≤ u := by simpa using hu
      have hbefore : ∀ v ∈ before, v < c.emb_num := by simpa using hbefore
      obtain ⟨st', hprompt, hcalls⟩ := feedPrompt_error (hstart (t :: ts)) hbefore hu after
      rw [List.nil_append] at hcalls
      rw [← hsplit, List.length_nil] at hprompt
      simp only [LLM.generateWith, hprompt, Outcome]
      exact ⟨before, u, after, hsplit, hbefore, hu, hcalls⟩

/-- For any outcomes of the sampler, and so for those of `sample` on any random numbers. -/
theorem generate_in_step (m : LLM E c) (t : ℕ) (ts : List ℕ) (max_new_tokens : ℕ)
    (eos_token_id : Option ℕ) :
    (∀ s, Outcome m (t :: ts) max_new_tokens eos_token_id
      (m.generateWith s (t :: ts) max_new_tokens eos_token_id)) ∧
    ∀ temperature top_k top_p repetition_penalty draws,
      Outcome m (t :: ts) max_new_tokens eos_token_id
        (m.generate (t :: ts) max_new_tokens temperature top_k top_p repetition_penalty
          eos_token_id draws) :=
  ⟨fun s => generateWith_outcome m s t ts max_new_tokens eos_token_id,
    fun _ _ _ _ _ => generateWith_outcome m _ t ts max_new_tokens eos_token_id⟩

end Nerea.Laurelia
