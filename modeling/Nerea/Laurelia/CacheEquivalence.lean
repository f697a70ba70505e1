import Nerea.Laurelia.Model

/-!
# The cached pass computes the full pass

After the rows `xs` every layer's cache is the one of that layer's inputs, which are the
full pass of the layers below it over `xs`. A first chunk of any length establishes this
from empty caches, and every further single token keeps it and yields the next row of
the full pass.
-/

set_option autoImplicit false

namespace Nerea.Laurelia

open CausalMap

universe u
variable {R : Type u} [Field R] [LinearOrder R] {E : Elementary R} {c : Config}

def stack (blocks : List (Block E c)) (x : List (Vec R c.dim)) : List (Vec R c.dim) :=
  blocks.foldl (fun x block => block.forward x) x

@[simp] theorem stack_cons (b : Block E c) (blocks : List (Block E c))
    (x : List (Vec R c.dim)) : stack (b :: blocks) x = stack blocks (b.forward x) := rfl

@[simp] theorem length_stack (blocks : List (Block E c)) (x : List (Vec R c.dim)) :
    (stack blocks x).length = x.length := by
  induction blocks generalizing x with
  | nil => rfl
  | cons b blocks ih => rw [stack_cons, ih, b.forward_eq, length_causalMap]

theorem take_stack (blocks : List (Block E c)) (x : List (Vec R c.dim)) (n : ℕ) :
    (stack blocks x).take n = stack blocks (x.take n) := by
  induction blocks generalizing x with
  | nil => rfl
  | cons b blocks ih =>
    rw [stack_cons, ih, stack_cons, b.forward_eq, b.forward_eq, take_causalMap]

theorem stack_append (blocks : List (Block E c)) (x y : List (Vec R c.dim)) :
    stack blocks (x ++ y) = stack blocks x ++ (stack blocks (x ++ y)).drop x.length := by
  have htake := take_stack blocks (x ++ y) x.length
  rw [List.take_left] at htake
  rw [← htake, List.take_append_drop]

/-- Every layer's cache holds the keys and values of that layer's inputs over `x`. -/
def CachesHold : List (Block E c) → List (Option (KVCache R c)) → List (Vec R c.dim) → Prop
  | [], _, _ => True
  | _ :: _, [], _ => False
  | b :: blocks, cache :: caches, x =>
    cache = some (b.cacheOf x) ∧ CachesHold blocks caches (b.forward x)

theorem runBlocks_prefill (blocks : List (Block E c)) (x : List (Vec R c.dim)) :
    ∃ caches, LLM.runBlocks blocks (List.replicate blocks.length none) x 0 =
      some (stack blocks x, caches) ∧ CachesHold blocks caches x := by
  induction blocks generalizing x with
  | nil => exact ⟨[], rfl, trivial⟩
  | cons b blocks ih =>
    obtain ⟨caches, hrun, hhold⟩ := ih (b.forward x)
    refine ⟨some (b.cacheOf x) :: caches, ?_, rfl, hhold⟩
    simp only [List.length_cons, List.replicate_succ, LLM.runBlocks, b.forwardWithCache_none,
      hrun, stack_cons]

theorem runBlocks_step {blocks : List (Block E c)} {caches : List (Option (KVCache R c))}
    {hist : List (Vec R c.dim)} (h : CachesHold blocks caches hist) (x : Vec R c.dim) :
    ∃ y caches', LLM.runBlocks blocks caches [x] hist.length = some ([y], caches') ∧
      CachesHold blocks caches' (hist ++ [x]) ∧
      stack blocks (hist ++ [x]) = stack blocks hist ++ [y] := by
  induction blocks generalizing caches hist x with
  | nil => exact ⟨x, caches, rfl, trivial, rfl⟩
  | cons b blocks ih =>
    match caches, h with
    | cache :: caches, ⟨hcache, hhold⟩ =>
      have hforward : b.forward (hist ++ [x]) = b.forward hist ++ [b.outNew hist x] := by
        rw [b.forward_eq, b.forward_eq, causalMap_append, List.nil_append, causalMap_singleton]
      obtain ⟨y, caches', hrun, hhold', hstack⟩ := ih hhold (b.outNew hist x)
      have hlen : (b.forward hist).length = hist.length := by
        rw [b.forward_eq, length_causalMap]
      rw [hlen] at hrun
      refine ⟨y, some (b.cacheOf (hist ++ [x])) :: caches', ?_, ⟨rfl, ?_⟩, ?_⟩
      · simp only [LLM.runBlocks, hcache, b.forwardWithCache_some, hrun]
      · rw [hforward]
        exact hhold'
      · rw [stack_cons, hforward, hstack, stack_cons]

namespace LLM
variable (m : LLM E c)

def noCaches : List (Option (KVCache R c)) := List.replicate m.blocks.length none

/-- Chunks fed one after the other, each at the offset of the tokens fed before it. -/
def feed (m : LLM E c) : List (Option (KVCache R c)) → ℕ → List (List ℕ) →
    Option (List (Vec R c.emb_num))
  | _, _, [] => some []
  | caches, offset, chunk :: chunks =>
    match m.forwardWithCache chunk offset caches with
    | none => none
    | some (out, caches) =>
      match feed m caches (offset + chunk.length) chunks with
      | none => none
      | some outs => some (out ++ outs)

omit [LinearOrder R] in
@[simp] theorem embed_nil : m.embed [] = some [] := rfl

omit [LinearOrder R] in
theorem embed_cons (t : ℕ) (ts : List ℕ) : m.embed (t :: ts) =
    (m.embedToken t).bind fun x => (m.embed ts).map (x :: ·) := by
  rw [embed, List.mapM_cons]
  cases m.embedToken t with
  | none => rfl
  | some x => cases hts : ts.mapM m.embedToken <;> simp [embed, hts]

omit [LinearOrder R] in
theorem embed_append (xs ys : List ℕ) : m.embed (xs ++ ys) =
    (m.embed xs).bind fun x => (m.embed ys).map (x ++ ·) := by
  induction xs with
  | nil => simp
  | cons t xs ih =>
    rw [List.cons_append, embed_cons, embed_cons, ih]
    cases m.embedToken t with
    | none => rfl
    | some x => cases m.embed xs <;> cases m.embed ys <;> rfl

omit [LinearOrder R] in
theorem length_embed {xs : List ℕ} {x : List (Vec R c.dim)} (h : m.embed xs = some x) :
    x.length = xs.length := by
  induction xs generalizing x with
  | nil => simp_all
  | cons t xs ih =>
    rw [embed_cons] at h
    cases ht : m.embedToken t with
    | none => simp [ht] at h
    | some y =>
      cases hxs : m.embed xs with
      | none => simp [ht, hxs] at h
      | some ys =>
        simp only [ht, hxs, Option.map_some, Option.bind_some, Option.some.injEq] at h
        rw [← h, List.length_cons, List.length_cons, ih hxs]

theorem forward_eq (ids : List ℕ) :
    m.forward ids = (m.embed ids).map fun x => (stack m.blocks x).map m.logits := by
  rw [forward]
  cases m.embed ids <;> rfl

theorem feed_singletons {caches : List (Option (KVCache R c))} {hist : List (Vec R c.dim)}
    (h : CachesHold m.blocks caches hist) (ts : List ℕ) :
    m.feed caches hist.length (ts.map ([·])) = (m.embed ts).map fun ys =>
      ((stack m.blocks (hist ++ ys)).drop hist.length).map m.logits := by
  induction ts generalizing caches hist with
  | nil => simp [feed]
  | cons t ts ih =>
    rw [List.map_cons, feed, forwardWithCache, embed_cons, embed_cons, embed_nil]
    cases ht : m.embedToken t with
    | none => rfl
    | some x =>
      obtain ⟨y, caches', hrun, hhold, hstack⟩ := runBlocks_step h x
      have hrest := ih hhold
      rw [List.length_append, List.length_singleton] at hrest
      simp only [Option.map_some, Option.bind_some, hrun, List.length_singleton, hrest]
      cases m.embed ts with
      | none => rfl
      | some ys =>
        have happ := stack_append m.blocks (hist ++ [x]) ys
        rw [hstack, List.length_append, List.length_singleton] at happ
        have hdrop : (stack m.blocks (hist ++ [x] ++ ys)).drop hist.length =
            y :: (stack m.blocks (hist ++ [x] ++ ys)).drop (hist.length + 1) := by
          conv_lhs => rw [happ]
          simp
        simp only [Option.map_some, List.append_assoc, List.singleton_append] at hdrop ⊢
        rw [hdrop, List.map_cons, List.map_cons, List.map_nil, List.singleton_append]

/-- The cached pass over a first chunk and then single tokens is the full pass. -/
theorem feed_eq_forward (ts : List ℕ) (p : ℕ) :
    m.feed m.noCaches 0 (ts.take p :: (ts.drop p).map ([·])) = m.forward ts := by
  rw [feed, forwardWithCache, forward_eq]
  conv_rhs => rw [← List.take_append_drop p ts, embed_append]
  cases hx : m.embed (ts.take p) with
  | none => rfl
  | some x =>
    obtain ⟨caches, hrun, hhold⟩ := runBlocks_prefill m.blocks x
    have hlen : x.length = (ts.take p).length := m.length_embed hx
    simp only [noCaches, hrun, Nat.zero_add, ← hlen, m.feed_singletons hhold, Option.bind_some]
    cases m.embed (ts.drop p) with
    | none => rfl
    | some ys =>
      simp only [Option.map_some, ← List.map_append, ← stack_append]

end LLM
end Nerea.Laurelia
