import Nerea.Laurelia.Sampling
import Nerea.Laurelia.ChunkCausality

/-!
# The law of the sampled token

Over the reals. What top_p drops is not made up for: the draw compares with the sum of
the probabilities kept, and every number beyond it goes to the likeliest token.
-/

set_option autoImplicit false

namespace Nerea.Laurelia

open CumulativeDraw MaskedSoftmax MeasureTheory Set

variable {n : ℕ} (a : Vec ℝ n) (top_k : ℕ) (top_p : ℝ)

/-- The softmax over the whole vocabulary. -/
noncomputable def prob (i : Fin n) : ℝ := Real.exp (a i) / ∑ j, Real.exp (a j)

/-- Each token is drawn with its share of what top_k and top_p keep. -/
def Faithful (logits : Vec ℝ n) (tokens : List ℕ) (temperature : ℝ) (top_k : ℕ)
    (top_p repetition_penalty : ℝ) : Prop :=
  let a := adjusted logits tokens temperature repetition_penalty
  let keep := kept realElementary top_k top_p a
  ∀ i : Fin n,
    volume {u | u ∈ Ico (0 : ℝ) 1 ∧ LLM.sample realElementary logits tokens temperature top_k
        top_p repetition_penalty u = i} =
      ENNReal.ofReal (retain keep 0 (fun j => prob a j / (keep.map (prob a)).sum) i)

/-- The weights that top_k leaves, from the largest down. -/
noncomputable def largest : List ℝ :=
  let ws := (List.ofFn fun i => Real.exp (a i)).mergeSort fun x y => decide (y ≤ x)
  if 0 < top_k then ws.take top_k else ws

/-- Every weight is needed to reach the part `p` of their sum, or one alone does. -/
def AllOrOne (p : ℝ) (ws : List ℝ) : Prop :=
  (∀ w ∈ ws, ws.sum - w < p * ws.sum) ∨ ∃ w ∈ ws, p * ws.sum ≤ w

theorem sum_retain {keep : List (Fin n)} (hnodup : keep.Nodup) (f : Fin n → ℝ) :
    ((List.finRange n).map (retain keep 0 f)).sum = (keep.map f).sum := by
  rw [← List.ofFn_eq_map, List.sum_ofFn, ← List.sum_toFinset f hnodup]
  unfold retain
  simp [← List.mem_toFinset, Finset.sum_ite_mem]

theorem exists_expSub_eq (m : WithBot ℝ) :
    ∃ c : ℝ, c ≠ 0 ∧ ∀ x, expSub Real.exp m x = c * expSub Real.exp ⊥ x := by
  cases m with
  | bot => exact ⟨1, one_ne_zero, fun x => (one_mul _).symm⟩
  | coe m =>
    refine ⟨Real.exp (-m), Real.exp_ne_zero _, fun x => ?_⟩
    cases x with
    | bot => exact (mul_zero _).symm
    | coe x =>
      change Real.exp (x - m) = Real.exp (-m) * Real.exp x
      rw [← Real.exp_add]
      congr 1
      ring

theorem nodup_topK : (topK top_k a).1.Nodup := by
  unfold topK
  dsimp only
  split
  · exact (List.take_sublist _ _).nodup
      ((List.mergeSort_perm _ _).nodup_iff.mpr (List.nodup_finRange n))
  · exact List.nodup_finRange n

theorem topK_snd (i : Fin n) :
    (topK top_k a).2 i = retain (topK top_k a).1 ⊥ (fun j => (a j : WithBot ℝ)) i := by
  unfold topK
  dsimp only
  split
  · rfl
  · exact (retain_of_mem (List.mem_finRange i)).symm

theorem softmaxProbs_topK :
    softmaxProbs realElementary (topK top_k a).2 = retain (topK top_k a).1 0 fun i =>
      Real.exp (a i) / ((topK top_k a).1.map fun j => Real.exp (a j)).sum := by
  obtain ⟨c, hc, hexp⟩ := exists_expSub_eq ((List.ofFn (topK top_k a).2).foldr max ⊥)
  have hentry : ∀ j, expSub Real.exp ⊥ ((topK top_k a).2 j) =
      retain (topK top_k a).1 0 (fun k => Real.exp (a k)) j := by
    intro j
    rw [topK_snd]
    unfold retain
    split <;> rfl
  have hsum : ∑ j, expSub Real.exp ⊥ ((topK top_k a).2 j) =
      ((topK top_k a).1.map fun j => Real.exp (a j)).sum := by
    rw [← sum_retain (nodup_topK a top_k), ← List.ofFn_eq_map, List.sum_ofFn]
    exact Finset.sum_congr rfl fun j _ => hentry j
  funext i
  change expSub Real.exp _ _ / ∑ j, expSub Real.exp _ _ = _
  simp only [hexp]
  rw [← Finset.mul_sum, hsum, hentry, mul_div_mul_left _ _ hc]
  unfold retain
  split
  · rfl
  · exact zero_div _

/-- What top_k leaves, by weight and without the indices. -/
theorem topK_perm_largest :
    ((topK top_k a).1.map fun j => Real.exp (a j)).Perm (largest a top_k) := by
  have hsort : ((List.finRange n).mergeSort fun i j => decide (a j ≤ a i)).map
      (fun j => Real.exp (a j)) =
      (List.ofFn fun i => Real.exp (a i)).mergeSort fun x y => decide (y ≤ x) := by
    rw [List.ofFn_eq_map]
    apply List.map_mergeSort
    intro i _ j _
    simp
  have hperm : ((List.finRange n).map fun j => Real.exp (a j)).Perm
      ((List.ofFn fun i => Real.exp (a i)).mergeSort fun x y => decide (y ≤ x)) := by
    rw [← List.ofFn_eq_map]
    exact (List.mergeSort_perm _ _).symm
  unfold topK largest
  dsimp only
  split
  · rename_i h
    rw [if_pos h.1, List.map_take, hsort]
  · rename_i h
    split
    · rename_i hk
      rw [List.take_of_length_le]
      · exact hperm
      · simp only [List.length_mergeSort, List.length_ofFn]
        omega
    · exact hperm

section Nucleus
variable {T : List (Fin n)} {q : Fin n → ℝ}

theorem nucleus_sorted :
    (T.mergeSort fun i j => decide (q j ≤ q i)).Pairwise fun i j => q j ≤ q i := by
  have htotal : Std.Total fun i j : Fin n => q j ≤ q i := ⟨fun i j => le_total (q j) (q i)⟩
  have htrans : IsTrans (Fin n) fun i j => q j ≤ q i := ⟨fun _ _ _ h h' => h'.trans h⟩
  exact List.pairwise_mergeSort' (fun i j => q j ≤ q i) T

theorem AllOrOne.of_perm {ws ws' : List ℝ} (hperm : ws.Perm ws') {p : ℝ} :
    AllOrOne p ws ↔ AllOrOne p ws' := by
  simp only [AllOrOne, hperm.sum_eq, hperm.mem_iff]

theorem sum_map_div (ws : List ℝ) (c : ℝ) : (ws.map (· / c)).sum = ws.sum / c := by
  simp only [div_eq_mul_inv]
  rw [List.sum_map_mul_right, List.map_id']

theorem AllOrOne.map_div {c : ℝ} (hc : 0 < c) (p : ℝ) (ws : List ℝ) :
    AllOrOne p (ws.map (· / c)) ↔ AllOrOne p ws := by
  simp only [AllOrOne, List.mem_map, forall_exists_index, and_imp, forall_apply_eq_imp_iff₂,
    exists_exists_and_eq_and, sum_map_div, ← sub_div, ← mul_div_assoc,
    div_lt_div_iff_of_pos_right hc, div_le_div_iff_of_pos_right hc]

/-- Where all of `T` has probability one in all, top_p leaves nothing out or one token. -/
theorem nucleus_all_or_one (hpos : ∀ i ∈ T, 0 < q i) (hsum : (T.map q).sum = 1) {p : ℝ}
    (hp : p < 1) :
    (((nucleus p T q).map q).sum = 1 ∨ (nucleus p T q).length ≤ 1) ↔ AllOrOne p (T.map q) := by
  have hperm : (T.mergeSort fun i j => decide (q j ≤ q i)).Perm T := List.mergeSort_perm _ _
  have hpos' : ∀ i ∈ T.mergeSort fun i j => decide (q j ≤ q i), 0 < q i := fun i hi =>
    hpos i (hperm.mem_iff.mp hi)
  have hsum' := ((hperm.map q).sum_eq).trans hsum
  have hiff := upTo_eq_self_or_length_iff (fun i hi => (hpos' i hi).le) nucleus_sorted
    (hsum' ▸ hp)
  have hall : ((nucleus p T q).map q).sum = 1 ↔
      nucleus p T q = T.mergeSort fun i j => decide (q j ≤ q i) := by
    constructor
    · intro h
      obtain ⟨rest, hrest⟩ := upTo_isPrefix q p 0 (T.mergeSort fun i j => decide (q j ≤ q i))
      have htotal := hsum'
      rw [← hrest, List.map_append, List.sum_append] at htotal
      cases rest with
      | nil => rwa [List.append_nil] at hrest
      | cons i rest =>
        have hi := hpos' i (hrest ▸ List.mem_append_right _ List.mem_cons_self)
        have hnonneg : 0 ≤ (rest.map q).sum := by
          apply List.sum_nonneg
          simp only [List.forall_mem_map]
          exact fun j hj => (hpos' j (hrest ▸ by simp [hj])).le
        unfold nucleus at h
        rw [h, List.map_cons, List.sum_cons] at htotal
        linarith
    · intro h
      rw [h, hsum']
  rw [hall, AllOrOne.of_perm (hperm.map q).symm]
  simpa [AllOrOne, hsum', nucleus] using hiff

end Nucleus

section Kept

theorem topK_ne_nil (hn : 0 < n) : (topK top_k a).1 ≠ [] := by
  unfold topK
  dsimp only
  rw [← List.length_pos_iff]
  split
  · simp only [List.length_take, List.length_mergeSort, List.length_finRange]
    omega
  · simpa using hn

theorem sum_exp_topK_pos (hn : 0 < n) :
    0 < ((topK top_k a).1.map fun j => Real.exp (a j)).sum := by
  apply List.sum_pos
  · simp [Real.exp_pos]
  · simpa using topK_ne_nil a top_k hn

theorem softmaxProbs_pos {i : Fin n} (hi : i ∈ (topK top_k a).1) :
    0 < softmaxProbs realElementary (topK top_k a).2 i := by
  rw [softmaxProbs_topK, retain_of_mem hi]
  exact div_pos (Real.exp_pos _) (sum_exp_topK_pos a top_k (Nat.zero_lt_of_lt i.isLt))

theorem map_softmaxProbs {l : List (Fin n)} (hl : ∀ i ∈ l, i ∈ (topK top_k a).1) :
    l.map (softmaxProbs realElementary (topK top_k a).2) =
      (l.map fun j => Real.exp (a j)).map
        (· / ((topK top_k a).1.map fun j => Real.exp (a j)).sum) := by
  rw [List.map_map]
  apply List.map_congr_left
  intro i hi
  rw [softmaxProbs_topK, retain_of_mem (hl i hi)]
  rfl

theorem sum_softmaxProbs (hn : 0 < n) :
    ((topK top_k a).1.map (softmaxProbs realElementary (topK top_k a).2)).sum = 1 := by
  rw [map_softmaxProbs a top_k fun _ hi => hi, sum_map_div,
    div_self (sum_exp_topK_pos a top_k hn).ne']

theorem mem_topK_of_kept {i : Fin n} (hi : i ∈ kept realElementary top_k top_p a) :
    i ∈ (topK top_k a).1 := by
  unfold kept at hi
  dsimp only at hi
  split at hi
  · exact (List.mergeSort_perm _ _).mem_iff.mp ((upTo_isPrefix _ _ _ _).subset hi)
  · exact hi

theorem nodup_kept : (kept realElementary top_k top_p a).Nodup := by
  unfold kept
  dsimp only
  split
  · exact (upTo_isPrefix _ _ _ _).sublist.nodup
      ((List.mergeSort_perm _ _).nodup_iff.mpr (nodup_topK a top_k))
  · exact nodup_topK a top_k

theorem kept_ne_nil (hn : 0 < n) : kept realElementary top_k top_p a ≠ [] := by
  unfold kept
  dsimp only
  split
  · unfold nucleus
    cases h : (topK top_k a).1.mergeSort fun i j => decide
        (softmaxProbs realElementary (topK top_k a).2 j ≤
          softmaxProbs realElementary (topK top_k a).2 i) with
    | nil =>
      have hperm := List.mergeSort_perm (topK top_k a).1 fun i j => decide
        (softmaxProbs realElementary (topK top_k a).2 j ≤
          softmaxProbs realElementary (topK top_k a).2 i)
      rw [h] at hperm
      exact absurd hperm.symm.eq_nil (topK_ne_nil a top_k hn)
    | cons i is => simp [upTo]
  · exact topK_ne_nil a top_k hn

/-- What the draw is made with. -/
theorem topP_eq : topP top_p (topK top_k a).1 (softmaxProbs realElementary (topK top_k a).2) =
    retain (kept realElementary top_k top_p a) 0
      (softmaxProbs realElementary (topK top_k a).2) := by
  unfold topP kept
  dsimp only
  split
  · rfl
  · funext i
    by_cases hi : i ∈ (topK top_k a).1
    · exact (retain_of_mem hi).symm
    · rw [retain_of_notMem hi, softmaxProbs_topK, retain_of_notMem hi]

/-- A token's share of what is kept, by either softmax. -/
theorem prob_div_sum {i : Fin n} (hi : i ∈ kept realElementary top_k top_p a) :
    prob a i / ((kept realElementary top_k top_p a).map (prob a)).sum =
      softmaxProbs realElementary (topK top_k a).2 i /
        ((kept realElementary top_k top_p a).map
          (softmaxProbs realElementary (topK top_k a).2)).sum := by
  have hn := Nat.zero_lt_of_lt i.isLt
  have hvocab : 0 < ∑ j, Real.exp (a j) :=
    Finset.sum_pos (fun j _ => Real.exp_pos _) ⟨i, Finset.mem_univ i⟩
  have hprob : (kept realElementary top_k top_p a).map (prob a) =
      ((kept realElementary top_k top_p a).map fun j => Real.exp (a j)).map
        (· / ∑ j, Real.exp (a j)) := by
    rw [List.map_map]
    rfl
  rw [map_softmaxProbs a top_k fun j hj => mem_topK_of_kept a top_k top_p hj, hprob, sum_map_div,
    sum_map_div, softmaxProbs_topK, retain_of_mem (mem_topK_of_kept a top_k top_p hi), prob,
    div_div_div_cancel_right₀ hvocab.ne',
    div_div_div_cancel_right₀ (sum_exp_topK_pos a top_k hn).ne']

theorem kept_all_or_one (hn : 0 < n) :
    (((kept realElementary top_k top_p a).map
        (softmaxProbs realElementary (topK top_k a).2)).sum = 1 ∨
      (kept realElementary top_k top_p a).length ≤ 1) ↔ AllOrOne top_p (largest a top_k) := by
  have hpos := sum_exp_topK_pos a top_k hn
  have hscale := AllOrOne.map_div hpos top_p ((topK top_k a).1.map fun j => Real.exp (a j))
  rw [← AllOrOne.of_perm (topK_perm_largest a top_k), ← hscale,
    ← map_softmaxProbs a top_k fun _ hi => hi]
  have hsum := sum_softmaxProbs a top_k hn
  unfold kept
  dsimp only
  split
  · rename_i hp
    exact nucleus_all_or_one (fun i hi => softmaxProbs_pos a top_k hi) hsum hp
  · rename_i hp
    refine iff_of_true (Or.inl hsum) (Or.inl fun w hw => ?_)
    obtain ⟨i, hi, rfl⟩ := List.mem_map.mp hw
    have hq := softmaxProbs_pos a top_k hi
    rw [hsum]
    linarith

end Kept

theorem exists_fallback (probs : Vec ℝ n) (hn : 0 < n) :
    ∃ b : Fin n, (∀ i, probs i ≤ probs b) ∧ ∀ u i,
      multinomial probs u = (i : Fin n) ↔ (draw probs u 0 (List.finRange n)).getD b = i := by
  cases h : List.finRange n with
  | nil =>
    have hlen := congrArg List.length h
    simp at hlen
    omega
  | cons best is =>
    refine ⟨heaviest probs best is, fun i => ?_, fun u i => ?_⟩
    · exact le_heaviest probs best is i (h ▸ List.mem_finRange i)
    · unfold multinomial fallback
      rw [h]
      cases draw probs u 0 (best :: is) with
      | none => exact Fin.val_inj
      | some j => exact Fin.val_inj

/-- What the draw is made with: nothing is done for the mass that top_p drops. -/
noncomputable def drawn : Vec ℝ n :=
  retain (kept realElementary top_k top_p a) 0 (softmaxProbs realElementary (topK top_k a).2)

theorem sample_eq_drawn (logits : Vec ℝ n) (tokens : List ℕ)
    (temperature repetition_penalty u : ℝ) :
    LLM.sample realElementary logits tokens temperature top_k top_p repetition_penalty u =
      multinomial
        (drawn (adjusted logits tokens temperature repetition_penalty) top_k top_p) u := by
  rw [LLM.sample_eq]
  dsimp only
  rw [topP_eq]
  rfl

theorem drawn_pos_iff {i : Fin n} :
    0 < drawn a top_k top_p i ↔ i ∈ kept realElementary top_k top_p a := by
  unfold drawn
  by_cases hi : i ∈ kept realElementary top_k top_p a
  · rw [retain_of_mem hi]
    exact iff_of_true (softmaxProbs_pos a top_k (mem_topK_of_kept a top_k top_p hi)) hi
  · rw [retain_of_notMem hi]
    exact iff_of_false (lt_irrefl 0) hi

theorem drawn_nonneg (i : Fin n) : 0 ≤ drawn a top_k top_p i := by
  by_cases hi : i ∈ kept realElementary top_k top_p a
  · exact ((drawn_pos_iff a top_k top_p).mpr hi).le
  · exact (retain_of_notMem hi).ge

theorem sum_drawn : ((List.finRange n).map (drawn a top_k top_p)).sum =
    ((kept realElementary top_k top_p a).map (softmaxProbs realElementary (topK top_k a).2)).sum :=
  sum_retain (nodup_kept a top_k top_p) _

theorem sum_drawn_pos (hn : 0 < n) : 0 < ((List.finRange n).map (drawn a top_k top_p)).sum := by
  rw [sum_drawn]
  apply List.sum_pos
  · simp only [List.forall_mem_map]
    exact fun i hi => softmaxProbs_pos a top_k (mem_topK_of_kept a top_k top_p hi)
  · simpa using kept_ne_nil a top_k top_p hn

theorem sum_drawn_le_one (hn : 0 < n) :
    ((List.finRange n).map (drawn a top_k top_p)).sum ≤ 1 := by
  obtain ⟨l, hperm, hsub⟩ := List.subperm_of_subset (nodup_kept a top_k top_p)
    fun i hi => mem_topK_of_kept a top_k top_p hi
  rw [sum_drawn, ← (hperm.map _).sum_eq, ← sum_softmaxProbs a top_k hn]
  apply (hsub.map _).sum_le_sum
  simp only [List.forall_mem_map]
  exact fun i hi => (softmaxProbs_pos a top_k hi).le

/-- A token's share of what is kept is that of the draw's weights. -/
theorem share_eq (i : Fin n) :
    retain (kept realElementary top_k top_p a) 0
        (fun j => prob a j / ((kept realElementary top_k top_p a).map (prob a)).sum) i =
      drawn a top_k top_p i / ((List.finRange n).map (drawn a top_k top_p)).sum := by
  rw [sum_drawn]
  unfold drawn
  by_cases hi : i ∈ kept realElementary top_k top_p a
  · rw [retain_of_mem hi, retain_of_mem hi, prob_div_sum a top_k top_p hi]
  · rw [retain_of_notMem hi, retain_of_notMem hi, zero_div]

/-- The fallback is one of the tokens kept, and the only one there is if no other has weight. -/
theorem others_zero_iff (hn : 0 < n) {b : Fin n}
    (hb : ∀ i, drawn a top_k top_p i ≤ drawn a top_k top_p b) :
    (∀ i ∈ List.finRange n, i ≠ b → drawn a top_k top_p i = 0) ↔
      (kept realElementary top_k top_p a).length ≤ 1 := by
  have hmem : b ∈ kept realElementary top_k top_p a := by
    cases h : kept realElementary top_k top_p a with
    | nil => exact absurd h (kept_ne_nil a top_k top_p hn)
    | cons i is =>
      have hi := (drawn_pos_iff a top_k top_p).mpr (h ▸ List.mem_cons_self : i ∈ _)
      exact h ▸ (drawn_pos_iff a top_k top_p).mp (hi.trans_le (hb i))
  constructor
  · intro h
    have hall : ∀ i ∈ kept realElementary top_k top_p a, i ∈ [b] := by
      intro i hi
      have hpos := (drawn_pos_iff a top_k top_p).mpr hi
      by_contra hib
      exact hpos.ne' (h i (List.mem_finRange i) (by simpa using hib))
    exact (List.subperm_of_subset (nodup_kept a top_k top_p) hall).length_le
  · intro h i _ hib
    by_contra hi
    have hkept := (drawn_pos_iff a top_k top_p).mp ((drawn_nonneg a top_k top_p i).lt_of_ne' hi)
    have hpair : ([i, b] : List (Fin n)).Subperm (kept realElementary top_k top_p a) :=
      List.subperm_of_subset (by simpa using hib) (by simp [hkept, hmem])
    have hlen := hpair.length_le
    simp only [List.length_cons, List.length_nil] at hlen
    omega

theorem faithful_iff_kept (hn : 0 < n) (logits : Vec ℝ n) (tokens : List ℕ)
    (temperature repetition_penalty : ℝ) :
    Faithful logits tokens temperature top_k top_p repetition_penalty ↔
      AllOrOne top_p (largest (adjusted logits tokens temperature repetition_penalty) top_k) := by
  unfold Faithful
  simp only [sample_eq_drawn, share_eq]
  rw [← kept_all_or_one _ _ _ hn]
  generalize adjusted logits tokens temperature repetition_penalty = a
  obtain ⟨b, hb, hmult⟩ := exists_fallback (drawn a top_k top_p) hn
  have hlaw := proportional_iff (List.nodup_finRange n)
    (fun i _ => drawn_nonneg a top_k top_p i) (sum_drawn_pos a top_k top_p hn)
    (sum_drawn_le_one a top_k top_p hn) b
  rw [others_zero_iff a top_k top_p hn hb] at hlaw
  rw [← sum_drawn, ← hlaw]
  simp only [hmult, List.mem_finRange, true_imp_iff]

/-- The draws follow the filtered distribution exactly when top_p needs every token that
top_k leaves, or a single one. -/
theorem sample_faithful_iff (logits : Vec ℝ n) (tokens : List ℕ) (temperature : ℝ) (top_k : ℕ)
    (top_p repetition_penalty : ℝ) :
    Faithful logits tokens temperature top_k top_p repetition_penalty ↔
      AllOrOne top_p (largest (adjusted logits tokens temperature repetition_penalty) top_k) := by
  rcases Nat.eq_zero_or_pos n with rfl | hn
  · refine iff_of_true (fun i => i.elim0) (Or.inl fun w hw => ?_)
    obtain ⟨i, -, -⟩ := List.mem_map.mp ((topK_perm_largest _ _).mem_iff.mpr hw)
    exact i.elim0
  · exact faithful_iff_kept top_k top_p hn logits tokens temperature repetition_penalty

/-- Of three equally likely tokens top_p = 1/2 keeps two, and the first is drawn twice as
often as the second. -/
theorem three_tokens_unfaithful : ¬ Faithful (fun _ : Fin 3 => 0) [] 1 0 (1 / 2) 1 := by
  have hperm : (largest (adjusted (fun _ : Fin 3 => 0) [] 1 1) 0).Perm [1, 1, 1] := by
    have h := topK_perm_largest (adjusted (fun _ : Fin 3 => 0) [] 1 1) 0
    refine h.symm.trans (List.Perm.of_eq ?_)
    simp [topK, adjusted, List.finRange_succ]
  rw [faithful_iff_kept 0 (1 / 2) (by decide), AllOrOne.of_perm hperm]
  norm_num [AllOrOne]

end Nerea.Laurelia
