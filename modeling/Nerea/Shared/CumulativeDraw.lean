import Mathlib.MeasureTheory.Measure.Lebesgue.Basic

/-!
# Drawing from a list by cumulative weights

A number is compared with the running sum of the weights and the first item whose sum
exceeds it is drawn; a number the sum never exceeds is left to a fallback. Over the reals
every item is drawn on an interval as long as its weight, and what the weights lack of
one goes to the fallback alone.
-/

set_option autoImplicit false

namespace CumulativeDraw

open MeasureTheory Set

universe u v
variable {ι : Type u}

section Loops
variable {R : Type v} [Field R] [LinearOrder R] (w : ι → R)

def draw (u : R) : R → List ι → Option ι
  | _, [] => none
  | cum, i :: is => if u < cum + w i then some i else draw u (cum + w i) is

/-- The shortest prefix whose sum reaches `p`, or everything. -/
def upTo (p : R) : R → List ι → List ι
  | _, [] => []
  | cum, i :: is => i :: if p ≤ cum + w i then [] else upTo p (cum + w i) is

/-- The first of the heaviest. -/
def heaviest (best : ι) (is : List ι) : ι :=
  is.foldl (fun best i => if w best < w i then i else best) best

omit [Field R] in
theorem le_heaviest (best : ι) (is : List ι) : ∀ i ∈ best :: is, w i ≤ w (heaviest w best is) := by
  induction is generalizing best with
  | nil =>
    intro i hi
    rw [List.mem_singleton.mp hi]
    exact le_refl _
  | cons j is ih =>
    have hle : w best ≤ w (if w best < w j then j else best) ∧
        w j ≤ w (if w best < w j then j else best) := by
      split
      · rename_i h
        exact ⟨h.le, le_refl _⟩
      · rename_i h
        exact ⟨le_refl _, le_of_not_gt h⟩
    have htail := ih (if w best < w j then j else best)
    have hstep := htail _ List.mem_cons_self
    intro i hi
    rcases List.mem_cons.mp hi with h | hi
    · rw [h]
      exact hle.1.trans hstep
    rcases List.mem_cons.mp hi with h | hi
    · rw [h]
      exact hle.2.trans hstep
    · exact htail i (List.mem_cons_of_mem _ hi)

theorem upTo_isPrefix (p cum : R) (is : List ι) : upTo w p cum is <+: is := by
  induction is generalizing cum with
  | nil => exact List.nil_prefix
  | cons i is ih =>
    rw [upTo, List.cons_prefix_cons]
    split
    · exact ⟨rfl, List.nil_prefix⟩
    · exact ⟨rfl, ih _⟩

theorem length_upTo_le_one_iff {w : ι → R} {p cum : R} {is : List ι} :
    (upTo w p cum is).length ≤ 1 ↔ is.length ≤ 1 ∨ ∃ i is', is = i :: is' ∧ p ≤ cum + w i := by
  rcases is with _ | ⟨i, _ | ⟨j, is⟩⟩
  · simp [upTo]
  · simp only [upTo]
    split <;> simp
  · simp only [upTo]
    split <;> simp_all

theorem mem_of_draw {w : ι → R} {u cum : R} {i : ι} {is : List ι}
    (h : draw w u cum is = some i) : i ∈ is := by
  induction is generalizing cum with
  | nil => cases h
  | cons j is ih =>
    rw [draw] at h
    split at h
    · rw [Option.some.inj h]
      exact List.mem_cons_self
    · exact List.mem_cons_of_mem _ (ih h)

variable {w} [IsStrictOrderedRing R]

theorem draw_eq_none_iff {u : R} {is : List ι} (hw : ∀ i ∈ is, 0 ≤ w i) (cum : R) (hu : cum ≤ u) :
    draw w u cum is = none ↔ cum + (is.map w).sum ≤ u := by
  induction is generalizing cum with
  | nil => simp [draw, hu]
  | cons i is ih =>
    have hrest : ∀ j ∈ is, 0 ≤ w j := fun j hj => hw j (List.mem_cons_of_mem _ hj)
    have hsum : 0 ≤ (is.map w).sum := by
      apply List.sum_nonneg
      simpa using hrest
    rw [draw, List.map_cons, List.sum_cons, ← add_assoc]
    split
    · rename_i h
      simp only [reduceCtorEq, false_iff, not_le]
      linarith
    · rename_i h
      exact ih hrest _ (le_of_not_gt h)

/-- An item is drawn on an interval of the length of its weight. -/
theorem exists_draw_iff {i : ι} {is : List ι} (hnodup : is.Nodup) (hw : ∀ j ∈ is, 0 ≤ w j)
    (hi : i ∈ is) (cum : R) :
    ∃ a, cum ≤ a ∧ a + w i ≤ cum + (is.map w).sum ∧
      ∀ u, cum ≤ u → (draw w u cum is = some i ↔ a ≤ u ∧ u < a + w i) := by
  induction is generalizing cum with
  | nil => cases hi
  | cons j is ih =>
    obtain ⟨hj, hnodup⟩ := List.nodup_cons.mp hnodup
    have hrest : ∀ k ∈ is, 0 ≤ w k := fun k hk => hw k (List.mem_cons_of_mem _ hk)
    have hwj : 0 ≤ w j := hw j List.mem_cons_self
    simp only [draw, List.map_cons, List.sum_cons]
    rcases List.mem_cons.mp hi with rfl | hi
    · have hsum : 0 ≤ (is.map w).sum := by
        apply List.sum_nonneg
        simpa using hrest
      refine ⟨cum, le_refl _, by linarith, fun u hu => ?_⟩
      split
      · rename_i h
        exact iff_of_true rfl ⟨hu, h⟩
      · rename_i h
        -- later on the list it is not met again
        exact iff_of_false (fun hd => hj (mem_of_draw hd)) fun hlt => h hlt.2
    · obtain ⟨a, hle, hend, ha⟩ := ih hnodup hrest hi (cum + w j)
      refine ⟨a, by linarith, by linarith, fun u hu => ?_⟩
      split
      · rename_i h
        refine iff_of_false (fun hd => hj ?_) fun hau => by linarith [hau.1]
        rw [Option.some.inj hd]
        exact hi
      · rename_i h
        exact ha u (le_of_not_gt h)

/-- With a fallback for the numbers that draw nothing. -/
theorem exists_getD_draw_iff {i : ι} {is : List ι} (hnodup : is.Nodup) (hw : ∀ j ∈ is, 0 ≤ w j)
    (hi : i ∈ is) (b : ι) :
    ∃ a, 0 ≤ a ∧ a + w i ≤ (is.map w).sum ∧ ∀ u, 0 ≤ u →
      ((draw w u 0 is).getD b = i ↔ (a ≤ u ∧ u < a + w i) ∨ (i = b ∧ (is.map w).sum ≤ u)) := by
  obtain ⟨a, ha, hend, hiff⟩ := exists_draw_iff hnodup hw hi 0
  rw [zero_add] at hend
  refine ⟨a, ha, hend, fun u hu => ?_⟩
  have hnone := draw_eq_none_iff hw 0 hu
  rw [zero_add] at hnone
  rw [← hiff u hu]
  cases h : draw w u 0 is with
  | none => simp [hnone.mp h, eq_comm]
  | some j =>
    have hlt : ¬ (is.map w).sum ≤ u := fun hle => by simp [hnone.mpr hle] at h
    simp [hlt]

theorem upTo_eq_self {p cum : R} {is : List ι} (hw : ∀ i ∈ is, 0 ≤ w i)
    (h : ∀ i ∈ is, cum + (is.map w).sum - w i < p) : upTo w p cum is = is := by
  induction is generalizing cum with
  | nil => rfl
  | cons i is ih =>
    simp only [List.map_cons, List.sum_cons] at h
    rw [upTo, List.cons.injEq]
    refine ⟨rfl, ?_⟩
    have hrest : upTo w p (cum + w i) is = is := by
      refine ih (fun j hj => hw j (List.mem_cons_of_mem _ hj)) fun j hj => ?_
      linarith [h j (List.mem_cons_of_mem _ hj)]
    split
    · rename_i hp
      -- nothing is left: the sum without any later item would already reach `p`
      cases is with
      | nil => rfl
      | cons k is =>
        have hk := h k (List.mem_cons_of_mem _ List.mem_cons_self)
        have hsum : 0 ≤ (is.map w).sum := by
          apply List.sum_nonneg
          simp only [List.forall_mem_map]
          exact fun j hj => hw j (by simp [hj])
        simp only [List.map_cons, List.sum_cons] at hk
        linarith
    · exact hrest

theorem lt_of_upTo_eq_self {p cum : R} {is : List ι} (hw : ∀ i ∈ is, 0 ≤ w i)
    (hsorted : is.Pairwise fun a b => w b ≤ w a) (hcum : cum < p)
    (h : upTo w p cum is = is) : ∀ i ∈ is, cum + (is.map w).sum - w i < p := by
  induction is generalizing cum with
  | nil => simp
  | cons i is ih =>
    obtain ⟨hhead, hsorted⟩ := List.pairwise_cons.mp hsorted
    simp only [upTo, List.cons.injEq, true_and] at h
    simp only [List.map_cons, List.sum_cons]
    split at h
    · subst h
      intro j hj
      rw [List.mem_singleton.mp hj]
      simpa using hcum
    · rename_i hp
      have hrest := ih (fun j hj => hw j (List.mem_cons_of_mem _ hj)) hsorted (lt_of_not_ge hp) h
      have htail : ∀ j ∈ is, cum + (w i + (is.map w).sum) - w j < p := fun j hj => by
        linarith [hrest j hj]
      intro j hj
      rcases List.mem_cons.mp hj with rfl | hj
      · cases is with
        | nil => simpa using hcum
        | cons k is => linarith [htail k List.mem_cons_self, hhead k List.mem_cons_self]
      · exact htail j hj

/-- From the heaviest down, a prefix leaves nothing out or has a single item when every
item is needed to reach `p`, or one alone reaches it. -/
theorem upTo_eq_self_or_length_iff {p : R} {is : List ι} (hw : ∀ i ∈ is, 0 ≤ w i)
    (hsorted : is.Pairwise fun a b => w b ≤ w a) (hp : p < (is.map w).sum) :
    (upTo w p 0 is = is ∨ (upTo w p 0 is).length ≤ 1) ↔
      (∀ i ∈ is, (is.map w).sum - w i < p) ∨ ∃ i ∈ is, p ≤ w i := by
  constructor
  · intro h
    rcases le_or_gt p 0 with hneg | hpos
    · cases is with
      | nil => exact Or.inl (by simp)
      | cons i is =>
        exact Or.inr ⟨i, List.mem_cons_self, hneg.trans (hw i List.mem_cons_self)⟩
    rcases h with h | h
    · left
      simpa using lt_of_upTo_eq_self hw hsorted hpos h
    rcases length_upTo_le_one_iff.mp h with hlen | ⟨i, is', rfl, hi⟩
    · rcases is with _ | ⟨i, _ | ⟨j, is⟩⟩
      · exact Or.inl (by simp)
      · refine Or.inr ⟨i, List.mem_cons_self, ?_⟩
        simpa using hp.le
      · simp at hlen
    · exact Or.inr ⟨i, List.mem_cons_self, by simpa using hi⟩
  · intro h
    rcases h with h | ⟨i, hi, hpi⟩
    · exact Or.inl (upTo_eq_self hw (by simpa using h))
    · right
      cases is with
      | nil => cases hi
      | cons j is =>
        refine length_upTo_le_one_iff.mpr (Or.inr ⟨j, is, rfl, ?_⟩)
        rw [zero_add]
        rcases List.mem_cons.mp hi with rfl | hi
        · exact hpi
        · exact hpi.trans ((List.pairwise_cons.mp hsorted).1 i hi)

end Loops

section Law
variable {w : ι → ℝ} {is : List ι} {i : ι}

/-- The measure of the draws that give an item, with a fallback. -/
theorem volume_draw [DecidableEq ι] (hnodup : is.Nodup) (hw : ∀ j ∈ is, 0 ≤ w j)
    (hsum : (is.map w).sum ≤ 1) (hi : i ∈ is) (b : ι) :
    volume {u | u ∈ Ico (0 : ℝ) 1 ∧ (draw w u 0 is).getD b = i} =
      ENNReal.ofReal (w i + if i = b then 1 - (is.map w).sum else 0) := by
  obtain ⟨a, ha, hend, hiff⟩ := exists_getD_draw_iff hnodup hw hi b
  split
  · rename_i hib
    have hset : {u | u ∈ Ico (0 : ℝ) 1 ∧ (draw w u 0 is).getD b = i} =
        Ico a (a + w i) ∪ Ico (is.map w).sum 1 := by
      ext u
      simp only [mem_ofPred_eq, mem_union, mem_Ico]
      constructor
      · intro h
        rcases (hiff u h.1.1).mp h.2 with hau | hsu
        · exact Or.inl hau
        · exact Or.inr ⟨hsu.2, h.1.2⟩
      · intro h
        rcases h with hau | hsu
        · have hu0 := ha.trans hau.1
          exact ⟨⟨hu0, by linarith⟩, (hiff u hu0).mpr (Or.inl hau)⟩
        · have hu0 : 0 ≤ u := by linarith [hw i hi]
          exact ⟨⟨hu0, hsu.2⟩, (hiff u hu0).mpr (Or.inr ⟨hib, hsu.1⟩)⟩
    have hdisj : Disjoint (Ico a (a + w i)) (Ico (is.map w).sum 1) := by
      rw [Set.disjoint_left]
      intro u h h'
      linarith [h.2, h'.1]
    rw [hset, measure_union hdisj measurableSet_Ico, Real.volume_Ico, Real.volume_Ico,
      ← ENNReal.ofReal_add (by linarith [hw i hi]) (by linarith)]
    congr 1
    ring
  · rename_i hib
    have hset : {u | u ∈ Ico (0 : ℝ) 1 ∧ (draw w u 0 is).getD b = i} = Ico a (a + w i) := by
      ext u
      simp only [mem_ofPred_eq, mem_Ico]
      constructor
      · intro h
        exact ((hiff u h.1.1).mp h.2).resolve_right fun hsu => hib hsu.1
      · intro hau
        have hu0 := ha.trans hau.1
        exact ⟨⟨hu0, by linarith⟩, (hiff u hu0).mpr (Or.inl hau)⟩
    rw [hset, Real.volume_Ico]
    congr 1
    ring

/-- The draw is proportional to the weights exactly when they lack nothing of one, or
only the fallback has weight. -/
theorem proportional_iff [DecidableEq ι] (hnodup : is.Nodup) (hw : ∀ j ∈ is, 0 ≤ w j)
    (hpos : 0 < (is.map w).sum) (hsum : (is.map w).sum ≤ 1) (b : ι) :
    (∀ i ∈ is, volume {u | u ∈ Ico (0 : ℝ) 1 ∧ (draw w u 0 is).getD b = i} =
        ENNReal.ofReal (w i / (is.map w).sum)) ↔
      (is.map w).sum = 1 ∨ ∀ i ∈ is, i ≠ b → w i = 0 := by
  constructor
  · intro h
    by_contra hcon
    push Not at hcon
    obtain ⟨hne, i, hi, hib, hwi⟩ := hcon
    have hvol := h i hi
    rw [volume_draw hnodup hw hsum hi, if_neg hib, add_zero,
      ENNReal.ofReal_eq_ofReal_iff (hw i hi) (div_nonneg (hw i hi) hpos.le),
      eq_div_iff hpos.ne'] at hvol
    exact hne (mul_left_cancel₀ hwi (hvol.trans (mul_one _).symm))
  · intro h i hi
    rw [volume_draw hnodup hw hsum hi]
    congr 1
    rcases h with h | h
    · rw [h]
      simp
    split
    · rename_i hib
      subst hib
      have htotal : (is.map w).sum = w i := by
        rw [List.sum_map_eq_nsmul_single i w fun j hj hmem => h j hmem hj,
          List.count_eq_one_of_mem hnodup hi, one_smul]
      rw [htotal, div_self (htotal ▸ hpos.ne')]
      ring
    · rename_i hib
      rw [h i hi hib, zero_div, add_zero]

end Law
end CumulativeDraw
