import Mathlib.Data.List.Basic
import Mathlib.Data.List.Induction
import Mathlib.Data.List.Nodup
import Mathlib.Data.List.Count
import Mathlib.Data.List.Perm.Basic

/-!
# Tallies

A list of counts, the largest in front, with one entry for each kind of what is counted. What
comes in is counted at its place, and its entry moves forward past those of smaller counts.
-/

set_option autoImplicit false

namespace Tally

universe u v

variable {E : Type u} {K : Type v}

/-- The entry at the index moves forward as long as the one before it is smaller. -/
def bubble : ℕ → List (ℕ × E) → List (ℕ × E)
  | 0, l => l
  | i + 1, l =>
    match l[i]?, l[i + 1]? with
    | some a, some b => if a.1 < b.1 then bubble i ((l.set i b).set (i + 1) a) else l
    | _, _ => l

/-- What comes in is counted at the entry of its kind, or gets one. -/
def record [DecidableEq K] (key : E → K) (next : ℕ → ℕ) (l : List (ℕ × E)) (e : E) :
    List (ℕ × E) :=
  match l.findIdx? (fun p => key e = key p.2) with
  | some pos => bubble pos (l.modify pos (fun p => (next p.1, p.2)))
  | none => l ++ [(1, e)]

def Sorted (l : List (ℕ × E)) : Prop := l.Pairwise (fun a b => b.1 ≤ a.1)

/-- One step of an entry past the one before it. -/
theorem bubble_append (pre post : List (ℕ × E)) (a x : ℕ × E) :
    bubble (pre.length + 1) (pre ++ a :: x :: post)
      = if a.1 < x.1 then bubble pre.length (pre ++ x :: a :: post)
        else pre ++ a :: x :: post := by
  have hfirst : (pre ++ a :: x :: post)[pre.length]? = some a := by
    rw [List.getElem?_append_right (Nat.le_refl _), Nat.sub_self]
    rfl
  have hsecond : (pre ++ a :: x :: post)[pre.length + 1]? = some x := by
    rw [List.getElem?_append_right (Nat.le_add_right _ 1), Nat.add_sub_cancel_left]
    rfl
  have hset : ((pre ++ a :: x :: post).set pre.length x).set (pre.length + 1) a
      = pre ++ x :: a :: post := by
    rw [List.set_append_right _ _ (Nat.le_refl _), Nat.sub_self, List.set_cons_zero,
      List.set_append_right _ _ (Nat.le_add_right _ 1), Nat.add_sub_cancel_left]
    rfl
  rw [bubble, hfirst, hsecond]
  simp only
  rw [hset]

/-- An entry moves forward among sorted ones: the list is sorted then, with the same entries. -/
theorem bubble_spec (pre post : List (ℕ × E)) (x : ℕ × E) (hsorted : Sorted (pre ++ post))
    (hx : ∀ b ∈ post, b.1 ≤ x.1) :
    Sorted (bubble pre.length (pre ++ x :: post)) ∧
      (bubble pre.length (pre ++ x :: post)).Perm (pre ++ x :: post) := by
  induction pre using List.reverseRecOn generalizing post with
  | nil => exact ⟨List.pairwise_cons.mpr ⟨hx, hsorted⟩, List.Perm.refl _⟩
  | append_singleton pre a ih =>
    rw [List.append_assoc, List.singleton_append] at hsorted
    rw [List.length_append, List.length_singleton, List.append_assoc, List.singleton_append,
      bubble_append]
    split
    · rename_i hlt
      have hpost : ∀ b ∈ a :: post, b.1 ≤ x.1 := by
        intro b hb
        rcases List.mem_cons.mp hb with rfl | hb
        · exact Nat.le_of_lt hlt
        · exact hx b hb
      obtain ⟨hbubble, hperm⟩ := ih (a :: post) hsorted hpost
      exact ⟨hbubble, hperm.trans (List.Perm.append_left pre (List.Perm.swap a x post))⟩
    · rename_i hle
      refine ⟨?_, List.Perm.refl _⟩
      -- the entry stays behind the one before it
      have hparts := List.pairwise_append.mp hsorted
      have hbehind := List.pairwise_cons.mp hparts.2.1
      refine List.pairwise_append.mpr ⟨hparts.1, ?_, ?_⟩
      · refine List.pairwise_cons.mpr ⟨?_, List.pairwise_cons.mpr ⟨hx, hbehind.2⟩⟩
        intro b hb
        rcases List.mem_cons.mp hb with rfl | hb
        · exact Nat.not_lt.mp hle
        · exact hbehind.1 b hb
      · intro p hp b hb
        rcases List.mem_cons.mp hb with rfl | hb
        · exact hparts.2.2 p hp b List.mem_cons_self
        · rcases List.mem_cons.mp hb with rfl | hb
          · exact Nat.le_trans (Nat.not_lt.mp hle) (hparts.2.2 p hp a List.mem_cons_self)
          · exact hparts.2.2 p hp b (List.mem_cons_of_mem a hb)

theorem nodup_append_new {key : E → K} {l : List (ℕ × E)} {e : E}
    (hnodup : (l.map (fun p => key p.2)).Nodup)
    (hnew : ∀ p ∈ l, key e ≠ key p.2) :
    ((l ++ [(1, e)]).map (fun p : ℕ × E => key p.2)).Nodup := by
  rw [List.map_append, List.nodup_append]
  refine ⟨hnodup, List.nodup_singleton _, ?_⟩
  intro k hk k' hk'
  obtain ⟨q, hq, rfl⟩ := List.mem_map.mp hk
  obtain rfl := List.mem_singleton.mp hk'
  exact (hnew q hq).symm

variable [DecidableEq K] {key : E → K} {next : ℕ → ℕ}

/-- The first entry of the kind, with what lies before and behind it. -/
theorem record_cases (key : E → K) (next : ℕ → ℕ) (l : List (ℕ × E)) (e : E) :
    ((∀ p ∈ l, key e ≠ key p.2) ∧ record key next l e = l ++ [(1, e)]) ∨
    ∃ pre p post, l = pre ++ p :: post ∧ key e = key p.2 ∧
      record key next l e = bubble pre.length (pre ++ (next p.1, p.2) :: post) := by
  cases hfind : l.findIdx? (fun p => decide (key e = key p.2)) with
  | none =>
    left
    refine ⟨?_, ?_⟩
    · intro p hp
      have hno := List.findIdx?_eq_none_iff.mp hfind p hp
      exact of_decide_eq_false hno
    · rw [record, hfind]
  | some pos =>
    right
    obtain ⟨hlt, hpos, -⟩ := List.findIdx?_eq_some_iff_getElem.mp hfind
    have hsplit : l = l.take pos ++ l[pos] :: l.drop (pos + 1) := by
      rw [← List.drop_eq_getElem_cons hlt, List.take_append_drop]
    have hlen : (l.take pos).length = pos := List.length_take_of_le (Nat.le_of_lt hlt)
    refine ⟨l.take pos, l[pos], l.drop (pos + 1), hsplit, of_decide_eq_true hpos, ?_⟩
    rw [record, hfind, hlen]
    simp only
    rw [List.modify_eq_take_cons_drop hlt]

/-- The list counts what has come in. -/
structure Counts (key : E → K) (l : List (ℕ × E)) (es : List E) : Prop where
  sorted : Sorted l
  nodup : (l.map (fun p => key p.2)).Nodup
  count : ∀ p ∈ l, p.1 = es.countP (fun e => key e = key p.2)
  mem : ∀ p ∈ l, p.2 ∈ es
  all : ∀ e ∈ es, ∃ p ∈ l, key p.2 = key e

theorem counts_nil (key : E → K) : Counts key [] [] where
  sorted := List.Pairwise.nil
  nodup := List.nodup_nil
  count := fun _ hp => absurd hp List.not_mem_nil
  mem := fun _ hp => absurd hp List.not_mem_nil
  all := fun _ he => absurd he List.not_mem_nil

theorem countP_concat (key : E → K) (es : List E) (e : E) (k : K) :
    (es ++ [e]).countP (fun e' => key e' = k)
      = es.countP (fun e' => key e' = k) + if key e = k then 1 else 0 := by
  rw [List.countP_append, List.countP_singleton]
  simp only [decide_eq_true_eq]

section NewKind

variable {l : List (ℕ × E)} {es : List E} {e : E}

theorem Counts.pos (h : Counts key l es) {p : ℕ × E} (hp : p ∈ l) : 0 < p.1 := by
  rw [h.count p hp]
  exact List.countP_pos_iff.mpr ⟨p.2, h.mem p hp, decide_eq_true rfl⟩

theorem Counts.countP_eq_zero (h : Counts key l es) (hnew : ∀ p ∈ l, key e ≠ key p.2) :
    es.countP (fun e' => key e' = key e) = 0 := by
  rw [List.countP_eq_zero]
  intro e' he' hsame
  obtain ⟨p, hp, hkey⟩ := h.all e' he'
  exact hnew p hp ((of_decide_eq_true hsame).symm.trans hkey.symm)

/-- What is of a new kind gets an entry behind the others. -/
theorem Counts.append_new (h : Counts key l es) (hnew : ∀ p ∈ l, key e ≠ key p.2) :
    Counts key (l ++ [(1, e)]) (es ++ [e]) where
  sorted := by
    refine List.pairwise_append.mpr ⟨h.sorted, List.pairwise_singleton _ _, ?_⟩
    intro q hq b hb
    obtain rfl := List.mem_singleton.mp hb
    exact h.pos hq
  nodup := nodup_append_new h.nodup hnew
  count := by
    intro q hq
    rw [countP_concat]
    rcases List.mem_append.mp hq with hq | hq
    · rw [if_neg (hnew q hq), Nat.add_zero]
      exact h.count q hq
    · obtain rfl := List.mem_singleton.mp hq
      rw [h.countP_eq_zero hnew, if_pos rfl]
  mem := by
    intro q hq
    rcases List.mem_append.mp hq with hq | hq
    · exact List.mem_append_left _ (h.mem q hq)
    · obtain rfl := List.mem_singleton.mp hq
      exact List.mem_append_right _ (List.mem_singleton_self e)
  all := by
    intro e' he'
    rcases List.mem_append.mp he' with he' | he'
    · obtain ⟨q, hq, hkey⟩ := h.all e' he'
      exact ⟨q, List.mem_append_left _ hq, hkey⟩
    · obtain rfl := List.mem_singleton.mp he'
      exact ⟨(1, e'), List.mem_append_right _ (List.mem_singleton_self _), rfl⟩

end NewKind

section OldKind

variable {pre post : List (ℕ × E)} {p : ℕ × E} {es : List E} {e : E}

theorem mem_around (p : ℕ × E) {q : ℕ × E} (hq : q ∈ pre ++ post) : q ∈ pre ++ p :: post :=
  (List.Sublist.append_left (List.sublist_cons_self p post) pre).mem hq

/-- What is counted again changes the count of its entry only. -/
theorem map_snd_around (n : ℕ) :
    (pre ++ (n, p.2) :: post).map Prod.snd = (pre ++ p :: post).map Prod.snd := by
  rw [List.map_append, List.map_append, List.map_cons, List.map_cons]

theorem exists_of_map_snd {l l' : List (ℕ × E)} (h : l.map Prod.snd = l'.map Prod.snd)
    {q : ℕ × E} (hq : q ∈ l) : ∃ q' ∈ l', q'.2 = q.2 := by
  have hmem : q.2 ∈ l.map Prod.snd := List.mem_map_of_mem hq
  rw [h] at hmem
  exact List.mem_map.mp hmem

theorem sorted_around (h : Sorted (pre ++ p :: post)) : Sorted (pre ++ post) :=
  List.Pairwise.sublist (List.Sublist.append_left (List.sublist_cons_self p post) pre) h

/-- The other entries are of other kinds. -/
theorem Counts.key_ne (h : Counts key (pre ++ p :: post) es) {q : ℕ × E} (hq : q ∈ pre ++ post) :
    key p.2 ≠ key q.2 := by
  have hnodup := h.nodup
  rw [List.map_append, List.map_cons, List.nodup_middle, List.nodup_cons,
    ← List.map_append] at hnodup
  intro hsame
  apply hnodup.1
  rw [hsame]
  exact List.mem_map_of_mem hq

/-- The counts are right once the entry of what came in is counted up. -/
theorem Counts.count_up (h : Counts key (pre ++ p :: post) es) (hkey : key e = key p.2)
    {q : ℕ × E} (hq : q ∈ pre ++ (p.1 + 1, p.2) :: post) :
    q.1 = (es ++ [e]).countP (fun e' => key e' = key q.2) := by
  rw [countP_concat]
  have hp : p ∈ pre ++ p :: post := List.mem_append_right pre List.mem_cons_self
  rcases List.mem_cons.mp (List.perm_middle.mem_iff.mp hq) with rfl | hother
  · simp only
    rw [if_pos hkey, h.count p hp]
  · rw [if_neg (hkey ▸ h.key_ne hother), Nat.add_zero]
    exact h.count q (mem_around p hother)

/-- What is of a kind that has an entry is counted there, however the entries are sorted. -/
theorem Counts.recount (h : Counts key (pre ++ p :: post) es) (hkey : key e = key p.2)
    {l : List (ℕ × E)} (hsorted : Sorted l) (hperm : l.Perm (pre ++ (p.1 + 1, p.2) :: post)) :
    Counts key l (es ++ [e]) where
  sorted := hsorted
  nodup := by
    have hkinds : (pre ++ (p.1 + 1, p.2) :: post).map Prod.snd = (pre ++ p :: post).map Prod.snd :=
      map_snd_around (p.1 + 1)
    have hkeys := congrArg (List.map key) hkinds
    rw [List.map_map, List.map_map] at hkeys
    rw [(hperm.map _).nodup_iff]
    exact hkeys ▸ h.nodup
  count := fun _ hq => h.count_up hkey (hperm.mem_iff.mp hq)
  mem := by
    intro q hq
    obtain ⟨q', hq', hsame⟩ := exists_of_map_snd (map_snd_around _) (hperm.mem_iff.mp hq)
    exact List.mem_append_left _ (hsame ▸ h.mem q' hq')
  all := by
    have hentry : ∀ q ∈ pre ++ p :: post, ∃ q' ∈ l, key q'.2 = key q.2 := by
      intro q hq
      obtain ⟨q', hq', hsame⟩ := exists_of_map_snd (map_snd_around (p.1 + 1)).symm hq
      exact ⟨q', hperm.mem_iff.mpr hq', congrArg key hsame⟩
    intro e' he'
    rcases List.mem_append.mp he' with he' | he'
    · obtain ⟨q, hq, hsame⟩ := h.all e' he'
      obtain ⟨q', hq', hsame'⟩ := hentry q hq
      exact ⟨q', hq', hsame'.trans hsame⟩
    · obtain rfl := List.mem_singleton.mp he'
      obtain ⟨q', hq', hsame'⟩ := hentry p (List.mem_append_right pre List.mem_cons_self)
      exact ⟨q', hq', hsame'.trans hkey.symm⟩

end OldKind

theorem Counts.record {l : List (ℕ × E)} {es : List E} (h : Counts key l es) (e : E)
    (hnext : ∀ n ≤ es.length, next n = n + 1) :
    Counts key (record key next l e) (es ++ [e]) := by
  rcases record_cases key next l e with ⟨hnew, heq⟩ | ⟨pre, p, post, rfl, hkey, heq⟩
  · rw [heq]
    exact h.append_new hnew
  · have hp : p ∈ pre ++ p :: post := List.mem_append_right pre List.mem_cons_self
    have hbound : p.1 ≤ es.length := by
      rw [h.count p hp]
      exact List.countP_le_length
    have hbehind : ∀ b ∈ post, b.1 ≤ p.1 + 1 := by
      intro b hb
      have hparts := List.pairwise_append.mp h.sorted
      exact Nat.le_succ_of_le ((List.pairwise_cons.mp hparts.2.1).1 b hb)
    obtain ⟨hsorted, hperm⟩ := bubble_spec pre post (p.1 + 1, p.2) (sorted_around h.sorted) hbehind
    rw [heq, hnext p.1 hbound]
    exact h.recount hkey hsorted hperm

/-- As long as the counter does not run out, the list counts. -/
theorem counts_foldl (limit : ℕ) (hnext : ∀ n < limit, next n = n + 1) (es : List E)
    (hlen : es.length ≤ limit) : Counts key (es.foldl (record key next) []) es := by
  induction es using List.reverseRecOn with
  | nil => exact counts_nil key
  | append_singleton es e ih =>
    rw [List.length_append, List.length_singleton] at hlen
    rw [List.foldl_append]
    exact (ih (Nat.le_of_succ_le hlen)).record e (fun n hn => hnext n (by omega))

/-- The first entry has the largest count. -/
theorem Counts.head_max {p : ℕ × E} {l : List (ℕ × E)} {es : List E}
    (h : Counts key (p :: l) es) (k : K) : es.countP (fun e => key e = k) ≤ p.1 := by
  by_cases hk : ∃ e ∈ es, key e = k
  · obtain ⟨e, he, rfl⟩ := hk
    obtain ⟨q, hq, hkey⟩ := h.all e he
    have hcount := h.count q hq
    rw [hkey] at hcount
    rw [← hcount]
    rcases List.mem_cons.mp hq with rfl | hq
    · exact Nat.le_refl _
    · exact (List.pairwise_cons.mp h.sorted).1 q hq
  · have hzero : es.countP (fun e => key e = k) = 0 := by
      rw [List.countP_eq_zero]
      intro e he hsame
      exact hk ⟨e, he, of_decide_eq_true hsame⟩
    rw [hzero]
    exact Nat.zero_le _

end Tally
