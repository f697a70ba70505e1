import Mathlib.Data.Finset.Card
import Mathlib.Data.Finset.Dedup
import Mathlib.Data.List.Nodup

/-!
# Caches that drop what was used least recently

The entries lie in the order of their last use, the latest in front. Reading an entry brings
it to the front, writing one drops the last entry of a full cache. So an entry stays as long
as fewer other keys than the cache has places are used after it.
-/

set_option autoImplicit false

namespace Lru

universe u v

structure Cache (K : Type u) (V : Type v) where
  capacity : ℕ
  entries : List (K × V)
  pos : 0 < capacity
  length_le : entries.length ≤ capacity
  nodup : (entries.map Prod.fst).Nodup

variable {K : Type u} {V : Type v}

def empty (capacity : ℕ) (pos : 0 < capacity) : Cache K V :=
  ⟨capacity, [], pos, Nat.zero_le _, List.nodup_nil⟩

variable [DecidableEq K]

/-- The entries of the other keys. -/
def without (k : K) (es : List (K × V)) : List (K × V) := es.filter (fun e => e.1 ≠ k)

theorem mem_without {k : K} {es : List (K × V)} {e : K × V} :
    e ∈ without k es ↔ e ∈ es ∧ e.1 ≠ k := by
  rw [without, List.mem_filter, decide_eq_true_iff]

theorem nodup_cons_without {k : K} {v : V} {es es' : List (K × V)}
    (hes : (es.map Prod.fst).Nodup) (hsub : es'.Sublist (without k es)) :
    (((k, v) :: es').map Prod.fst).Nodup := by
  rw [List.map_cons, List.nodup_cons]
  refine ⟨?_, hes.sublist ((hsub.trans List.filter_sublist).map Prod.fst)⟩
  intro hk
  obtain ⟨e, he, hek⟩ := List.mem_map.mp hk
  exact (mem_without.mp (hsub.subset he)).2 hek

theorem without_eq_self {k : K} {es : List (K × V)} (h : ∀ e ∈ es, e.1 ≠ k) :
    without k es = es :=
  List.filter_eq_self.mpr (fun e he => decide_eq_true (h e he))

/-- The entry of a key comes with the entries of the other keys. -/
theorem perm_cons_without {k : K} {v : V} {es : List (K × V)} (hes : (es.map Prod.fst).Nodup)
    (h : (k, v) ∈ es) : es.Perm ((k, v) :: without k es) := by
  induction es with
  | nil => exact absurd h List.not_mem_nil
  | cons e es ih =>
    obtain ⟨hnot, hrest⟩ := List.nodup_cons.mp hes
    rcases List.mem_cons.mp h with rfl | hmem
    · have hothers : ∀ e ∈ es, e.1 ≠ k := by
        intro e he hk
        exact hnot (List.mem_map.mpr ⟨e, he, hk⟩)
      have hcons : without k ((k, v) :: es) = without k es :=
        List.filter_cons_of_neg (by simp)
      rw [hcons, without_eq_self hothers]
    · have hne : e.1 ≠ k := by
        intro hk
        exact hnot (List.mem_map.mpr ⟨(k, v), hmem, hk.symm⟩)
      have hcons : without k (e :: es) = e :: without k es :=
        List.filter_cons_of_pos (decide_eq_true hne)
      rw [hcons]
      exact ((ih hrest hmem).cons e).trans (List.Perm.swap (k, v) e _)

namespace Cache

variable (c : Cache K V)

/-- What is stored under the key; the order of the entries stays. -/
def peek (k : K) : Option V := (c.entries.find? (fun e => e.1 = k)).map Prod.snd

theorem length_without_lt {k : K} {v : V} (h : (k, v) ∈ c.entries) :
    (without k c.entries).length < c.entries.length := by
  apply List.length_filter_lt_length_iff_exists.mpr
  exact ⟨(k, v), h, by simp⟩

theorem mem_of_find {k : K} {e : K × V} (h : c.entries.find? (fun e => e.1 = k) = some e) :
    e ∈ c.entries ∧ e.1 = k := by
  refine ⟨List.mem_of_find?_eq_some h, ?_⟩
  have hk := List.find?_some h
  exact of_decide_eq_true hk

/-- `get` and `get_mut`: the entry comes to the front. -/
def touch (k : K) : Cache K V :=
  match h : c.entries.find? (fun e => e.1 = k) with
  | some e =>
    { c with
      entries := (k, e.2) :: without k c.entries
      length_le := by
        obtain ⟨he, hk⟩ := c.mem_of_find h
        have hlt := c.length_without_lt (k := k) (v := e.2) (hk ▸ he)
        exact Nat.le_trans hlt c.length_le
      nodup := nodup_cons_without c.nodup (List.Sublist.refl _) }
  | none => c

/-- The entry comes to the front, and the last one goes when there is no place for it. -/
def put (k : K) (v : V) : Cache K V :=
  { c with
    entries := (k, v) :: (without k c.entries).take (c.capacity - 1)
    length_le := by
      have hpos := c.pos
      rw [List.length_cons, List.length_take]
      omega
    nodup := nodup_cons_without c.nodup (List.take_sublist _ _) }

/-- Without the entry that was used least recently. -/
def popLru : Cache K V :=
  { c with
    entries := c.entries.dropLast
    length_le := Nat.le_trans (List.dropLast_sublist _).length_le c.length_le
    nodup := c.nodup.sublist ((List.dropLast_sublist _).map Prod.fst) }

variable {c} {k k' : K} {v v' : V}

theorem entries_put (c : Cache K V) (k : K) (v : V) :
    (c.put k v).entries = (k, v) :: (without k c.entries).take (c.capacity - 1) := rfl

/-- A cache with a place left loses no other key. -/
theorem entries_put_of_lt (k : K) (v : V) (h : c.entries.length < c.capacity) :
    (c.put k v).entries = (k, v) :: without k c.entries := by
  have hle : (without k c.entries).length ≤ c.entries.length := List.length_filter_le _ _
  rw [entries_put, List.take_of_length_le (by omega)]

omit [DecidableEq K] in
theorem entries_popLru (c : Cache K V) : c.popLru.entries = c.entries.dropLast := rfl

theorem entries_touch_of_find {e : K × V}
    (h : c.entries.find? (fun e => e.1 = k) = some e) :
    (c.touch k).entries = (k, e.2) :: without k c.entries := by
  unfold touch
  split
  · rename_i e' he'
    rw [h] at he'
    obtain rfl := Option.some.inj he'
    rfl
  · rename_i hnone
    rw [h] at hnone
    cases hnone

theorem touch_of_find_none (h : c.entries.find? (fun e => e.1 = k) = none) : c.touch k = c := by
  unfold touch
  split
  · rename_i e he
    rw [h] at he
    cases he
  · rfl

/-- A key has one entry. -/
theorem peek_eq_some : c.peek k = some v ↔ (k, v) ∈ c.entries := by
  unfold peek
  constructor
  · intro h
    obtain ⟨e, he, rfl⟩ := Option.map_eq_some_iff.mp h
    obtain ⟨hmem, rfl⟩ := c.mem_of_find he
    exact hmem
  · intro h
    cases hfind : c.entries.find? (fun e => e.1 = k) with
    | none =>
      have hno := List.find?_eq_none.mp hfind (k, v) h
      exact absurd (decide_eq_true rfl) hno
    | some e =>
      obtain ⟨hmem, hk⟩ := c.mem_of_find hfind
      have hsame := List.inj_on_of_nodup_map c.nodup hmem h hk
      rw [Option.map_some, hsame]

theorem mem_put {e : K × V} (h : e ∈ (c.put k v).entries) :
    e = (k, v) ∨ (e ∈ c.entries ∧ e.1 ≠ k) := by
  rcases List.mem_cons.mp h with h | h
  · exact Or.inl h
  · exact Or.inr (mem_without.mp (List.mem_of_mem_take h))

theorem peek_put_self (c : Cache K V) (k : K) (v : V) : (c.put k v).peek k = some v :=
  peek_eq_some.mpr List.mem_cons_self

/-- What is under another key after a `put` was there before. -/
theorem peek_of_peek_put (hne : k' ≠ k) (h : (c.put k v).peek k' = some v') :
    c.peek k' = some v' := by
  rw [peek_eq_some] at h ⊢
  rcases mem_put h with h | h
  · exact absurd (congrArg Prod.fst h) hne
  · exact h.1

/-- Reading changes nothing but the order. -/
theorem perm_touch (c : Cache K V) (k : K) : (c.touch k).entries.Perm c.entries := by
  cases hfind : c.entries.find? (fun e => e.1 = k) with
  | none => rw [touch_of_find_none hfind]
  | some e =>
    obtain ⟨hmem, rfl⟩ := c.mem_of_find hfind
    rw [entries_touch_of_find hfind]
    exact (perm_cons_without c.nodup hmem).symm

theorem mem_touch {e : K × V} : e ∈ (c.touch k).entries ↔ e ∈ c.entries :=
  (perm_touch c k).mem_iff

theorem peek_touch (c : Cache K V) (k k' : K) : (c.touch k).peek k' = c.peek k' := by
  apply Option.ext
  intro v
  rw [peek_eq_some, peek_eq_some, mem_touch]

theorem peek_eq_none (h : c.peek k = none) : without k c.entries = c.entries := by
  apply without_eq_self
  rintro ⟨k', v'⟩ he rfl
  rw [peek_eq_some.mpr he] at h
  cases h

theorem capacity_touch (c : Cache K V) (k : K) : (c.touch k).capacity = c.capacity := by
  unfold touch
  split <;> rfl

/-- The entry of the key comes after entries of the keys in the set only. -/
def Within (c : Cache K V) (k : K) (v : V) (used : Finset K) : Prop :=
  ∃ front back, c.entries = front ++ (k, v) :: back ∧ ∀ e ∈ front, e.1 ∈ used

theorem Within.peek {used : Finset K} (h : c.Within k v used) : c.peek k = some v := by
  obtain ⟨front, back, heq, -⟩ := h
  rw [peek_eq_some, heq]
  exact List.mem_append_right front List.mem_cons_self

theorem within_put (c : Cache K V) (k : K) (v : V) (used : Finset K) :
    (c.put k v).Within k v used :=
  ⟨[], _, rfl, fun _ he => absurd he List.not_mem_nil⟩

/-- Entries of different keys from a set are no more than the set has. -/
theorem length_le_card {front : List (K × V)} {used : Finset K}
    (hnodup : (front.map Prod.fst).Nodup) (hfront : ∀ e ∈ front, e.1 ∈ used) :
    front.length ≤ used.card := by
  have hsub : (front.map Prod.fst).toFinset ⊆ used := by
    intro key hkey
    obtain ⟨e, he, rfl⟩ := List.mem_map.mp (List.mem_toFinset.mp hkey)
    exact hfront e he
  have hcard := Finset.card_le_card hsub
  rw [List.toFinset_card_of_nodup hnodup, List.length_map] at hcard
  exact hcard

/-- The entry of another key passes in front of this one. -/
theorem Within.put {used : Finset K} (h : c.Within k v used) (hne : k' ≠ k) (hused : k' ∈ used)
    (hcard : used.card < c.capacity) (v' : V) : (c.put k' v').Within k v used := by
  obtain ⟨front, back, heq, hfront⟩ := h
  have hsplit : without k' c.entries = without k' front ++ (k, v) :: without k' back := by
    rw [heq, without, List.filter_append, List.filter_cons_of_pos]
    · rfl
    · exact decide_eq_true (Ne.symm hne)
  -- the other entries in front, and this one, are no more than the set has
  have hlen : (without k' front).length + 1 ≤ used.card := by
    have hnodup := c.nodup
    rw [heq, List.map_append] at hnodup
    have hkeys : (((k', v') :: without k' front).map Prod.fst).Nodup :=
      nodup_cons_without (List.nodup_append.mp hnodup).1 (List.Sublist.refl (without k' front))
    apply length_le_card hkeys
    intro e he
    rcases List.mem_cons.mp he with rfl | he
    · exact hused
    · exact hfront e (mem_without.mp he).1
  refine ⟨(k', v') :: without k' front,
    (without k' back).take (c.capacity - 1 - (without k' front).length - 1), ?_, ?_⟩
  · have htake : (without k' c.entries).take (c.capacity - 1) = without k' front ++
        (k, v) :: (without k' back).take (c.capacity - 1 - (without k' front).length - 1) := by
      obtain ⟨room, hroom⟩ : ∃ room, c.capacity - 1 = (without k' front).length + (room + 1) :=
        ⟨c.capacity - 1 - (without k' front).length - 1, by omega⟩
      have hrest :
          (without k' front).length + (room + 1) - (without k' front).length - 1 = room := by
        omega
      rw [hsplit, hroom, hrest, List.take_length_add_append, List.take_succ_cons]
    rw [entries_put, htake, List.cons_append]
  · intro e he
    rcases List.mem_cons.mp he with rfl | he
    · exact hused
    · exact hfront e (mem_without.mp he).1

theorem Within.touch {used : Finset K} (h : c.Within k v used) (hused : k' ≠ k → k' ∈ used) :
    (c.touch k').Within k v used := by
  obtain ⟨front, back, heq, hfront⟩ := h
  cases hfind : c.entries.find? (fun e => e.1 = k') with
  | none =>
    rw [touch_of_find_none hfind]
    exact ⟨front, back, heq, hfront⟩
  | some found =>
    obtain ⟨hmem, hk⟩ := c.mem_of_find hfind
    by_cases hne : k' = k
    · subst hne
      have hkv : (k', v) ∈ c.entries := by
        rw [heq]
        exact List.mem_append_right front List.mem_cons_self
      have hsame := List.inj_on_of_nodup_map c.nodup hmem hkv hk
      refine ⟨[], without k' c.entries, ?_, fun _ he => absurd he List.not_mem_nil⟩
      rw [entries_touch_of_find hfind, hsame]
      rfl
    · refine ⟨(k', found.2) :: without k' front, without k' back, ?_, ?_⟩
      · rw [entries_touch_of_find hfind, heq, without, List.filter_append,
          List.filter_cons_of_pos]
        · rfl
        · exact decide_eq_true (Ne.symm hne)
      · intro e he
        rcases List.mem_cons.mp he with rfl | he
        · exact hused hne
        · exact hfront e (mem_without.mp he).1

end Cache

end Lru
