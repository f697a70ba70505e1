import Nerea.Agents.DeadMarks

/-!
# Reviving the keys of a provider

The marks to be removed are given by a lazy view of the set they are removed from, so the
step after the first removal throws. The keys are revived exactly when there is nothing to
remove.
-/

set_option autoImplicit false

namespace Nerea.Agents.KeyVault

variable {v : KeyVault} {p : String}

def startsWith (p k : String) : Bool := (p ++ ":").toList.isPrefixOf k.toList

/-- `set.removeAll(set.where(sel))` with the elements already seen and those still to see: what is
left of the set, and whether it returned. -/
def removeAllWhere (sel : String → Bool) : List String → List String → List String × Bool
  | seen, [] => (seen, true)
  | seen, k :: rest =>
    -- the set has changed when the iterator of the view moves on
    if sel k then (seen ++ rest, false) else removeAllWhere sel (seen ++ [k]) rest

theorem removeAllWhere_eq (sel : String → Bool) (seen rest : List String) :
    removeAllWhere sel seen rest =
      match rest.find? sel with
      | none => (seen ++ rest, true)
      | some k => (seen ++ rest.erase k, false) := by
  induction rest generalizing seen with
  | nil => rw [removeAllWhere, List.find?_nil, List.append_nil]
  | cons k rest ih =>
    unfold removeAllWhere
    cases hsel : sel k with
    | true =>
      rw [List.find?_cons_of_pos hsel, if_pos rfl]
      dsimp only
      rw [List.erase_cons_head]
    | false =>
      have hneg : ¬ sel k = true := by rw [hsel]; exact Bool.false_ne_true
      rw [List.find?_cons_of_neg hneg, if_neg Bool.false_ne_true, ih]
      cases hfind : rest.find? sel with
      | none => rw [List.append_assoc, List.singleton_append]
      | some k' =>
        dsimp only
        have hne : k ≠ k' := by
          rintro rfl
          exact hneg (List.find?_some hfind)
        rw [List.erase_cons_tail (by simpa using hne), List.append_assoc, List.singleton_append]

theorem reviveKeys_eq (v : KeyVault) (p : String) : v.reviveKeys p =
    ({ v with deadKeys := (removeAllWhere (startsWith p) [] v.deadKeys).1 },
      (removeAllWhere (startsWith p) [] v.deadKeys).2) := by
  unfold reviveKeys
  rw [removeAllWhere_eq]
  change (match v.deadKeys.find? (startsWith p) with | none => _ | some k => _) = _
  cases v.deadKeys.find? (startsWith p) with
  | none => rfl
  | some k => rfl

theorem startsWith_mark (p : String) (idx : ℕ) : startsWith p (mark p idx) = true := by
  unfold startsWith
  rw [toList_mark, String.toList_append, List.isPrefixOf_iff_prefix]
  exact ⟨idx.repr.toList, by rw [List.append_assoc]; rfl⟩

/-- The call returns, every stored key of the provider can be had again, and the marks of the
others are as they were. -/
structure Revivido (v : KeyVault) (p : String) : Prop where
  vuelve : (v.reviveKeys p).2 = true
  vivas : ∀ idx < (v.keys p).length, mark p idx ∉ (v.reviveKeys p).1.deadKeys
  elegible : v.keys p ≠ [] → (v.reviveKeys p).1.nextKey p ≠ none
  otras : ∀ q, q ≠ p → ∀ idx,
    mark q idx ∈ (v.reviveKeys p).1.deadKeys ↔ mark q idx ∈ v.deadKeys

theorem reviveKeys_of_none (h : ∀ k ∈ v.deadKeys, startsWith p k = false) :
    v.reviveKeys p = (v, true) := by
  have hnone : v.deadKeys.find? (startsWith p) = none := by
    rw [List.find?_eq_none]
    intro k hk
    rw [h k hk]
    exact Bool.false_ne_true
  rw [reviveKeys_eq, removeAllWhere_eq, hnone]
  rfl

/-- For every provider and every set of marks. -/
theorem revivido_iff (v : KeyVault) (p : String) :
    Revivido v p ↔ ∀ k ∈ v.deadKeys, startsWith p k = false := by
  constructor
  · intro h k hk
    rw [← Bool.not_eq_true]
    intro hsel
    have hvuelve := h.vuelve
    obtain ⟨k', hk'⟩ := Option.isSome_iff_exists.mp (List.find?_isSome.mpr ⟨k, hk, hsel⟩)
    rw [reviveKeys_eq, removeAllWhere_eq, hk'] at hvuelve
    cases hvuelve
  · intro h
    have hsame := reviveKeys_of_none h
    have hlive : ∀ idx, mark p idx ∉ v.deadKeys := by
      intro idx hmem
      have hsel := startsWith_mark p idx
      rw [h _ hmem] at hsel
      cases hsel
    refine ⟨by rw [hsame], ?_, ?_, ?_⟩
    · intro idx _
      rw [hsame]
      exact hlive idx
    · intro hkeys hnone
      rw [hsame] at hnone
      exact hlive 0 (nextKey_eq_none.mp hnone 0 (List.length_pos_of_ne_nil hkeys))
    · intro q _ idx
      rw [hsame]

/-- One dead key is enough. -/
theorem reviveKeys_throws : ¬ ∀ (v : KeyVault) (p : String), Revivido v p := by
  intro h
  have hvuelve := (h ⟨fun _ => ["k"], fun _ => none, ["grok:0"]⟩ "grok").vuelve
  exact absurd hvuelve (by decide)

end Nerea.Agents.KeyVault
