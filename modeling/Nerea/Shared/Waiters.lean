import Mathlib.Data.List.AList

/-!
# Those who wait

Callers wait under the key of what they wait for, in the order they came. They are told what
happens to it, and all of them leave when it is over. Nobody comes in twice or gets lost.
-/

set_option autoImplicit false

universe u v w

abbrev Waiters (K : Type u) (V : Type v) := AList (fun _ : K => List V)

namespace Waiters

variable {K : Type u} {V : Type v} [DecidableEq K] {W : Type w}

def join (ws : Waiters K V) (k : K) (v : V) : Waiters K V :=
  ws.insert k ((ws.lookup k).getD [] ++ [v])

def tell (ws : Waiters K V) (k : K) (f : V → V) : Waiters K V :=
  match ws.lookup k with
  | some vs => ws.insert k (vs.map f)
  | none => ws

/-- It is over for those of the key. -/
def leave (ws : Waiters K V) (k : K) : Waiters K V := ws.erase k

/-- All that wait, for whatever it may be. -/
def all (ws : Waiters K V) : List V := ws.entries.flatMap Sigma.snd

/-- Each one that waits has the property, with what it waits for. -/
def Each (P : K → V → Prop) (ws : Waiters K V) : Prop :=
  ∀ k vs, ws.lookup k = some vs → ∀ v ∈ vs, P k v

variable {ws : Waiters K V} {k k' : K} {v : V} {f : V → V} {P : K → V → Prop}

theorem lookup_join (ws : Waiters K V) (k : K) (v : V) :
    (ws.join k v).lookup k = some ((ws.lookup k).getD [] ++ [v]) := AList.lookup_insert ws

theorem lookup_join_ne (h : k' ≠ k) : (ws.join k v).lookup k' = ws.lookup k' :=
  AList.lookup_insert_ne h

theorem mem_join : k' ∈ ws.join k v ↔ k' = k ∨ k' ∈ ws := AList.mem_insert ws

theorem lookup_tell (ws : Waiters K V) (k : K) (f : V → V) :
    (ws.tell k f).lookup k = (ws.lookup k).map (List.map f) := by
  unfold tell
  cases h : ws.lookup k with
  | none => exact h
  | some vs => exact AList.lookup_insert ws

theorem lookup_tell_ne (h : k' ≠ k) : (ws.tell k f).lookup k' = ws.lookup k' := by
  unfold tell
  split
  · exact AList.lookup_insert_ne h
  · rfl

theorem lookup_leave (ws : Waiters K V) (k : K) : (ws.leave k).lookup k = none :=
  AList.lookup_erase k ws

theorem lookup_leave_ne (h : k' ≠ k) : (ws.leave k).lookup k' = ws.lookup k' :=
  AList.lookup_erase_ne h

theorem leave_of_lookup (h : ws.lookup k = none) : ws.leave k = ws :=
  AList.ext (List.kerase_of_notMem_keys (AList.lookup_eq_none.mp h))

theorem lookup_leaveAll (ks : List K) (ws : Waiters K V) :
    (ks.foldl leave ws).lookup k = if k ∈ ks then none else ws.lookup k := by
  induction ks generalizing ws with
  | nil => rfl
  | cons k' ks ih =>
    rw [List.foldl_cons, ih]
    by_cases hk : k = k'
    · rw [hk, lookup_leave, ite_self, if_pos List.mem_cons_self]
    · have hmem : k ∈ k' :: ks ↔ k ∈ ks := by
        rw [List.mem_cons, or_iff_right hk]
      rw [lookup_leave_ne hk, if_congr hmem rfl rfl]

/-- Those that wait are the ones of a key and the ones of the other keys. -/
theorem all_perm (ws : Waiters K V) (k : K) :
    ws.all.Perm ((ws.lookup k).getD [] ++ (ws.leave k).all) := by
  by_cases hk : k ∈ ws
  · obtain ⟨vs, before, behind, hnot, hentries, herase⟩ := List.exists_of_kerase hk
    have hmem : (⟨k, vs⟩ : Sigma fun _ : K => List V) ∈ ws.entries :=
      hentries ▸ List.mem_append_right before List.mem_cons_self
    have hfound : ws.lookup k = some vs := AList.mem_lookup_iff.mpr hmem
    have hrest : (ws.leave k).all = (before ++ behind).flatMap Sigma.snd :=
      congrArg (fun es => es.flatMap Sigma.snd) herase
    rw [hfound, hrest, all, hentries, List.flatMap_append, List.flatMap_cons, List.flatMap_append,
      Option.getD_some]
    exact List.perm_append_comm_assoc _ _ _
  · have hkept : (ws.leave k).entries = ws.entries := List.kerase_of_notMem_keys hk
    rw [AList.lookup_eq_none.mpr hk, Option.getD_none, List.nil_append, all, all, hkept]

theorem all_insert (ws : Waiters K V) (k : K) (vs : List V) :
    all (ws.insert k vs) = vs ++ (ws.leave k).all := by
  rw [all, AList.entries_insert, List.flatMap_cons]
  rfl

theorem all_join (ws : Waiters K V) (k : K) (v : V) : (ws.join k v).all.Perm (ws.all ++ [v]) := by
  rw [join, all_insert]
  have hmove : ((ws.lookup k).getD [] ++ [v] ++ (ws.leave k).all).Perm
      ((ws.lookup k).getD [] ++ (ws.leave k).all ++ [v]) := by
    rw [List.append_assoc, List.append_assoc]
    exact List.Perm.append_left _ List.perm_append_comm
  exact hmove.trans ((ws.all_perm k).symm.append_right [v])

/-- What one is told does not change who it is. -/
theorem all_tell {g : V → W} (h : ∀ v, g (f v) = g v) (ws : Waiters K V) (k : K) :
    ((ws.tell k f).all.map g).Perm (ws.all.map g) := by
  unfold tell
  cases hfound : ws.lookup k with
  | none => exact List.Perm.refl _
  | some vs =>
    have hsame : (vs.map f).map g = vs.map g := by
      rw [List.map_map]
      exact List.map_congr_left (fun v _ => h v)
    have hall := ((ws.all_perm k).map g).symm
    rw [hfound, Option.getD_some, List.map_append] at hall
    rw [all_insert, List.map_append, hsame]
    exact hall

theorem each_empty (P : K → V → Prop) : Each P (∅ : Waiters K V) := by
  intro k vs h
  cases h

theorem Each.mem_all (h : Each P ws) (hv : v ∈ ws.all) : ∃ k, P k v := by
  obtain ⟨⟨k, vs⟩, hentry, hmem⟩ := List.mem_flatMap.mp hv
  exact ⟨k, h k vs (AList.mem_lookup_iff.mpr hentry) v hmem⟩

theorem Each.join (h : Each P ws) (hv : P k v) : Each P (ws.join k v) := by
  intro k' vs hfound v' hv'
  by_cases hk : k' = k
  · subst hk
    rw [lookup_join] at hfound
    obtain rfl := Option.some.inj hfound
    rcases List.mem_append.mp hv' with hold | hnew
    · cases hbefore : ws.lookup k' with
      | none =>
        rw [hbefore] at hold
        exact absurd hold List.not_mem_nil
      | some vs =>
        rw [hbefore] at hold
        exact h k' vs hbefore v' hold
    · exact List.mem_singleton.mp hnew ▸ hv
  · rw [lookup_join_ne hk] at hfound
    exact h k' vs hfound v' hv'

theorem Each.leave (h : Each P ws) (k : K) : Each P (ws.leave k) := by
  intro k' vs hfound
  by_cases hk : k' = k
  · rw [hk, lookup_leave] at hfound
    cases hfound
  · rw [lookup_leave_ne hk] at hfound
    exact h k' vs hfound

end Waiters
