import Mathlib.Data.List.Basic

/-!
# Lists rebuilt from their keys

An item may have a key, and `put` makes the bare item of a key. A list is made of the bare
items of some keys when it has no other items and these are its keys.
-/

set_option autoImplicit false

namespace Projection

universe u v
variable {α : Type u} {β : Type v} {key : β → Option α} {put : α → β}

theorem filterMap_map_put (hkey : ∀ a, key (put a) = some a) (xs : List α) :
    (xs.map put).filterMap key = xs := by
  rw [List.filterMap_map]
  have hsome : key ∘ put = some := funext hkey
  rw [hsome, List.filterMap_some]

theorem map_put_eq_iff (hkey : ∀ a, key (put a) = some a) (xs : List α) (ys : List β) :
    xs.map put = ys ↔ (∀ y ∈ ys, ∃ a, y = put a) ∧ ys.filterMap key = xs := by
  constructor
  · intro h
    subst h
    refine ⟨fun y hy => ?_, filterMap_map_put hkey xs⟩
    obtain ⟨a, -, rfl⟩ := List.mem_map.mp hy
    exact ⟨a, rfl⟩
  · intro h
    rcases h with ⟨hbare, rfl⟩
    rw [List.map_filterMap]
    induction ys with
    | nil => rfl
    | cons y ys ih =>
      obtain ⟨a, ha⟩ := hbare y List.mem_cons_self
      have hrest := ih fun y' hy' => hbare y' (List.mem_cons_of_mem y hy')
      rw [List.filterMap_cons, ha, hkey, Option.map_some, hrest]

/-- What a filter leaves of the keys is what the items with such keys leave. -/
theorem filterMap_filter_key (p : α → Bool) (ys : List β) :
    (ys.filter fun y => (key y).all p).filterMap key = (ys.filterMap key).filter p := by
  induction ys with
  | nil => rfl
  | cons y ys ih =>
    cases hy : key y with
    | none => simp [hy, ih]
    | some a =>
      cases hp : p a with
      | true => simp [hy, hp, ih]
      | false => simp [hy, hp, ih]

end Projection
