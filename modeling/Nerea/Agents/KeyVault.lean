import Nerea.Agents.Tools
import Mathlib.Data.List.Basic
import Mathlib.Logic.Function.Basic

/-!
# Providers and their API keys

The keys of a provider are used round-robin; a key that was refused is marked dead by its
position. A lazy view of the marks is iterated while they are removed, so `reviveKeys`
removes the first mark of the provider and throws.
-/

set_option autoImplicit false

namespace Nerea.Agents

structure AiProvider where
  id : String
  defaultModel : String

def AI_PROVIDERS : List AiProvider :=
  [⟨"grok", "grok-3-mini"⟩, ⟨"openrouter", "openai/gpt-4o-mini"⟩,
    ⟨"kilo", "anthropic/claude-sonnet-4"⟩, ⟨"groq", "llama-3.1-8b-instant"⟩,
    ⟨"nvidia", "meta/llama-3.1-8b-instruct"⟩, ⟨"cerebras", "llama3.1-8b"⟩,
    ⟨"mistral", "mistral-small-latest"⟩, ⟨"github", "gpt-4o-mini"⟩,
    ⟨"gemini", "gemini-2.0-flash"⟩, ⟨"llm7", "gpt-4o-mini"⟩,
    ⟨"cloudflare", "@cf/meta/llama-3.1-8b-instruct"⟩]

def providerById (id : String) : Option AiProvider := AI_PROVIDERS.find? (·.id == id)

/-- `deadKeys` is the set of marks in the order they were added. -/
structure KeyVault where
  keys : String → List String
  rotation : String → Option ℕ
  deadKeys : List String

namespace KeyVault

def mark (providerId : String) (idx : ℕ) : String := providerId ++ ":" ++ toString idx

variable (v : KeyVault)

/-- The loop of `nextKey` over the offsets still to try. -/
def nextFrom (providerId : String) (list : List String) : List ℕ → Option (String × KeyVault)
  | [] => none
  | i :: is =>
    let idx := ((v.rotation providerId).getD 0 + i) % list.length
    if mark providerId idx ∈ v.deadKeys then nextFrom providerId list is
    else
      match list[idx]? with
      | some key =>
        some (key, { v with rotation := Function.update v.rotation providerId (some idx) })
      | none => none

def nextKey (providerId : String) : Option (String × KeyVault) :=
  let list := v.keys providerId
  v.nextFrom providerId list (List.range list.length)

def markDeadAndRotate (providerId : String) : KeyVault :=
  match v.rotation providerId with
  | none => { v with rotation := Function.update v.rotation providerId (some 0) }
  | some cur =>
    { v with
      rotation := Function.update v.rotation providerId (some (cur + 1))
      deadKeys := if mark providerId cur ∈ v.deadKeys then v.deadKeys
        else v.deadKeys ++ [mark providerId cur] }

/-- The vault afterwards and whether the call returned. -/
def reviveKeys (providerId : String) : KeyVault × Bool :=
  match v.deadKeys.find? (fun k => (providerId ++ ":").toList.isPrefixOf k.toList) with
  | none => (v, true)
  | some k => ({ v with deadKeys := v.deadKeys.erase k }, false)

def trim (key : String) : String := String.ofList (Entorno.trim key.toList)

def addKey (providerId key : String) : KeyVault :=
  if trim key = "" then v
  else { v with keys := Function.update v.keys providerId (v.keys providerId ++ [trim key]) }

def removeKey (providerId : String) (index : ℤ) : KeyVault :=
  if index < 0 ∨ (v.keys providerId).length ≤ index then v
  else
    { v with
      keys := Function.update v.keys providerId ((v.keys providerId).eraseIdx index.toNat) }

theorem colon_not_mem_repr (idx : ℕ) : ':' ∉ idx.repr.toList := by
  rw [Nat.toList_repr]
  intro h
  exact absurd (Nat.isDigit_of_mem_toDigits (by decide) (by decide) h) (by decide)

theorem repr_inj {i j : ℕ} (h : i.repr.toList = j.repr.toList) : i = j := by
  rw [Nat.toList_repr, Nat.toList_repr] at h
  rw [← Nat.ofDigitChars_ten_toDigits (n := i), h, Nat.ofDigitChars_ten_toDigits]

theorem toList_mark (providerId : String) (idx : ℕ) :
    (mark providerId idx).toList = providerId.toList ++ ':' :: idx.repr.toList := by
  rw [mark, String.toList_append, String.toList_append, List.append_assoc]
  rfl

theorem append_colon_inj {xs ys as bs : List Char} (hx : ':' ∉ xs) (hy : ':' ∉ ys)
    (h : xs ++ ':' :: as = ys ++ ':' :: bs) : xs = ys ∧ as = bs := by
  induction xs generalizing ys with
  | nil =>
    cases ys with
    | nil => exact ⟨rfl, List.tail_eq_of_cons_eq h⟩
    | cons y ys =>
      obtain rfl := List.head_eq_of_cons_eq h
      exact absurd List.mem_cons_self hy
  | cons x xs ih =>
    cases ys with
    | nil =>
      obtain rfl := List.head_eq_of_cons_eq h
      exact absurd List.mem_cons_self hx
    | cons y ys =>
      obtain rfl := List.head_eq_of_cons_eq h
      obtain ⟨rfl, has⟩ := ih (fun hc => hx (List.mem_cons_of_mem _ hc))
        (fun hc => hy (List.mem_cons_of_mem _ hc)) (List.tail_eq_of_cons_eq h)
      exact ⟨rfl, has⟩

/-- The last colon of a mark separates the provider and the position. -/
theorem mark_inj {p q : String} {i j : ℕ} : mark p i = mark q j ↔ p = q ∧ i = j := by
  constructor
  · intro h
    have hlist := congrArg String.toList h
    rw [toList_mark, toList_mark] at hlist
    have hreverse := congrArg List.reverse hlist
    simp only [List.reverse_append, List.reverse_cons, List.append_assoc,
      List.singleton_append] at hreverse
    obtain ⟨hidx, hprovider⟩ := append_colon_inj
      (fun h => colon_not_mem_repr i (List.mem_reverse.mp h))
      (fun h => colon_not_mem_repr j (List.mem_reverse.mp h)) hreverse
    exact ⟨String.ext (List.reverse_injective hprovider),
      repr_inj (List.reverse_injective hidx)⟩
  · intro heq
    rcases heq with ⟨rfl, rfl⟩
    rfl

def withRotation (r : String → Option ℕ) : KeyVault := { v with rotation := r }

@[simp] theorem withRotation_keys (r : String → Option ℕ) : (v.withRotation r).keys = v.keys := rfl

@[simp] theorem withRotation_rotation (r : String → Option ℕ) :
    (v.withRotation r).rotation = r := rfl

@[simp] theorem withRotation_deadKeys (r : String → Option ℕ) :
    (v.withRotation r).deadKeys = v.deadKeys := rfl

section Rotation

variable {v : KeyVault} {p : String} {list : List String}

theorem nextFrom_eq_some {is : List ℕ} {key : String} {v' : KeyVault}
    (h : v.nextFrom p list is = some (key, v')) :
    ∃ idx, list[idx]? = some key ∧ mark p idx ∉ v.deadKeys ∧
      v' = v.withRotation (Function.update v.rotation p (some idx)) := by
  induction is with
  | nil => cases h
  | cons i is ih =>
    rw [nextFrom] at h
    split at h
    · exact ih h
    · rename_i hdead
      split at h
      · rename_i hkey
        cases h
        exact ⟨_, hkey, hdead, rfl⟩
      · cases h

theorem nextFrom_eq_none (hlist : list ≠ []) {is : List ℕ} :
    v.nextFrom p list is = none ↔
      ∀ i ∈ is, mark p (((v.rotation p).getD 0 + i) % list.length) ∈ v.deadKeys := by
  induction is with
  | nil => simp [nextFrom]
  | cons i is ih =>
    have hlt : ((v.rotation p).getD 0 + i) % list.length < list.length :=
      Nat.mod_lt _ (List.length_pos_of_ne_nil hlist)
    rw [nextFrom, List.forall_mem_cons, ← ih, List.getElem?_eq_getElem hlt]
    split
    · rename_i hdead
      simp [hdead]
    · rename_i hdead
      simp [hdead]

theorem nextKey_eq_some {key : String} {v' : KeyVault} (h : v.nextKey p = some (key, v')) :
    ∃ idx, (v.keys p)[idx]? = some key ∧ mark p idx ∉ v.deadKeys ∧
      v' = v.withRotation (Function.update v.rotation p (some idx)) :=
  nextFrom_eq_some h

/-- The offsets of the loop reach every position, wherever the rotation stands. -/
theorem exists_offset (r : ℕ) {idx n : ℕ} (h : idx < n) : ∃ i < n, (r + i) % n = idx := by
  have hr : r % n < n := Nat.mod_lt _ (Nat.zero_lt_of_lt h)
  refine ⟨(idx + n - r % n) % n, Nat.mod_lt _ (Nat.zero_lt_of_lt h), ?_⟩
  rw [Nat.add_mod_mod, ← Nat.mod_add_mod,
    show r % n + (idx + n - r % n) = idx + n by omega, Nat.add_mod_right, Nat.mod_eq_of_lt h]

theorem nextKey_eq_none :
    v.nextKey p = none ↔ ∀ idx < (v.keys p).length, mark p idx ∈ v.deadKeys := by
  by_cases hlist : v.keys p = []
  · simp [nextKey, hlist, nextFrom]
  · rw [nextKey, nextFrom_eq_none hlist]
    constructor
    · intro h idx hidx
      obtain ⟨i, hi, rfl⟩ := exists_offset ((v.rotation p).getD 0) hidx
      exact h i (List.mem_range.mpr hi)
    · intro h i _
      exact h _ (Nat.mod_lt _ (List.length_pos_of_ne_nil hlist))

/-- Where the rotation stands on a live key, that key is next. -/
theorem nextKey_of_rotation {idx : ℕ} {key : String} (hr : v.rotation p = some idx)
    (hkey : (v.keys p)[idx]? = some key) (hlive : mark p idx ∉ v.deadKeys) :
    v.nextKey p = some (key, v) := by
  obtain ⟨hlt, -⟩ := List.getElem?_eq_some_iff.mp hkey
  obtain ⟨n, hn⟩ : ∃ n, (v.keys p).length = n + 1 := ⟨_, (Nat.sub_add_cancel (by omega)).symm⟩
  have hupdate : Function.update v.rotation p (some idx) = v.rotation := by
    rw [← hr, Function.update_eq_self]
  rw [nextKey, hn, List.range_succ_eq_map, nextFrom]
  simp only [hr, Option.getD_some, Nat.add_zero, Nat.mod_eq_of_lt hlt, hlive, if_false, hkey,
    hupdate]

end Rotation

end KeyVault
end Nerea.Agents
