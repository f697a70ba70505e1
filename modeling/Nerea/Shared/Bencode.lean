import Mathlib.Data.Int.Notation
import Mathlib.Data.List.Basic

/-!
# Numbers and strings in bencode

Numbers are written in decimal, and strings after their length and a colon. Each tells by
itself where it ends, so what is written one after the other can be told apart.
-/

set_option autoImplicit false

namespace Bencode

def charByte (c : Char) : UInt8 := UInt8.ofNat c.toNat

def ascii (s : String) : List UInt8 := s.toList.map charByte

def nat (n : ℕ) : List UInt8 := (Nat.toDigits 10 n).map charByte

def int : ℤ → List UInt8
  | .ofNat n => nat n
  | .negSucc n => charByte '-' :: nat (n + 1)

def string (bytes : List UInt8) : List UInt8 := nat bytes.length ++ charByte ':' :: bytes

/-- The bytes of `0` to `9`. -/
def IsDigit (b : UInt8) : Prop := 48 ≤ b.toNat ∧ b.toNat ≤ 57

theorem toNat_charByte {c : Char} (h : c.isDigit = true) :
    (charByte c).toNat = c.toNat ∧ 48 ≤ c.toNat ∧ c.toNat ≤ 57 := by
  rw [Char.isDigit, Bool.and_eq_true, decide_eq_true_iff, decide_eq_true_iff] at h
  have hlow : 48 ≤ c.toNat := h.1
  have hhigh : c.toNat ≤ 57 := h.2
  have hsize : UInt8.size = 256 := rfl
  exact ⟨UInt8.toNat_ofNat_of_lt (by omega), hlow, hhigh⟩

theorem isDigit_of_mem_nat {n : ℕ} {b : UInt8} (h : b ∈ nat n) : IsDigit b := by
  obtain ⟨c, hc, rfl⟩ := List.mem_map.mp h
  obtain ⟨heq, hlow, hhigh⟩ :=
    toNat_charByte (Nat.isDigit_of_mem_toDigits (by decide) (by decide) hc)
  rw [IsDigit, heq]
  exact ⟨hlow, hhigh⟩

/-- The digits tell the number. -/
theorem nat_injective {m n : ℕ} (h : nat m = nat n) : m = n := by
  have hback : ∀ n, (nat n).map (fun b => Char.ofNat b.toNat) = Nat.toDigits 10 n := by
    intro n
    rw [nat, List.map_map]
    apply (List.map_congr_left _).trans (List.map_id _)
    intro c hc
    obtain ⟨heq, -⟩ := toNat_charByte (Nat.isDigit_of_mem_toDigits (by decide) (by decide) hc)
    rw [Function.comp, heq, Char.ofNat_toNat, id]
  have hdigits : Nat.toDigits 10 m = Nat.toDigits 10 n := by
    rw [← hback m, h, hback n]
  rw [← Nat.ofDigitChars_ten_toDigits (n := m), hdigits, Nat.ofDigitChars_ten_toDigits]

/-- A part ends where the first byte comes that is none of its own. -/
theorem append_cons_inj {p : UInt8 → Prop} {x : UInt8} (hx : ¬ p x) {as bs rest rest' : List UInt8}
    (has : ∀ b ∈ as, p b) (hbs : ∀ b ∈ bs, p b) (h : as ++ x :: rest = bs ++ x :: rest') :
    as = bs ∧ rest = rest' := by
  induction as generalizing bs with
  | nil =>
    cases bs with
    | nil => exact ⟨rfl, (List.cons.inj h).2⟩
    | cons b bs =>
      obtain rfl := (List.cons.inj h).1
      exact absurd (hbs _ List.mem_cons_self) hx
  | cons a as ih =>
    cases bs with
    | nil =>
      obtain rfl := (List.cons.inj h).1
      exact absurd (has _ List.mem_cons_self) hx
    | cons b bs =>
      obtain ⟨rfl, htail⟩ := List.cons.inj h
      obtain ⟨rfl, hrest⟩ := ih (fun b hb => has b (List.mem_cons_of_mem _ hb))
        (fun b hb => hbs b (List.mem_cons_of_mem _ hb)) htail
      exact ⟨rfl, hrest⟩

theorem nat_append_inj {m n : ℕ} {x : UInt8} (hx : ¬ IsDigit x) {rest rest' : List UInt8}
    (h : nat m ++ x :: rest = nat n ++ x :: rest') : m = n ∧ rest = rest' := by
  obtain ⟨hdigits, hrest⟩ :=
    append_cons_inj hx (fun _ => isDigit_of_mem_nat) (fun _ => isDigit_of_mem_nat) h
  exact ⟨nat_injective hdigits, hrest⟩

theorem nat_append_ne_cons {n : ℕ} {x : UInt8} (hx : ¬ IsDigit x) (rest rest' : List UInt8) :
    nat n ++ rest ≠ x :: rest' := by
  intro h
  cases hn : nat n with
  | nil => exact Nat.toDigits_ne_nil (List.map_eq_nil_iff.mp hn)
  | cons b bs =>
    rw [hn] at h
    have hb : IsDigit b := isDigit_of_mem_nat (by rw [hn]; exact List.mem_cons_self)
    rw [(List.cons.inj h).1] at hb
    exact hx hb

theorem int_append_inj {i j : ℤ} {x : UInt8} (hx : ¬ IsDigit x) {rest rest' : List UInt8}
    (h : int i ++ x :: rest = int j ++ x :: rest') : i = j ∧ rest = rest' := by
  have hminus : ¬ IsDigit (charByte '-') := by
    rw [IsDigit]
    decide
  cases i with
  | ofNat m =>
    cases j with
    | ofNat n =>
      obtain ⟨rfl, hrest⟩ := nat_append_inj hx h
      exact ⟨rfl, hrest⟩
    | negSucc n => exact absurd h (nat_append_ne_cons hminus _ _)
  | negSucc m =>
    cases j with
    | ofNat n => exact absurd h.symm (nat_append_ne_cons hminus _ _)
    | negSucc n =>
      obtain ⟨heq, hrest⟩ := nat_append_inj hx (List.cons.inj h).2
      obtain rfl := Nat.succ.inj heq
      exact ⟨rfl, hrest⟩

/-- A string tells where it ends. -/
theorem string_append_inj {as bs rest rest' : List UInt8}
    (h : string as ++ rest = string bs ++ rest') : as = bs ∧ rest = rest' := by
  have hcolon : ¬ IsDigit (charByte ':') := by
    rw [IsDigit]
    decide
  rw [string, string, List.append_assoc, List.append_assoc] at h
  obtain ⟨hlen, htail⟩ := nat_append_inj hcolon h
  exact List.append_inj htail hlen

end Bencode
