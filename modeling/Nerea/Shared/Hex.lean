import Mathlib.Tactic.IntervalCases
import Nerea.Shared.Utf16

/-!
# Bytes in hexadecimal

Two lower case digits a byte, and the bytes read back from pairs of characters with a signed
parser. What is written reads back.
-/

set_option autoImplicit false

namespace Hex

def digit (n : ℕ) : Char := if n < 10 then Char.ofNat (48 + n) else Char.ofNat (87 + n)

/-- Of either case. -/
def digitValue (c : Char) : Option ℕ :=
  if 48 ≤ c.toNat ∧ c.toNat ≤ 57 then some (c.toNat - 48)
  else if 97 ≤ c.toNat ∧ c.toNat ≤ 102 then some (c.toNat - 87)
  else if 65 ≤ c.toNat ∧ c.toNat ≤ 70 then some (c.toNat - 55)
  else none

/-- The value of digits read after those of `value`. -/
def digitsValue (value : ℕ) : List Char → Option ℕ
  | [] => some value
  | c :: cs => do
    let d ← digitValue c
    digitsValue (16 * value + d) cs

def unsignedValue : List Char → Option ℕ
  | [] => none
  | cs => digitsValue 0 cs

/-- `int.parse` to base 16, or an exception. -/
def parse : List Char → Option ℤ
  | '-' :: cs => (unsignedValue cs).map (fun n => -(n : ℤ))
  | '+' :: cs => (unsignedValue cs).map (fun n => (n : ℤ))
  | cs => (unsignedValue cs).map (fun n => (n : ℤ))

def encodeByte (b : UInt8) : List Char := [digit (b.toNat / 16), digit (b.toNat % 16)]

def encode (bytes : List UInt8) : String := String.ofList (bytes.flatMap encodeByte)

/-- Two code units a byte; a unit that is left over is not read. -/
def decodeChars : List Char → Option (List UInt8)
  | [] => some []
  | [c] => if Utf16.units c = 2 then none else some []
  | a :: b :: cs => do
    let v ← parse [a, b]
    let bytes ← decodeChars cs
    return UInt8.ofInt v :: bytes

def decode (s : String) : Option (List UInt8) := decodeChars s.toList

theorem digitValue_digit {n : ℕ} (hn : n < 16) : digitValue (digit n) = some n := by
  interval_cases n <;> rfl

theorem digit_ne_sign {n : ℕ} (hn : n < 16) : digit n ≠ '-' ∧ digit n ≠ '+' := by
  interval_cases n <;> decide

theorem parse_digits {m n : ℕ} (hm : m < 16) (hn : n < 16) :
    parse [digit m, digit n] = some ((16 * m + n : ℕ) : ℤ) := by
  obtain ⟨hminus, hplus⟩ := digit_ne_sign hm
  have hvalue : unsignedValue [digit m, digit n] = some (16 * m + n) := by
    simp [unsignedValue, digitsValue, digitValue_digit hm, digitValue_digit hn]
  unfold parse
  split
  · rename_i heq
    exact absurd (List.cons.inj heq).1 hminus
  · rename_i heq
    exact absurd (List.cons.inj heq).1 hplus
  · rw [hvalue]
    rfl

theorem ofInt_toNat (b : UInt8) : UInt8.ofInt (b.toNat : ℤ) = b := by
  have hlt : b.toNat < 256 := b.toNat_lt
  have hmod : ((b.toNat : ℤ) % 2 ^ 8).toNat = b.toNat := by
    omega
  unfold UInt8.ofInt
  rw [hmod, UInt8.ofNat_toNat]

theorem decodeChars_encode (bytes : List UInt8) :
    decodeChars (bytes.flatMap encodeByte) = some bytes := by
  induction bytes with
  | nil => rfl
  | cons b bytes ih =>
    have hlt : b.toNat < 256 := b.toNat_lt
    have hparse := parse_digits (m := b.toNat / 16) (n := b.toNat % 16) (by omega) (by omega)
    have hsum : 16 * (b.toNat / 16) + b.toNat % 16 = b.toNat := Nat.div_add_mod b.toNat 16
    rw [hsum] at hparse
    rw [List.flatMap_cons]
    simp [encodeByte, decodeChars, hparse, ih, ofInt_toNat]

theorem decode_encode (bytes : List UInt8) : decode (encode bytes) = some bytes := by
  unfold decode encode
  rw [String.toList_ofList]
  exact decodeChars_encode bytes

theorem encode_ne_empty {bytes : List UInt8} (h : bytes ≠ []) : encode bytes ≠ "" := by
  intro hempty
  have hdecode := decode_encode bytes
  rw [hempty] at hdecode
  exact h (Option.some.inj hdecode).symm

end Hex
