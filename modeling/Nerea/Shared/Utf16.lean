import Mathlib.Algebra.GroupWithZero.Nat
import Mathlib.Data.List.Basic

/-!
# Lengths in UTF-16 code units

The length of a string and its prefixes as languages count them whose strings are
sequences of UTF-16 code units. A prefix that would end inside a surrogate pair leaves the
pair out.
-/

set_option autoImplicit false

namespace Utf16

def units (c : Char) : ℕ := if c.toNat < 0x10000 then 1 else 2

def length (s : String) : ℕ := (s.toList.map units).sum

def takeUnits : ℕ → List Char → List Char
  | _, [] => []
  | n, c :: cs => if units c ≤ n then c :: takeUnits (n - units c) cs else []

def substring (s : String) (n : ℕ) : String := String.ofList (takeUnits n s.toList)

/-- The characters of a sequence of units; a surrogate without its pair is U+FFFD. -/
def chars : List UInt16 → List Char
  | [] => []
  | [u] => [if 0xD800 ≤ u.toNat ∧ u.toNat < 0xE000 then Char.ofNat 0xFFFD else Char.ofNat u.toNat]
  | u :: v :: us =>
    if 0xD800 ≤ u.toNat ∧ u.toNat < 0xDC00 ∧ 0xDC00 ≤ v.toNat ∧ v.toNat < 0xE000 then
      Char.ofNat (0x10000 + (u.toNat - 0xD800) * 0x400 + (v.toNat - 0xDC00)) :: chars us
    else if 0xD800 ≤ u.toNat ∧ u.toNat < 0xE000 then Char.ofNat 0xFFFD :: chars (v :: us)
    else Char.ofNat u.toNat :: chars (v :: us)

def toUtf8 (us : List UInt16) : List UInt8 := (chars us).flatMap String.utf8EncodeChar

end Utf16
