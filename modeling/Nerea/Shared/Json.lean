import Mathlib.Data.Countable.Basic
import Mathlib.Data.Rat.Defs
import Mathlib.Logic.Equiv.List

/-!
# Decoded JSON

What a JSON decoder returns, and the indexing of such a value where a failure throws. A
key that occurs twice keeps its last value in the decoder, so the fields of an object
have different names.
-/

set_option autoImplicit false

inductive Json where
  | null
  | bool (b : Bool)
  | num (n : ℚ)
  | str (s : String)
  | arr (items : List Json)
  | obj (fields : List (String × Json))

namespace Json

/-- The value of a key; an absent one is `null`. -/
def field (fields : List (String × Json)) (key : String) : Json :=
  (fields.lookup key).getD .null

/-- `j[key]`, which only an object has. -/
def get (j : Json) (key : String) : Option Json :=
  match j with
  | .obj fields => some (field fields key)
  | _ => none

/-- `j[0]`, an error on the empty list. -/
def first (j : Json) : Option Json :=
  match j with
  | .arr (x :: _) => some x
  | _ => none

/-- `j ?? other` -/
def orElse (j other : Json) : Json :=
  match j with
  | .null => other
  | j => j

theorem countable_string : Countable String := by
  have hchar : Countable Char := Function.Injective.countable (f := Char.toNat) fun _ _ h =>
    Char.toNat_inj.mp h
  exact Function.Injective.countable (f := String.toList) fun _ _ h => String.toList_injective h

end Json
