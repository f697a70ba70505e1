import Nerea.Shared.Json

/-!
# What the language brings

Decoding and encoding JSON, `toString` and hash codes, of which only what the programs rely
on is fixed.
-/

set_option autoImplicit false

namespace Nerea

structure Dart where
  jsonDecode : String → Option Json
  jsonEncode : Json → String
  toText : Json → String
  hashCode : String → ℤ
  toText_str : ∀ s, toText (.str s) = s

/-- `j?.toString() ?? ''` -/
def Dart.textOf (d : Dart) (j : Json) : String :=
  match j with
  | .null => ""
  | j => d.toText j

end Nerea
