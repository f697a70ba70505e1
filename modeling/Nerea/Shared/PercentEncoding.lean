import Nerea.Shared.Hex
import Nerea.Shared.Utf8Lossy

/-!
# Percent-encoding

An escape is a percent sign and two hexadecimal digits, and stands for one byte; the other
bytes stand for themselves. What is escaped or free of percent signs is read back whatever
follows it.
-/

set_option autoImplicit false

namespace PercentEncoding

def digit (n : ℕ) : Char := if n < 10 then Char.ofNat (48 + n) else Char.ofNat (55 + n)

/-- `%{:02X}` -/
def escape (n : ℕ) : List Char := ['%', digit (n / 16), digit (n % 16)]

def utf8 (cs : List Char) : List UInt8 := cs.flatMap String.utf8EncodeChar

def byteValue (b : UInt8) : Option ℕ := Hex.digitValue (Char.ofNat b.toNat)

/-- A percent sign without two digits behind it is an error. -/
def decode : List UInt8 → Option (List UInt8)
  | [] => some []
  | b :: bs =>
    if b = 0x25 then
      match bs with
      | h :: l :: rest => do
        let x ← byteValue h
        let y ← byteValue l
        let out ← decode rest
        return UInt8.ofNat (16 * x + y) :: out
      | _ => none
    else (decode bs).map (b :: ·)

def decodeText (cs : List Char) : Option (List Char) :=
  (decode (utf8 cs)).map Utf8Lossy.fromUtf8Lossy

end PercentEncoding
