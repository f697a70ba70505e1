import Mathlib.Data.List.Basic
import Mathlib.Logic.Function.Basic

/-!
# Files that hold a sealed text

A head, a salt of 16 bytes, a nonce of 12 and what an authenticated cipher made of the text,
the tag at its end. Reading slices the file by position; `none` is a panic, of a slice beyond
the end or of a copy between different lengths.
-/

set_option autoImplicit false

namespace SealedFile

universe u

section Slices
variable {α : Type u}

/-- `xs[start..fin]` -/
def slice (xs : List α) (start fin : ℕ) : Option (List α) :=
  if start ≤ fin ∧ fin ≤ xs.length then some ((xs.drop start).take (fin - start)) else none

/-- A copy into `n` places. -/
def exactly (n : ℕ) (xs : List α) : Option (List α) := if xs.length = n then some xs else none

theorem slice_append {xs ys zs : List α} {start fin : ℕ} (hstart : xs.length = start)
    (hfin : start + ys.length = fin) : slice (xs ++ (ys ++ zs)) start fin = some ys := by
  have hlen : fin ≤ (xs ++ (ys ++ zs)).length := by
    simp only [List.length_append]
    omega
  rw [slice, if_pos ⟨by omega, hlen⟩, List.drop_left' hstart, ← hfin, Nat.add_sub_cancel_left,
    List.take_left]

end Slices

/-- An authenticated cipher with a tag of 16 bytes, and a key derivation. What was sealed
opens with its key and nonce, and nothing else does. -/
structure Aead where
  Clave : Type
  deriveKey : List UInt8 → List UInt8 → Clave
  encrypt : Clave → List UInt8 → List UInt8 → List UInt8
  decrypt : Clave → List UInt8 → List UInt8 → Option (List UInt8)
  decrypt_encrypt : ∀ k nonce plain, decrypt k nonce (encrypt k nonce plain) = some plain
  encrypt_of_decrypt : ∀ k nonce box plain, decrypt k nonce box = some plain →
    encrypt k nonce plain = box
  length_encrypt : ∀ k nonce plain, (encrypt k nonce plain).length = plain.length + 16

/-- The tag of a text that was sealed with one key is wrong under another. No cipher has this
for all keys and texts, so it is asked for those at hand. -/
def Aead.Rejects (A : Aead) (k k' : A.Clave) (nonce plain : List UInt8) : Prop :=
  k' ≠ k → A.decrypt k' nonce (A.encrypt k nonce plain) = none

/-- Marks the text with a key of one byte and hides nothing. -/
def marca : Aead where
  Clave := UInt8
  deriveKey pin _ := pin.headD 0
  encrypt k _ plain := plain ++ List.replicate 16 k
  decrypt k _ box :=
    if box = box.take (box.length - 16) ++ List.replicate 16 k then
      some (box.take (box.length - 16))
    else none
  decrypt_encrypt k _ plain := by simp
  encrypt_of_decrypt k _ box plain h := by
    split at h
    · rename_i hbox
      rw [← Option.some.inj h]
      exact hbox.symm
    · cases h
  length_encrypt k _ plain := by simp

theorem marca_rejects (k k' : UInt8) (nonce plain : List UInt8) :
    marca.Rejects k k' nonce plain := by
  intro hne
  simp only [marca, List.length_append, List.length_replicate, Nat.add_sub_cancel, List.take_left]
  rw [if_neg]
  intro heq
  have htag := List.append_cancel_left heq
  exact hne (List.replicate_right_injective (by decide : 16 ≠ 0) htag).symm

/-- What is drawn for a file. -/
structure Sorteo where
  salt : List UInt8
  nonce : List UInt8
  length_salt : salt.length = 16
  length_nonce : nonce.length = 12

def ceros : Sorteo where
  salt := List.replicate 16 0
  nonce := List.replicate 12 0
  length_salt := List.length_replicate
  length_nonce := List.length_replicate

/-- The parts behind the head. -/
structure Partes extends Sorteo where
  box : List UInt8

namespace Partes
variable (A : Aead) (p : Partes)

def toBytes (head : List UInt8) : List UInt8 := head ++ (p.salt ++ (p.nonce ++ p.box))

def abre (pin : List UInt8) : Option (List UInt8) :=
  A.decrypt (A.deriveKey pin p.salt) p.nonce p.box

def sella (s : Sorteo) (pin plain : List UInt8) : Partes :=
  { s with box := A.encrypt (A.deriveKey pin s.salt) s.nonce plain }

theorem length_toBytes (head : List UInt8) :
    (p.toBytes head).length = head.length + 28 + p.box.length := by
  simp only [toBytes, List.length_append, p.length_salt, p.length_nonce]
  omega

theorem slice_head (head : List UInt8) {n : ℕ} (hn : head.length = n) :
    slice (p.toBytes head) 0 n = some head := by
  rw [toBytes, ← List.nil_append (head ++ _)]
  apply slice_append
  · rfl
  · omega

/-- The parts stand where a reader looks for them. -/
theorem slices (head : List UInt8) {n : ℕ} (hn : head.length = n) :
    slice (p.toBytes head) n (n + 16) = some p.salt ∧
      slice (p.toBytes head) (n + 16) (n + 28) = some p.nonce ∧
      slice (p.toBytes head) (n + 28) (p.toBytes head).length = some p.box := by
  have hsalt := p.length_salt
  have hnonce := p.length_nonce
  refine ⟨slice_append hn (by omega), ?_, ?_⟩
  · rw [toBytes, ← List.append_assoc]
    apply slice_append
    · rw [List.length_append]
      omega
    · omega
  · have hbytes : p.toBytes head = (head ++ (p.salt ++ p.nonce)) ++ (p.box ++ []) := by
      simp [toBytes]
    have hlength := p.length_toBytes head
    rw [hbytes] at hlength ⊢
    apply slice_append
    · simp only [List.length_append]
      omega
    · omega

theorem abre_sella (s : Sorteo) (pin plain : List UInt8) :
    (sella A s pin plain).abre A pin = some plain :=
  A.decrypt_encrypt _ _ _

theorem abre_sella_of_ne {s : Sorteo} {pin pin' plain : List UInt8}
    (hkey : A.deriveKey pin' s.salt ≠ A.deriveKey pin s.salt)
    (hrejects : A.Rejects (A.deriveKey pin s.salt) (A.deriveKey pin' s.salt) s.nonce plain) :
    (sella A s pin plain).abre A pin' = none :=
  hrejects hkey

theorem length_of_abre {pin plain : List UInt8} (h : p.abre A pin = some plain) :
    p.box.length = plain.length + 16 := by
  rw [← A.encrypt_of_decrypt _ _ _ _ h, A.length_encrypt]

end Partes

/-- Every file that is long enough has parts. -/
theorem exists_partes {n : ℕ} {data : List UInt8} (h : n + 28 ≤ data.length) :
    ∃ p : Partes, data = p.toBytes (data.take n) := by
  refine ⟨⟨⟨(data.drop n).take 16, (data.drop (n + 16)).take 12, ?_, ?_⟩,
    data.drop (n + 28)⟩, ?_⟩
  · rw [List.length_take, List.length_drop]
    omega
  · rw [List.length_take, List.length_drop]
    omega
  · have hnonce := List.take_append_drop 12 (data.drop (n + 16))
    have hsalt := List.take_append_drop 16 (data.drop n)
    rw [List.drop_drop] at hnonce hsalt
    simp only [Partes.toBytes]
    rw [hnonce, hsalt, List.take_append_drop]

/-- The bytes of a PIN. -/
def asBytes (s : String) : List UInt8 := s.toList.flatMap String.utf8EncodeChar

/-- Files by path, or why they cannot be read. -/
abbrev Disco := String → Except String (List UInt8)

def Disco.write (d : Disco) (path : String) (data : List UInt8) : Disco :=
  Function.update d path (.ok data)

theorem Disco.write_self (d : Disco) (path : String) (data : List UInt8) :
    d.write path data path = .ok data :=
  Function.update_self path _ d

/-- `Path::join` with a file name. -/
def join (dir name : String) : String :=
  if dir = "" then name else if dir.endsWith "/" then dir ++ name else dir ++ "/" ++ name

end SealedFile
