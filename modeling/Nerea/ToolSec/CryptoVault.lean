import Nerea.ToolSec.Keystream
import Nerea.Shared.Utf16

/-!
# The envelope of the strong cipher

`encrypt` lays out magic, version, salt, nonce, ciphertext and tag; `decrypt` cuts them out
again by position. The cipher and the key derivation are taken as given.
-/

set_option autoImplicit false

namespace Nerea.ToolSec

/-- An authenticated cipher with a tag of 16 bytes, and a key derivation: opening gives back
what was sealed with the same key and nonce, and nothing else opens. -/
structure Aead where
  Clave : Type
  deriveKey : List UInt8 → List UInt8 → Clave
  encrypt : Clave → List UInt8 → List UInt8 → List UInt8 × List UInt8
  decrypt : Clave → List UInt8 → List UInt8 × List UInt8 → Option (List UInt8)
  decrypt_encrypt : ∀ k nonce plain, decrypt k nonce (encrypt k nonce plain) = some plain
  encrypt_of_decrypt : ∀ k nonce box plain, decrypt k nonce box = some plain →
    encrypt k nonce plain = box
  length_cipherText : ∀ k nonce plain, (encrypt k nonce plain).1.length = plain.length
  length_mac : ∀ k nonce plain, (encrypt k nonce plain).2.length = 16

/-- What is drawn for an envelope. -/
structure Azar where
  salt : List UInt8
  nonce : List UInt8
  length_salt : salt.length = 16
  length_nonce : nonce.length = 12

namespace CryptoVault

def magic : List UInt8 := [0x50, 0x52, 0x42, 0x58]

def version : UInt8 := 1

def saltLen : ℕ := 16

def nonceLen : ℕ := 12

def isEnvelope (data : List UInt8) : Bool :=
  if data.length < magic.length + 1 + saltLen + 12 + 16 then false else magic.isPrefixOf data

variable (A : Aead)

def deriveKey (passphrase : Cadena) (salt : List UInt8) : A.Clave :=
  A.deriveKey (Utf16.toUtf8 passphrase) salt

def encrypt (azar : Azar) (plain : List UInt8) (passphrase : Cadena) : List UInt8 :=
  let box := A.encrypt (deriveKey A passphrase azar.salt) azar.nonce plain
  magic ++ version :: (azar.salt ++ (azar.nonce ++ (box.1 ++ box.2)))

/-- The bytes from one position up to another. -/
def sublistView (data : List UInt8) (start fin : ℕ) : List UInt8 :=
  (data.drop start).take (fin - start)

def decrypt (data : List UInt8) (passphrase : Cadena) : Option (List UInt8) :=
  if isEnvelope data = false then none
  else
    let off := magic.length
    if data[off]? ≠ some version then none
    else
      let off := off + 1
      let salt := sublistView data off (off + saltLen)
      let off := off + saltLen
      let nonce := sublistView data off (off + nonceLen)
      let off := off + nonceLen
      let cipherText := sublistView data off (data.length - 16)
      let mac := data.drop (data.length - 16)
      A.decrypt (deriveKey A passphrase salt) nonce (cipherText, mac)

end CryptoVault

open CryptoVault

def processBytesStrong (A : Aead) (azar : Azar) (key : Cadena) (plain : List UInt8) :
    List UInt8 :=
  CryptoVault.encrypt A azar plain key

def processBytesAuto (A : Aead) (key : Cadena) (data : List UInt8) : Option (List UInt8) :=
  if isEnvelope data then CryptoVault.decrypt A data key else some (processBytes key data)

namespace CryptoVault

variable {A : Aead} {azar : Azar} {key : Cadena} {plain data : List UInt8}

theorem sublistView_append {xs ys zs : List UInt8} {start fin : ℕ} (hstart : xs.length = start)
    (hfin : start + ys.length = fin) : sublistView (xs ++ (ys ++ zs)) start fin = ys := by
  rw [sublistView, List.drop_left' hstart, ← hfin, Nat.add_sub_cancel_left, List.take_left]

/-- The parts of an envelope. -/
structure Partes where
  salt : List UInt8
  nonce : List UInt8
  cipherText : List UInt8
  mac : List UInt8
  length_salt : salt.length = 16
  length_nonce : nonce.length = 12
  length_mac : mac.length = 16

def Partes.toBytes (p : Partes) : List UInt8 :=
  magic ++ version :: (p.salt ++ (p.nonce ++ (p.cipherText ++ p.mac)))

/-- `decrypt` on parts that stand where it looks for them. -/
def Partes.abre (A : Aead) (p : Partes) (passphrase : Cadena) : Option (List UInt8) :=
  A.decrypt (deriveKey A passphrase p.salt) p.nonce (p.cipherText, p.mac)

theorem Partes.length_toBytes (p : Partes) : p.toBytes.length = 49 + p.cipherText.length := by
  simp only [toBytes, magic, List.length_append, List.length_cons, List.length_nil, p.length_salt,
    p.length_nonce, p.length_mac]
  omega

theorem Partes.isEnvelope_toBytes (p : Partes) : isEnvelope p.toBytes = true := by
  have hlength := p.length_toBytes
  rw [isEnvelope, if_neg]
  · rfl
  · rw [hlength, magic, saltLen]
    simp only [List.length_cons, List.length_nil]
    omega

/-- The parts of an envelope stand where `decrypt` looks for them. -/
theorem Partes.decrypt_toBytes (p : Partes) : decrypt A p.toBytes key = p.abre A key := by
  have hsalt : sublistView p.toBytes 5 21 = p.salt := by
    have hhead : (magic ++ [version]).length = 5 := rfl
    exact sublistView_append hhead (by rw [p.length_salt])
  have hnonce : sublistView p.toBytes 21 33 = p.nonce := by
    have hparts : p.toBytes =
        (magic ++ version :: p.salt) ++ (p.nonce ++ (p.cipherText ++ p.mac)) := by
      simp [toBytes]
    rw [hparts]
    apply sublistView_append
    · rw [List.length_append, List.length_cons, p.length_salt]
      rfl
    · rw [p.length_nonce]
  have hparts : p.toBytes =
      (magic ++ version :: (p.salt ++ p.nonce)) ++ (p.cipherText ++ p.mac) := by
    simp [toBytes]
  have hhead : (magic ++ version :: (p.salt ++ p.nonce)).length = 33 := by
    rw [List.length_append, List.length_cons, List.length_append, p.length_salt, p.length_nonce]
    rfl
  have hcipherText : sublistView p.toBytes 33 (p.toBytes.length - 16) = p.cipherText := by
    rw [hparts]
    apply sublistView_append hhead
    rw [← hparts, p.length_toBytes]
    omega
  have hmac : p.toBytes.drop (p.toBytes.length - 16) = p.mac := by
    rw [p.length_toBytes, hparts, ← List.append_assoc]
    apply List.drop_left'
    rw [List.length_append, hhead]
    omega
  rw [decrypt, p.isEnvelope_toBytes, if_neg (by decide)]
  dsimp only
  rw [if_neg (fun h => h rfl)]
  change A.decrypt (deriveKey A key (sublistView p.toBytes 5 21))
    (sublistView p.toBytes 21 33) (_, _) = _
  rw [hsalt, hnonce, hmac]
  change A.decrypt _ _ (sublistView p.toBytes 33 _, _) = _
  rw [hcipherText]
  rfl

/-- What `encrypt` lays out. -/
def Partes.sella (A : Aead) (azar : Azar) (plain : List UInt8) (passphrase : Cadena) : Partes where
  salt := azar.salt
  nonce := azar.nonce
  cipherText := (A.encrypt (deriveKey A passphrase azar.salt) azar.nonce plain).1
  mac := (A.encrypt (deriveKey A passphrase azar.salt) azar.nonce plain).2
  length_salt := azar.length_salt
  length_nonce := azar.length_nonce
  length_mac := A.length_mac _ _ _

theorem encrypt_eq : encrypt A azar plain key = (Partes.sella A azar plain key).toBytes := rfl

theorem length_encrypt : (encrypt A azar plain key).length = 49 + plain.length := by
  rw [encrypt_eq, Partes.length_toBytes]
  congr 1
  exact A.length_cipherText _ _ _

theorem isEnvelope_encrypt : isEnvelope (encrypt A azar plain key) = true :=
  (Partes.sella A azar plain key).isEnvelope_toBytes

theorem decrypt_encrypt : decrypt A (encrypt A azar plain key) key = some plain := by
  rw [encrypt_eq, Partes.decrypt_toBytes]
  exact A.decrypt_encrypt _ _ _

theorem drop_eq_sublistView_append {start fin : ℕ} (h : start ≤ fin) (data : List UInt8) :
    data.drop start = sublistView data start fin ++ data.drop fin := by
  have hdrop : data.drop fin = (data.drop start).drop (fin - start) := by
    rw [List.drop_drop, Nat.add_sub_cancel' h]
  rw [hdrop, sublistView, List.take_append_drop]

theorem length_sublistView {data : List UInt8} {start fin : ℕ} (h : fin ≤ data.length) :
    (sublistView data start fin).length = fin - start := by
  rw [sublistView, List.length_take, List.length_drop]
  omega

/-- What looks like an envelope of this version has all its parts. -/
theorem exists_partes (henvelope : isEnvelope data = true) (hversion : data[4]? = some version) :
    ∃ p : Partes, data = p.toBytes := by
  rw [isEnvelope] at henvelope
  split at henvelope
  · cases henvelope
  · rename_i hshort
    have hlength : 49 ≤ data.length := Nat.le_of_not_lt hshort
    obtain ⟨resto, rfl⟩ := List.isPrefixOf_iff_prefix.mp henvelope
    obtain ⟨v, resto, rfl⟩ : ∃ v resto', resto = v :: resto' := by
      cases resto with
      | nil => exact absurd hlength (by decide)
      | cons v resto => exact ⟨v, resto, rfl⟩
    have hv : v = version := Option.some.inj hversion
    rw [hv] at hlength ⊢
    rw [List.length_append, List.length_cons] at hlength
    have hresto : 44 ≤ resto.length := by
      have hmagic : magic.length = 4 := rfl
      omega
    refine ⟨⟨sublistView resto 0 16, sublistView resto 16 28,
      sublistView resto 28 (resto.length - 16), resto.drop (resto.length - 16), ?_, ?_, ?_⟩, ?_⟩
    · exact length_sublistView (by omega)
    · exact length_sublistView (by omega)
    · rw [List.length_drop]
      omega
    · rw [Partes.toBytes]
      dsimp only
      rw [← drop_eq_sublistView_append (by omega), ← drop_eq_sublistView_append (by omega),
        ← drop_eq_sublistView_append (by omega), List.drop_zero]

/-- Only something shorter comes out of an envelope. -/
theorem length_of_decrypt (h : decrypt A data key = some plain) :
    plain.length + 49 = data.length := by
  rw [decrypt] at h
  split at h
  · cases h
  · rename_i henvelope
    have hlength : 49 ≤ data.length := by
      rw [isEnvelope] at henvelope
      split at henvelope
      · exact absurd rfl henvelope
      · rename_i hlength
        exact Nat.le_of_not_lt hlength
    dsimp only at h
    split at h
    · cases h
    · have hbox := congrArg (fun box => box.1.length) (A.encrypt_of_decrypt _ _ _ _ h)
      dsimp only at hbox
      rw [A.length_cipherText, sublistView, List.length_take, List.length_drop] at hbox
      simp only [magic, saltLen, nonceLen, List.length_cons, List.length_nil] at hbox
      omega

end CryptoVault

theorem length_processBytes (key : Cadena) (data : List UInt8) :
    (processBytes key data).length = data.length := by
  rw [processBytes, xorBytes_fst, List.length_mapIdx]

theorem processBytes_processBytes (key : Cadena) (data : List UInt8) :
    processBytes key (processBytes key data) = data := by
  rw [processBytes, processBytes, xorBytes_fst, xorBytes_fst, List.mapIdx_mapIdx]
  apply List.ext_getElem?
  intro i
  rw [List.getElem?_mapIdx]
  cases data[i]? with
  | none => rfl
  | some b =>
    simp only [Option.map_some, Function.comp_def]
    rw [UInt8.xor_assoc, UInt8.xor_self, UInt8.xor_zero]

/-- What the strong cipher seals is always found again; what the legacy cipher gives, exactly
when it does not look like an envelope. -/
theorem processBytesAuto_iff (A : Aead) (azar : Azar) (key : Cadena) (plain : List UInt8) :
    processBytesAuto A key (processBytesStrong A azar key plain) = some plain ∧
      (processBytesAuto A key (processBytes key plain) = some plain ↔
        isEnvelope (processBytes key plain) = false) := by
  constructor
  · rw [processBytesAuto, processBytesStrong, isEnvelope_encrypt, if_pos rfl]
    exact decrypt_encrypt
  · rw [processBytesAuto]
    split
    · rename_i henvelope
      refine iff_of_false (fun h => ?_) (by rw [henvelope]; decide)
      have hlength := length_of_decrypt h
      rw [length_processBytes] at hlength
      omega
    · rename_i henvelope
      rw [processBytes_processBytes]
      exact iff_of_true rfl (Bool.eq_false_iff.mpr henvelope)

/-- A cipher that hides nothing, and a tag of zeros. -/
def sinCifra : Aead where
  Clave := Unit
  deriveKey := fun _ _ => ()
  encrypt := fun _ _ plain => (plain, List.replicate 16 0)
  decrypt := fun _ _ box => if box.2 = List.replicate 16 0 then some box.1 else none
  decrypt_encrypt := fun _ _ _ => rfl
  encrypt_of_decrypt := by
    intro k nonce box plain h
    split at h
    · rename_i hmac
      cases h
      rw [← hmac]
    · cases h
  length_cipherText := fun _ _ _ => rfl
  length_mac := fun _ _ _ => rfl

def clave1234 : Cadena := [0x31, 0x32, 0x33, 0x34]

/-- A text whose legacy form begins like an envelope. -/
theorem pareceSobre_null : ¬ ∀ (A : Aead) (azar : Azar) (key : Cadena) (plain : List UInt8),
    processBytesAuto A key (processBytesStrong A azar key plain) = some plain ∧
      processBytesAuto A key (processBytes key plain) = some plain := by
  intro h
  let sobre := magic ++ List.replicate 45 0
  have hauto := (h sinCifra ⟨List.replicate 16 0, List.replicate 12 0, rfl, rfl⟩ clave1234
    (processBytes clave1234 sobre)).2
  rw [processBytes_processBytes, processBytesAuto, if_pos (by decide)] at hauto
  have hnull : CryptoVault.decrypt sinCifra sobre clave1234 = none := by decide
  rw [hnull] at hauto
  cases hauto

end Nerea.ToolSec
