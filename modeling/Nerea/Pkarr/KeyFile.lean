import Nerea.Shared.SealedFile

/-!
# The file of the secret key

The key is sealed under the PIN. A reader checks the length and the magic of the file and
lets the cipher check the rest, but not the length of what was sealed, which goes into an
array of 32 bytes.
-/

set_option autoImplicit false

namespace Nerea.Pkarr

open SealedFile

def keyfileMagic : List UInt8 := [0x50, 0x52, 0x50, 0x4b, 0x31]

/-- `[u8; 32]` -/
abbrev Secret := { bytes : List UInt8 // bytes.length = 32 }

variable (A : Aead)

def derivePinKey (pin : String) (salt : List UInt8) : A.Clave := A.deriveKey (asBytes pin) salt

def keyfilePath (dir : String) : String := join dir "pkarr_key.bin"

/-- `escrito` is what `std::fs::write` returns. -/
def saveEncryptedSecret (d : Disco) (escrito : Except String Unit) (s : Sorteo)
    (dir pin : String) (secret : Secret) : Except String Disco :=
  let path := keyfilePath dir
  let ct := A.encrypt (derivePinKey A pin s.salt) s.nonce secret.val
  let blob := keyfileMagic ++ (s.salt ++ (s.nonce ++ ct))
  match escrito with
  | .error e => .error s!"escribiendo {path}: {e}"
  | .ok () => .ok (d.write path blob)

/-- `secret.copy_from_slice(&pt)`, which panics on another length. -/
def copyFromSlice (pt : List UInt8) : Option Secret :=
  if h : pt.length = 32 then some ⟨pt, h⟩ else none

/-- What `load_encrypted_secret` does with the bytes of the file; `none` is a panic. -/
def openSecret (pin : String) (blob : List UInt8) : Option (Except String Secret) :=
  if blob.length < 65 then some (.error "archivo de clave corrupto o de otra versión")
  else do
    let magic ← slice blob 0 5
    if magic ≠ keyfileMagic then return .error "archivo de clave corrupto o de otra versión"
    let nonce ← slice blob 21 33
    let nonce ← exactly 12 nonce
    let salt ← slice blob 5 21
    let ct ← slice blob 33 blob.length
    match A.decrypt (derivePinKey A pin salt) nonce ct with
    | none => return .error "PIN incorrecto"
    | some pt =>
      let secret ← copyFromSlice pt
      return .ok secret

def loadEncryptedSecret (d : Disco) (dir pin : String) : Option (Except String Secret) :=
  let path := keyfilePath dir
  match d path with
  | .error _ => some (.error s!"no hay clave guardada en {path}")
  | .ok blob => openSecret A pin blob

/-- What the cipher accepts under the PIN, long enough for the check of the file, is not as
long as a key. -/
def OtroTexto (pin : String) (blob : List UInt8) : Prop :=
  ∃ (p : Partes) (pt : List UInt8), blob = p.toBytes keyfileMagic ∧
    p.abre A (asBytes pin) = some pt ∧ 16 ≤ pt.length ∧ pt.length ≠ 32

variable {A}

theorem openSecret_short {blob : List UInt8} (h : blob.length < 65) (pin : String) :
    openSecret A pin blob = some (.error "archivo de clave corrupto o de otra versión") := by
  rw [openSecret, if_pos h]

theorem openSecret_toBytes {p : Partes} (h : 32 ≤ p.box.length) (pin : String) :
    openSecret A pin (p.toBytes keyfileMagic) =
      match p.abre A (asBytes pin) with
      | none => some (.error "PIN incorrecto")
      | some pt => (copyFromSlice pt).map .ok := by
  have hlength := p.length_toBytes keyfileMagic
  have hmagic := p.slice_head keyfileMagic (n := 5) rfl
  obtain ⟨hsalt, hnonce, hbox⟩ := p.slices keyfileMagic (n := 5) rfl
  have hexact : exactly 12 p.nonce = some p.nonce := if_pos p.length_nonce
  have hlong : ¬ (p.toBytes keyfileMagic).length < 65 := by
    have hhead : keyfileMagic.length = 5 := rfl
    omega
  rw [openSecret, if_neg hlong]
  simp only [hmagic, hsalt, hnonce, hbox, hexact, Option.bind_eq_bind, Option.bind_some]
  change (match p.abre A (asBytes pin) with | none => _ | some plain => _) = _
  cases p.abre A (asBytes pin) with
  | none => rfl
  | some pt =>
    dsimp only
    cases copyFromSlice pt with
    | none => rfl
    | some secret => rfl

theorem copyFromSlice_eq_none_iff {pt : List UInt8} :
    copyFromSlice pt = none ↔ pt.length ≠ 32 := by
  simp [copyFromSlice]

/-- Another magic is an error of its own. -/
theorem openSecret_magic {blob : List UInt8} (hlen : 65 ≤ blob.length)
    (hmagic : blob.take 5 ≠ keyfileMagic) (pin : String) :
    openSecret A pin blob = some (.error "archivo de clave corrupto o de otra versión") := by
  have hhead : slice blob 0 5 = some (blob.take 5) := by
    rw [slice, if_pos ⟨Nat.zero_le _, by omega⟩, List.drop_zero, Nat.sub_zero]
  rw [openSecret, if_neg (by omega)]
  simp only [hhead, Option.bind_eq_bind, Option.bind_some, if_pos hmagic]
  rfl

/-- The only panic is the copy of a text of another length. -/
theorem openSecret_eq_none_iff {pin : String} {blob : List UInt8} :
    openSecret A pin blob = none ↔ OtroTexto A pin blob := by
  constructor
  · intro hnone
    rcases Nat.lt_or_ge blob.length 65 with hshort | hlong
    · rw [openSecret_short hshort] at hnone
      cases hnone
    by_cases hmagic : blob.take 5 = keyfileMagic
    · obtain ⟨p, hp⟩ := exists_partes (n := 5) (Nat.le_trans (by decide) hlong)
      rw [hmagic] at hp
      have hlength := p.length_toBytes keyfileMagic
      have hhead : keyfileMagic.length = 5 := rfl
      rw [← hp] at hlength
      rw [hp, openSecret_toBytes (by omega)] at hnone
      cases habre : p.abre A (asBytes pin) with
      | none =>
        rw [habre] at hnone
        cases hnone
      | some pt =>
        have hbox := p.length_of_abre A habre
        rw [habre] at hnone
        have hcopy := copyFromSlice_eq_none_iff.mp (Option.map_eq_none_iff.mp hnone)
        exact ⟨p, pt, hp, habre, by omega, hcopy⟩
    · rw [openSecret_magic hlong hmagic] at hnone
      cases hnone
  · intro hne
    rcases hne with ⟨p, pt, rfl, habre, hlen, hne⟩
    have hbox := p.length_of_abre A habre
    rw [openSecret_toBytes (by omega), habre]
    exact Option.map_eq_none_iff.mpr (copyFromSlice_eq_none_iff.mpr hne)

theorem loadEncryptedSecret_save {d d' : Disco} {escrito : Except String Unit} {s : Sorteo}
    {dir pin : String} {secret : Secret}
    (h : saveEncryptedSecret A d escrito s dir pin secret = .ok d') :
    loadEncryptedSecret A d' dir pin = some (.ok secret) := by
  have hfile : d' (keyfilePath dir) =
      .ok ((Partes.sella A s (asBytes pin) secret.val).toBytes keyfileMagic) := by
    unfold saveEncryptedSecret at h
    cases escrito with
    | error e => cases h
    | ok _ =>
      cases h
      exact Disco.write_self d _ _
  have hbox : (Partes.sella A s (asBytes pin) secret.val).box.length = 48 := by
    rw [Partes.length_of_abre A _ (Partes.abre_sella A s (asBytes pin) secret.val),
      secret.property]
  simp only [loadEncryptedSecret, hfile]
  rw [openSecret_toBytes (by omega), Partes.abre_sella]
  simp [copyFromSlice, secret.property]

theorem loadEncryptedSecret_total_iff (d : Disco) (dir pin : String) :
    (∃ r, loadEncryptedSecret A d dir pin = some r) ↔
      ∀ blob, d (keyfilePath dir) = .ok blob → ¬ OtroTexto A pin blob := by
  unfold loadEncryptedSecret
  dsimp only
  cases hfile : d (keyfilePath dir) with
  | error e =>
    refine iff_of_true ⟨_, rfl⟩ fun blob h => ?_
    cases h
  | ok blob =>
    dsimp only
    rw [← Option.ne_none_iff_exists', Ne, openSecret_eq_none_iff]
    constructor
    · intro h blob' hblob
      cases hblob
      exact h
    · exact fun h => h blob rfl

/-- A saved key comes back, and a load has an answer exactly when the file does not hold, in
due form, a text of another length. -/
theorem key_file (A : Aead) :
    (∀ d d' escrito s dir pin secret, saveEncryptedSecret A d escrito s dir pin secret = .ok d' →
      loadEncryptedSecret A d' dir pin = some (.ok secret)) ∧
    ∀ d dir pin, (∃ r, loadEncryptedSecret A d dir pin = some r) ↔
      ∀ blob, d (keyfilePath dir) = .ok blob → ¬ OtroTexto A pin blob :=
  ⟨fun _ _ _ _ _ _ _ h => loadEncryptedSecret_save h, loadEncryptedSecret_total_iff⟩

/-- Sixteen zeros, sealed under the PIN that is asked for. -/
theorem sealed_short_text :
    ¬ ∀ (A : Aead) d dir pin, ∃ r, loadEncryptedSecret A d dir pin = some r := by
  intro h
  have hload := (loadEncryptedSecret_total_iff _ _ _).mp (h marca (fun _ => .ok
    ((Partes.sella marca ceros (asBytes "1") (List.replicate 16 0)).toBytes keyfileMagic)) "" "1")
  exact hload _ rfl ⟨_, List.replicate 16 0, rfl, Partes.abre_sella _ _ _ _, by simp, by simp⟩

end Nerea.Pkarr
