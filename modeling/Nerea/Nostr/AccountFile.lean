import Nerea.Shared.Json
import Nerea.Shared.SealedFile

/-!
# The account file

The account is stored as the JSON of its three fields, sealed under the PIN or, when there
is none, as it is. A reader tells the two by the first byte.
-/

set_option autoImplicit false

namespace Nerea.Nostr

open SealedFile

/-- `serde_json` on values, correct on objects of strings with distinct names. -/
structure SerdeJson where
  to_vec : Json → List UInt8
  from_slice : List UInt8 → Except String Json
  from_slice_to_vec : ∀ fields : List (String × String), (fields.map Prod.fst).Nodup →
    from_slice (to_vec (.obj (fields.map fun f => (f.1, .str f.2)))) =
      .ok (.obj (fields.map fun f => (f.1, .str f.2)))
  head_to_vec : ∀ fields, (to_vec (.obj fields)).head? = some 0x7b

def cuentaMagic : List UInt8 := [0x4e, 0x52, 0x4e, 0x31]

variable (A : Aead) (J : SerdeJson)

def derivePinKey (pin : String) (salt : List UInt8) : A.Clave := A.deriveKey (asBytes pin) salt

def encryptPayload (s : Sorteo) (pin : String) (payload : List UInt8) : List UInt8 :=
  let ct := A.encrypt (derivePinKey A pin s.salt) s.nonce payload
  cuentaMagic ++ (s.salt ++ (s.nonce ++ ct))

/-- `none` is a panic, here and below. -/
def decryptPayload (pin : String) (blob : List UInt8) :
    Option (Except String (List UInt8)) :=
  if blob.length < cuentaMagic.length + 28 then some (.error "archivo de cuenta truncado")
  else do
    let magic ← slice blob 0 cuentaMagic.length
    if magic ≠ cuentaMagic then return .error "archivo de cuenta con formato desconocido"
    let salt ← slice blob cuentaMagic.length (cuentaMagic.length + 16)
    let nonce ← slice blob (cuentaMagic.length + 16) (cuentaMagic.length + 28)
    let ct ← slice blob (cuentaMagic.length + 28) blob.length
    let nonce ← exactly 12 nonce
    match A.decrypt (derivePinKey A pin salt) nonce ct with
    | none => return .error "PIN incorrecto o archivo corrupto"
    | some plain => return .ok plain

structure CuentaGuardada where
  nombre : String
  npub : String
  nsec : String

namespace CuentaGuardada

def toJson (c : CuentaGuardada) : List UInt8 :=
  J.to_vec (.obj [("nombre", .str c.nombre), ("npub", .str c.npub), ("nsec", .str c.nsec)])

/-- `j[key].as_str().unwrap_or_default()`; what is not an object has no keys. -/
def strField (j : Json) (key : String) : String :=
  match j.get key with
  | some (.str s) => s
  | _ => ""

def fromJson (bytes : List UInt8) : Except String CuentaGuardada :=
  match J.from_slice bytes with
  | .error _ => .error "JSON de cuenta ilegible"
  | .ok j => .ok ⟨strField j "nombre", strField j "npub", strField j "nsec"⟩

theorem fromJson_toJson (c : CuentaGuardada) : fromJson J (c.toJson J) = .ok c := by
  have hlaw := J.from_slice_to_vec [("nombre", c.nombre), ("npub", c.npub), ("nsec", c.nsec)]
    (by simp)
  simp only [List.map_cons, List.map_nil] at hlaw
  simp only [fromJson, toJson, hlaw]
  rfl

end CuentaGuardada

def cuentaPath (dir : String) : String := join dir "nostrn_cuenta.bin"

/-- `escrito` is what `std::fs::write` returns. -/
def guardarCuenta (d : Disco) (escrito : Except String Unit) (s : Sorteo) (pin dir : String)
    (cuenta : CuentaGuardada) : Except String Disco :=
  let path := cuentaPath dir
  let json := cuenta.toJson J
  let blob := if pin.isEmpty then json else encryptPayload A s pin json
  match escrito with
  | .error e => .error s!"escribiendo {path}: {e}"
  | .ok () => .ok (d.write path blob)

def cargarCuenta (d : Disco) (pin dir : String) : Option (Except String CuentaGuardada) :=
  let path := cuentaPath dir
  match d path with
  | .error e => some (.error s!"leyendo {path}: {e} (¿creá una cuenta primero?)")
  | .ok blob =>
    if blob.head? = some 0x7b then some (CuentaGuardada.fromJson J blob)
    else if pin.isEmpty then some (.error "la cuenta está cifrada: ingresá tu PIN")
    else
      match decryptPayload A pin blob with
      | none => none
      | some (.error e) => some (.error e)
      | some (.ok json) => some (CuentaGuardada.fromJson J json)

variable {A J}

theorem encryptPayload_eq (s : Sorteo) (pin : String) (payload : List UInt8) :
    encryptPayload A s pin payload =
      (Partes.sella A s (asBytes pin) payload).toBytes cuentaMagic := rfl

theorem decryptPayload_toBytes (p : Partes) (pin : String) :
    decryptPayload A pin (p.toBytes cuentaMagic) =
      some (match p.abre A (asBytes pin) with
        | none => .error "PIN incorrecto o archivo corrupto"
        | some plain => .ok plain) := by
  have hlength := p.length_toBytes cuentaMagic
  have hmagic := p.slice_head cuentaMagic rfl
  obtain ⟨hsalt, hnonce, hbox⟩ := p.slices cuentaMagic rfl
  have hexact : exactly 12 p.nonce = some p.nonce := if_pos p.length_nonce
  rw [decryptPayload, if_neg (by omega)]
  simp only [hmagic, hsalt, hnonce, hbox, hexact, Option.bind_eq_bind, Option.bind_some]
  change (match p.abre A (asBytes pin) with | none => _ | some plain => _) = _
  split <;> rfl

/-- Every file has an answer: what is long enough has a magic, and behind the right one the
parts that are sliced. -/
theorem decryptPayload_total (pin : String) (blob : List UInt8) :
    ∃ r, decryptPayload A pin blob = some r := by
  by_cases hlen : blob.length < cuentaMagic.length + 28
  · exact ⟨_, by rw [decryptPayload, if_pos hlen]⟩
  obtain ⟨p, hp⟩ := exists_partes (le_of_not_gt hlen)
  by_cases hmagic : blob.take cuentaMagic.length = cuentaMagic
  · rw [hp, hmagic, decryptPayload_toBytes]
    exact ⟨_, rfl⟩
  · have hhead : slice blob 0 cuentaMagic.length = some (blob.take cuentaMagic.length) := by
      rw [slice, if_pos ⟨Nat.zero_le _, by omega⟩, List.drop_zero, Nat.sub_zero]
    refine ⟨.error "archivo de cuenta con formato desconocido", ?_⟩
    rw [decryptPayload, if_neg hlen]
    simp only [hhead, Option.bind_eq_bind, Option.bind_some, if_pos hmagic]
    rfl

theorem cargarCuenta_total (d : Disco) (pin dir : String) :
    ∃ r, cargarCuenta A J d pin dir = some r := by
  unfold cargarCuenta
  dsimp only
  split
  · exact ⟨_, rfl⟩
  split
  · exact ⟨_, rfl⟩
  split
  · exact ⟨_, rfl⟩
  · rename_i blob _ _ _
    obtain ⟨r, hr⟩ := decryptPayload_total (A := A) pin blob
    rw [hr]
    cases r with
    | error e => exact ⟨_, rfl⟩
    | ok json => exact ⟨_, rfl⟩

/-- What a save leaves at the path. -/
theorem guardarCuenta_eq {d d' : Disco} {escrito : Except String Unit} {s : Sorteo}
    {pin dir : String} {cuenta : CuentaGuardada}
    (h : guardarCuenta A J d escrito s pin dir cuenta = .ok d') :
    d' (cuentaPath dir) = .ok (if pin.isEmpty then cuenta.toJson J
      else encryptPayload A s pin (cuenta.toJson J)) := by
  unfold guardarCuenta at h
  cases escrito with
  | error e => cases h
  | ok _ =>
    cases h
    exact Disco.write_self d _ _

theorem head_toJson (cuenta : CuentaGuardada) : (cuenta.toJson J).head? = some 0x7b :=
  J.head_to_vec _

/-- A sealed file does not begin as a plain one does. -/
theorem head_encryptPayload (s : Sorteo) (pin : String) (payload : List UInt8) :
    (encryptPayload A s pin payload).head? = some 0x4e := rfl

theorem cargarCuenta_cifrada {d : Disco} {s : Sorteo} {pin dir : String} {payload : List UInt8}
    (h : d (cuentaPath dir) = .ok (encryptPayload A s pin payload)) {pin' : String}
    (hpin' : pin'.isEmpty = false) :
    cargarCuenta A J d pin' dir =
      some (match (Partes.sella A s (asBytes pin) payload).abre A (asBytes pin') with
        | none => .error "PIN incorrecto o archivo corrupto"
        | some json => CuentaGuardada.fromJson J json) := by
  have hhead : (encryptPayload A s pin payload).head? ≠ some 0x7b := by
    rw [head_encryptPayload]
    decide
  simp only [cargarCuenta, h, if_neg hhead, hpin', Bool.false_eq_true, if_false]
  rw [encryptPayload_eq, decryptPayload_toBytes]
  cases (Partes.sella A s (asBytes pin) payload).abre A (asBytes pin') with
  | none => rfl
  | some json => rfl

theorem isEmpty_eq_false {pin : String} (h : pin ≠ "") : pin.isEmpty = false := by
  simpa using h

/-- The account comes back under its PIN, no other PIN opens it whose key is another and
rejected by the cipher, and every file has an answer. -/
theorem account_file (A : Aead) (J : SerdeJson) :
    (∀ d d' escrito s pin dir cuenta, guardarCuenta A J d escrito s pin dir cuenta = .ok d' →
      cargarCuenta A J d' pin dir = some (.ok cuenta)) ∧
    (∀ d d' escrito s pin dir cuenta, guardarCuenta A J d escrito s pin dir cuenta = .ok d' →
      pin ≠ "" → ∀ pin', (pin' = "" ∨ derivePinKey A pin' s.salt ≠ derivePinKey A pin s.salt ∧
        A.Rejects (derivePinKey A pin s.salt) (derivePinKey A pin' s.salt) s.nonce
          (cuenta.toJson J)) →
      ∃ e, cargarCuenta A J d' pin' dir = some (.error e)) ∧
    ∀ d pin dir, ∃ r, cargarCuenta A J d pin dir = some r := by
  refine ⟨fun d d' escrito s pin dir cuenta h => ?_,
    fun d d' escrito s pin dir cuenta h hpin pin' hpin' => ?_,
    fun d pin dir => cargarCuenta_total d pin dir⟩
  · have hfile := guardarCuenta_eq h
    cases hempty : pin.isEmpty with
    | true =>
      rw [hempty, if_pos rfl] at hfile
      simp only [cargarCuenta, hfile, if_pos (head_toJson cuenta),
        CuentaGuardada.fromJson_toJson]
    | false =>
      rw [hempty, if_neg Bool.false_ne_true] at hfile
      rw [cargarCuenta_cifrada hfile hempty, Partes.abre_sella]
      simp only [CuentaGuardada.fromJson_toJson]
  · have hfile := guardarCuenta_eq h
    rw [isEmpty_eq_false hpin, if_neg Bool.false_ne_true] at hfile
    by_cases hempty : pin' = ""
    · subst hempty
      have hhead : (encryptPayload A s pin (cuenta.toJson J)).head? ≠ some 0x7b := by
        rw [head_encryptPayload]
        decide
      refine ⟨"la cuenta está cifrada: ingresá tu PIN", ?_⟩
      simp only [cargarCuenta, hfile, if_neg hhead]
      rfl
    · obtain ⟨hkey, hrejects⟩ := hpin'.resolve_left hempty
      refine ⟨"PIN incorrecto o archivo corrupto", ?_⟩
      rw [cargarCuenta_cifrada hfile (isEmpty_eq_false hempty),
        Partes.abre_sella_of_ne A hkey hrejects]

theorem exists_numero : ∃ f : List (String × String) → ℕ, Function.Injective f := by
  have hstring := Json.countable_string
  exact exists_injective_nat _

def cadenas : Json → List (String × String)
  | .obj fields => fields.filterMap fun f => match f.2 with
    | .str v => some (f.1, v)
    | _ => none
  | _ => []

/-- A library that writes an object of strings as a number of zeros behind the brace. -/
noncomputable def contado : SerdeJson where
  to_vec j := 0x7b :: List.replicate (exists_numero.choose (cadenas j)) 0
  from_slice b := .ok (.obj
    ((Function.invFun exists_numero.choose (b.length - 1)).map fun f => (f.1, .str f.2)))
  from_slice_to_vec fields _ := by
    have hcadenas : cadenas (.obj (fields.map fun f => (f.1, .str f.2))) = fields := by
      simp [cadenas, List.filterMap_map]
    simp only [List.length_cons, List.length_replicate, Nat.add_sub_cancel, hcadenas,
      Function.leftInverse_invFun exists_numero.choose_spec fields]
  head_to_vec _ := rfl

/-- Saved under one PIN, with no file there before, and read under another. -/
theorem account_file_other_pin : ∃ d' e,
    guardarCuenta marca contado (fun _ => .error "No such file") (.ok ()) ceros "1" ""
      ⟨"ana", "npub1", "nsec1"⟩ = .ok d' ∧
    cargarCuenta marca contado d' "2" "" = some (.error e) := by
  have hkey : derivePinKey marca "2" ceros.salt ≠ derivePinKey marca "1" ceros.salt := by
    change (0x32 : UInt8) ≠ 0x31
    decide
  obtain ⟨e, he⟩ := (account_file marca contado).2.1 (fun _ => .error "No such file") _ (.ok ())
    ceros "1" "" ⟨"ana", "npub1", "nsec1"⟩ rfl (by decide) "2"
    (Or.inr ⟨hkey, marca_rejects _ _ _ _⟩)
  exact ⟨_, e, rfl, he⟩

end Nerea.Nostr
