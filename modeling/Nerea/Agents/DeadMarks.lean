import Nerea.Agents.KeyVault
import Nerea.Shared.Run
import Mathlib.Data.List.InsertIdx
import Mathlib.Data.List.Nodup

/-!
# The dead marks of a vault and the keys they were made for

Beside the vault a ledger gives every stored key an identity and notes which keys were
rejected: that is what the marks stand for. The vault keeps them by position, so they agree
with the ledger exactly as long as no operation moves a key away from its mark or puts one
where a mark is left.
-/

set_option autoImplicit false

namespace Nerea.Agents

structure Clave where
  id : ℕ
  texto : String
  rechazada : Bool
deriving DecidableEq

/-- The stored keys, the identities still free, and the key `nextKey` returned last. -/
structure Libro where
  claves : String → List Clave
  libre : String → ℕ
  ultima : String → Option ℕ

namespace Libro

variable (b : Libro) (p : String)

def set (claves : List Clave) : Libro := { b with claves := Function.update b.claves p claves }

def addKey (key : String) : Libro :=
  if KeyVault.trim key = "" then b
  else
    { b.set p (b.claves p ++ [⟨b.libre p, KeyVault.trim key, false⟩]) with
      libre := Function.update b.libre p (b.libre p + 1) }

def removeKey (index : ℤ) : Libro :=
  if index < 0 ∨ (b.claves p).length ≤ index then b
  else b.set p ((b.claves p).eraseIdx index.toNat)

/-- `nextKey` returned the key at the position, or none. -/
def devuelve (idx : Option ℕ) : Libro :=
  let id := idx.bind fun idx => (b.claves p)[idx]?.map Clave.id
  { b with ultima := Function.update b.ultima p id }

/-- The key returned last is rejected. -/
def rechaza : Libro :=
  match b.ultima p with
  | none => b
  | some id =>
    b.set p ((b.claves p).map fun c => if c.id = id then { c with rechazada := true } else c)

def revive : Libro := b.set p ((b.claves p).map fun c => { c with rechazada := false })

variable {b p} {q : String}

@[simp] theorem claves_set_self (claves : List Clave) : (b.set p claves).claves p = claves :=
  Function.update_self p _ _

theorem claves_set_of_ne (h : q ≠ p) (claves : List Clave) :
    (b.set p claves).claves q = b.claves q :=
  Function.update_of_ne h _ _

end Libro

namespace KeyVault

variable {v : KeyVault} {p : String}

theorem mem_markDeadAndRotate {cur : ℕ} (h : v.rotation p = some cur) (k : String) :
    k ∈ (v.markDeadAndRotate p).deadKeys ↔ k = mark p cur ∨ k ∈ v.deadKeys := by
  rw [markDeadAndRotate, h]
  dsimp only
  split
  · constructor
    · exact Or.inr
    · intro hk
      rcases hk with rfl | hk
      · assumption
      · exact hk
  · rw [List.mem_append, List.mem_singleton]
    exact or_comm

theorem keys_markDeadAndRotate : (v.markDeadAndRotate p).keys = v.keys := by
  unfold markDeadAndRotate
  split <;> rfl

theorem nodup_markDeadAndRotate (h : v.deadKeys.Nodup) :
    (v.markDeadAndRotate p).deadKeys.Nodup := by
  unfold markDeadAndRotate
  split
  · exact h
  · dsimp only
    split
    · exact h
    · rename_i hmark
      apply List.Nodup.append h (List.nodup_singleton _)
      rintro k hk hk'
      rw [List.mem_singleton.mp hk'] at hk
      exact hmark hk

/-- The first mark that begins with the provider and a colon. -/
def primeraMarca (v : KeyVault) (p : String) : Option String :=
  v.deadKeys.find? fun k => (p ++ ":").toList.isPrefixOf k.toList

theorem keys_reviveKeys : (v.reviveKeys p).1.keys = v.keys := by
  unfold reviveKeys
  split <;> rfl

theorem nodup_reviveKeys (h : v.deadKeys.Nodup) : (v.reviveKeys p).1.deadKeys.Nodup := by
  unfold reviveKeys
  split
  · exact h
  · exact h.erase _

theorem deadKeys_reviveKeys_subset : (v.reviveKeys p).1.deadKeys ⊆ v.deadKeys := by
  unfold reviveKeys
  split
  · exact List.Subset.refl _
  · exact List.erase_subset

theorem mem_reviveKeys (h : v.deadKeys.Nodup) (k : String) :
    k ∈ (v.reviveKeys p).1.deadKeys ↔ k ∈ v.deadKeys ∧ v.primeraMarca p ≠ some k := by
  unfold reviveKeys primeraMarca
  split
  · rename_i hnone
    rw [hnone]
    exact ⟨fun hk => ⟨hk, nofun⟩, And.left⟩
  · rename_i k' hsome
    rw [h.mem_erase_iff, hsome, and_comm, ne_comm, ne_eq, ne_eq, Option.some.injEq]

end KeyVault

structure Llavero where
  vault : KeyVault
  libro : Libro

namespace Llavero

inductive Orden where
  | addKey (p key : String)
  | removeKey (p : String) (index : ℤ)
  | nextKey (p : String)
  | markDeadAndRotate (p : String)
  | reviveKeys (p : String)

def paso (s : Llavero) : Orden → Llavero
  | .addKey p key => ⟨s.vault.addKey p key, s.libro.addKey p key⟩
  | .removeKey p index => ⟨s.vault.removeKey p index, s.libro.removeKey p index⟩
  | .nextKey p =>
    match s.vault.nextKey p with
    | none => ⟨s.vault, s.libro.devuelve p none⟩
    | some (_, v) => ⟨v, s.libro.devuelve p (v.rotation p)⟩
  | .markDeadAndRotate p => ⟨s.vault.markDeadAndRotate p, s.libro.rechaza p⟩
  | .reviveKeys p => ⟨(s.vault.reviveKeys p).1, s.libro.revive p⟩

/-- A vault after `load`, which stores no marks. -/
def abierto (keys : String → List String) : Llavero where
  vault := ⟨keys, fun _ => none, []⟩
  libro :=
    { claves := fun p => (keys p).mapIdx fun i key => ⟨i, key, false⟩
      libre := fun p => (keys p).length
      ultima := fun _ => none }

/-- `markDeadAndRotate` is called for the key that `nextKey` returned. -/
def EnDominio (s : Llavero) : Orden → Prop
  | .markDeadAndRotate p => ∃ idx c, s.vault.rotation p = some idx ∧
      (s.libro.claves p)[idx]? = some c ∧ s.libro.ultima p = some c.id
  | _ => True

/-- A rejected key is not returned wherever the rotation stands, any other key is where the
rotation stands on it, and none is returned only when all are rejected. -/
structure Fiel (s : Llavero) : Prop where
  devuelta : ∀ p r key v, (s.vault.withRotation r).nextKey p = some (key, v) →
    ∃ idx c, v.rotation p = some idx ∧ (s.libro.claves p)[idx]? = some c ∧ c.texto = key ∧
      c.rechazada = false
  elegible : ∀ p idx c, (s.libro.claves p)[idx]? = some c → c.rechazada = false →
    let v := s.vault.withRotation (Function.update s.vault.rotation p (some idx))
    v.nextKey p = some (c.texto, v)
  ninguna : ∀ p, s.vault.nextKey p = none ↔ ∀ c ∈ s.libro.claves p, c.rechazada = true

/-- No mark stands where a key is added, the marks from a removed key on are all there or
none is, and at most one key of the provider is marked when its marks are cleared, by the mark
found first, which marks no key of another provider. -/
def MarcasQuietas (s : Llavero) : Orden → Prop
  | .addKey p key => KeyVault.trim key ≠ "" →
      KeyVault.mark p (s.vault.keys p).length ∉ s.vault.deadKeys
  | .removeKey p index => 0 ≤ index → ∀ idx : ℕ, index ≤ idx →
      idx + 1 < (s.vault.keys p).length →
      (KeyVault.mark p idx ∈ s.vault.deadKeys ↔ KeyVault.mark p (idx + 1) ∈ s.vault.deadKeys)
  | .reviveKeys p => ∀ q, ∀ idx < (s.vault.keys q).length,
      if q = p then KeyVault.mark q idx ∈ s.vault.deadKeys →
        s.vault.primeraMarca p = some (KeyVault.mark q idx)
      else s.vault.primeraMarca p ≠ some (KeyVault.mark q idx)
  | _ => True

/-- The marks are of the rejected keys. -/
def Concuerda (s : Llavero) : Prop := ∀ p idx c, (s.libro.claves p)[idx]? = some c →
  (KeyVault.mark p idx ∈ s.vault.deadKeys ↔ c.rechazada = true)

/-- The ledger is of the stored keys, whose identities differ. -/
structure Ordenado (s : Llavero) : Prop where
  textos : ∀ p, s.vault.keys p = (s.libro.claves p).map Clave.texto
  distintas : ∀ p, ((s.libro.claves p).map Clave.id).Nodup
  libres : ∀ p, ∀ c ∈ s.libro.claves p, c.id < s.libro.libre p
  marcas : s.vault.deadKeys.Nodup

variable {s : Llavero} {p q : String} {idx : ℕ} {c : Clave}

theorem Ordenado.getElem?_keys (h : Ordenado s) (hc : (s.libro.claves p)[idx]? = some c) :
    (s.vault.keys p)[idx]? = some c.texto := by
  rw [h.textos, List.getElem?_map, hc, Option.map_some]

theorem Ordenado.length_keys (h : Ordenado s) (p : String) :
    (s.vault.keys p).length = (s.libro.claves p).length := by
  rw [h.textos, List.length_map]

theorem Ordenado.exists_clave (h : Ordenado s) {key : String}
    (hkey : (s.vault.keys p)[idx]? = some key) :
    ∃ c, (s.libro.claves p)[idx]? = some c ∧ c.texto = key := by
  rw [h.textos, List.getElem?_map] at hkey
  exact Option.map_eq_some_iff.mp hkey

theorem Ordenado.nextKey_of_rotation (h : Ordenado s) (hc : (s.libro.claves p)[idx]? = some c)
    (hlive : KeyVault.mark p idx ∉ s.vault.deadKeys) :
    let v := s.vault.withRotation (Function.update s.vault.rotation p (some idx))
    v.nextKey p = some (c.texto, v) :=
  KeyVault.nextKey_of_rotation (Function.update_self p _ _) (h.getElem?_keys hc) hlive

theorem Fiel.concuerda (h : Ordenado s) (hs : Fiel s) : Concuerda s := by
  intro p idx c hc
  cases hrechazada : c.rechazada with
  | false =>
    obtain ⟨idx', -, hlive, hv⟩ := KeyVault.nextKey_eq_some (hs.elegible p idx c hc hrechazada)
    have hrotation := congrFun (congrArg KeyVault.rotation hv) p
    simp only [KeyVault.withRotation_rotation, Function.update_self,
      Option.some.injEq] at hrotation
    simpa [hrotation] using hlive
  | true =>
    refine iff_of_true ?_ rfl
    by_contra hlive
    obtain ⟨idx', c', hidx', hc', -, hfalse⟩ :=
      hs.devuelta p _ _ _ (h.nextKey_of_rotation hc hlive)
    rw [KeyVault.withRotation_rotation, Function.update_self] at hidx'
    cases hidx'
    rw [hc] at hc'
    cases hc'
    rw [hrechazada] at hfalse
    cases hfalse

theorem Concuerda.fiel (h : Ordenado s) (hs : Concuerda s) : Fiel s where
  devuelta := by
    intro p r key v hnext
    obtain ⟨idx, hkey, hlive, rfl⟩ := KeyVault.nextKey_eq_some hnext
    obtain ⟨c, hc, htexto⟩ := h.exists_clave hkey
    refine ⟨idx, c, Function.update_self p _ _, hc, htexto, ?_⟩
    exact Bool.eq_false_iff.mpr fun hrechazada => hlive ((hs p idx c hc).mpr hrechazada)
  elegible := by
    intro p idx c hc hrechazada
    apply h.nextKey_of_rotation hc
    intro hdead
    rw [(hs p idx c hc).mp hdead] at hrechazada
    cases hrechazada
  ninguna := by
    intro p
    rw [KeyVault.nextKey_eq_none, h.length_keys]
    constructor
    · intro hdead c hc
      obtain ⟨idx, hlt, rfl⟩ := List.getElem_of_mem hc
      exact (hs p idx _ (List.getElem?_eq_getElem hlt)).mp (hdead idx hlt)
    · intro hrechazada idx hlt
      exact (hs p idx _ (List.getElem?_eq_getElem hlt)).mpr
        (hrechazada _ (List.getElem_mem hlt))

theorem Ordenado.addKey (h : Ordenado s) (p key : String) :
    Ordenado ⟨s.vault.addKey p key, s.libro.addKey p key⟩ := by
  unfold KeyVault.addKey Libro.addKey
  split
  · exact h
  · have hids : ((s.libro.claves p ++ [Clave.mk (s.libro.libre p) (KeyVault.trim key) false]).map
        Clave.id).Nodup := by
      rw [List.map_append]
      apply List.Nodup.append (h.distintas p) (List.nodup_singleton _)
      intro id hid hid'
      obtain ⟨c, hc, rfl⟩ := List.mem_map.mp hid
      exact Nat.ne_of_lt (h.libres p c hc) (List.mem_singleton.mp hid')
    constructor
    · intro q
      by_cases hq : q = p
      · subst hq
        simp [h.textos]
      · simp [hq, Libro.claves_set_of_ne, h.textos]
    · intro q
      by_cases hq : q = p
      · subst hq
        simpa using hids
      · simpa [hq, Libro.claves_set_of_ne] using h.distintas q
    · intro q c hc
      change c.id < Function.update s.libro.libre p (s.libro.libre p + 1) q
      by_cases hq : q = p
      · subst hq
        simp only [Libro.claves_set_self, List.mem_append, List.mem_singleton] at hc
        rw [Function.update_self]
        rcases hc with hc | rfl
        · exact Nat.lt_succ_of_lt (h.libres q c hc)
        · exact Nat.lt_succ_self _
      · rw [Libro.claves_set_of_ne hq] at hc
        rw [Function.update_of_ne hq]
        exact h.libres q c hc
    · exact h.marcas

theorem Ordenado.set (h : Ordenado s) {claves : List Clave} {v : KeyVault}
    (htextos : v.keys p = claves.map Clave.texto) (hkeys : ∀ q, q ≠ p → v.keys q = s.vault.keys q)
    (hsub : (claves.map Clave.id).Sublist ((s.libro.claves p).map Clave.id))
    (hmarcas : v.deadKeys.Nodup) : Ordenado ⟨v, s.libro.set p claves⟩ where
  textos := by
    intro q
    by_cases hq : q = p
    · subst hq
      simpa using htextos
    · rw [hkeys q hq, Libro.claves_set_of_ne hq, h.textos]
  distintas := by
    intro q
    by_cases hq : q = p
    · subst hq
      simpa using (h.distintas q).sublist hsub
    · rw [Libro.claves_set_of_ne hq]
      exact h.distintas q
  libres := by
    intro q c hc
    by_cases hq : q = p
    · subst hq
      rw [Libro.claves_set_self] at hc
      obtain ⟨c', hc', hid⟩ := List.mem_map.mp (hsub.subset (List.mem_map_of_mem hc))
      exact hid ▸ h.libres q c' hc'
    · rw [Libro.claves_set_of_ne hq] at hc
      exact h.libres q c hc
  marcas := hmarcas

theorem Ordenado.removeKey (h : Ordenado s) (p : String) (index : ℤ) :
    Ordenado ⟨s.vault.removeKey p index, s.libro.removeKey p index⟩ := by
  unfold KeyVault.removeKey Libro.removeKey
  rw [h.length_keys]
  split
  · exact h
  · apply h.set
    · rw [← List.eraseIdx_map, ← h.textos]
      exact Function.update_self p _ _
    · intro q hq
      exact Function.update_of_ne hq _ _
    · exact (List.eraseIdx_sublist _ _).map _
    · exact h.marcas

theorem Ordenado.rechaza (h : Ordenado s) (p : String) :
    Ordenado ⟨s.vault.markDeadAndRotate p, s.libro.rechaza p⟩ := by
  have hmarcas := KeyVault.nodup_markDeadAndRotate (p := p) h.marcas
  unfold Libro.rechaza
  split
  · refine ⟨fun q => ?_, h.distintas, h.libres, hmarcas⟩
    exact (congrFun KeyVault.keys_markDeadAndRotate q).trans (h.textos q)
  · refine h.set ?_ (fun q _ => by rw [KeyVault.keys_markDeadAndRotate]) ?_ hmarcas
    · rw [KeyVault.keys_markDeadAndRotate, h.textos, List.map_map]
      apply List.map_congr_left
      intro c _
      dsimp only [Function.comp_apply]
      split <;> rfl
    · have hids (id : ℕ) (c : Clave) :
          (if c.id = id then { c with rechazada := true } else c).id = c.id := by
        split <;> rfl
      simp only [List.map_map, Function.comp_def, hids]
      exact List.Sublist.refl _

theorem Ordenado.revive (h : Ordenado s) (p : String) :
    Ordenado ⟨(s.vault.reviveKeys p).1, s.libro.revive p⟩ := by
  refine h.set ?_ (fun q _ => by rw [KeyVault.keys_reviveKeys]) ?_
    (KeyVault.nodup_reviveKeys h.marcas)
  · rw [KeyVault.keys_reviveKeys, h.textos, List.map_map]
    rfl
  · rw [List.map_map]
    exact List.Sublist.refl _

theorem Ordenado.paso (h : Ordenado s) (e : Orden) : Ordenado (s.paso e) := by
  cases e with
  | addKey p key => exact h.addKey p key
  | removeKey p index => exact h.removeKey p index
  | nextKey p =>
    rw [Llavero.paso]
    split
    · exact ⟨h.textos, h.distintas, h.libres, h.marcas⟩
    · rename_i hnext
      obtain ⟨idx, -, -, rfl⟩ := KeyVault.nextKey_eq_some hnext
      exact ⟨h.textos, h.distintas, h.libres, h.marcas⟩
  | markDeadAndRotate p => exact h.rechaza p
  | reviveKeys p => exact h.revive p

theorem concuerda_set_iff {claves : List Clave} {v : KeyVault} :
    Concuerda ⟨v, s.libro.set p claves⟩ ↔
      (∀ idx c, claves[idx]? = some c →
        (KeyVault.mark p idx ∈ v.deadKeys ↔ c.rechazada = true)) ∧
      ∀ q, q ≠ p → ∀ idx c, (s.libro.claves q)[idx]? = some c →
        (KeyVault.mark q idx ∈ v.deadKeys ↔ c.rechazada = true) := by
  constructor
  · intro h
    refine ⟨fun idx c hc => h p idx c (by simpa using hc), ?_⟩
    intro q hq idx c hc
    exact h q idx c (by simpa [Libro.claves_set_of_ne hq] using hc)
  · intro hother q idx c hc
    rcases hother with ⟨hself, hother⟩
    by_cases hq : q = p
    · subst hq
      exact hself idx c (by simpa using hc)
    · exact hother q hq idx c (by simpa [Libro.claves_set_of_ne hq] using hc)

theorem Concuerda.addKey_iff (h : Ordenado s) (hs : Concuerda s) (key : String) :
    Concuerda (s.paso (.addKey p key)) ↔ s.MarcasQuietas (.addKey p key) := by
  rw [paso, MarcasQuietas, h.length_keys]
  unfold KeyVault.addKey Libro.addKey
  split
  · rename_i htrim
    exact iff_of_true hs fun hne => absurd htrim hne
  · rename_i htrim
    refine (concuerda_set_iff (s := s)).trans ⟨fun hset _ => ?_, fun hfree => ⟨?_, ?_⟩⟩
    · intro hdead
      have hnew := (hset.1 (s.libro.claves p).length _ List.getElem?_concat_length).mp hdead
      cases hnew
    · intro idx c hc
      rcases Nat.lt_or_ge idx (s.libro.claves p).length with hlt | hge
      · rw [List.getElem?_append_left hlt] at hc
        exact hs p idx c hc
      · rw [List.getElem?_append_right hge] at hc
        obtain ⟨hidx, rfl⟩ := List.getElem?_eq_some_iff.mp hc
        obtain rfl : idx = (s.libro.claves p).length := by
          simp only [List.length_singleton] at hidx
          omega
        simpa using hfree htrim
    · exact fun q _ idx c hc => hs q idx c hc

theorem Concuerda.removeKey_iff (h : Ordenado s) (hs : Concuerda s) (index : ℤ) :
    Concuerda (s.paso (.removeKey p index)) ↔ s.MarcasQuietas (.removeKey p index) := by
  rw [paso, MarcasQuietas]
  unfold KeyVault.removeKey Libro.removeKey
  rw [h.length_keys]
  split
  · refine iff_of_true hs fun hindex idx hle hlt => ?_
    omega
  · rename_i hindex
    obtain ⟨i, rfl⟩ : ∃ i : ℕ, index = i := ⟨index.toNat, by omega⟩
    rw [Int.toNat_natCast]
    refine concuerda_set_iff.trans ⟨fun hset _ idx hle hlt => ?_, fun hsame => ⟨?_, ?_⟩⟩
    · have hnew : ((s.libro.claves p).eraseIdx i)[idx]? = some (s.libro.claves p)[idx + 1] := by
        rw [List.getElem?_eraseIdx_of_ge (by omega), List.getElem?_eq_getElem hlt]
      rw [hset.1 idx _ hnew, hs p (idx + 1) _ (List.getElem?_eq_getElem hlt)]
    · intro idx c hc
      rcases Nat.lt_or_ge idx i with hlt | hge
      · rw [List.getElem?_eraseIdx_of_lt hlt] at hc
        exact hs p idx c hc
      · rw [List.getElem?_eraseIdx_of_ge hge] at hc
        have hlt := (List.getElem?_eq_some_iff.mp hc).1
        exact (hsame (by omega) idx (by omega) hlt).trans (hs p (idx + 1) c hc)
    · exact fun q _ idx c hc => hs q idx c hc

/-- The rejected key is the one at the position that gets the mark. -/
theorem Concuerda.rechaza (h : Ordenado s) (hs : Concuerda s)
    (he : s.EnDominio (.markDeadAndRotate p)) : Concuerda (s.paso (.markDeadAndRotate p)) := by
  obtain ⟨cur, u, hcur, hu, hultima⟩ := he
  rw [paso, Libro.rechaza, hultima]
  refine concuerda_set_iff.mpr ⟨fun idx c hc => ?_, fun q hq idx c hc => ?_⟩
  · obtain ⟨c', hc', rfl⟩ := Option.map_eq_some_iff.mp (List.getElem?_map ▸ hc)
    rw [KeyVault.mem_markDeadAndRotate hcur, KeyVault.mark_inj, hs p idx c' hc']
    have hid : c'.id = u.id ↔ idx = cur := by
      constructor
      · intro hid
        have hlt := (List.getElem?_eq_some_iff.mp hc').1
        apply (List.getElem?_inj (by rwa [List.length_map]) (h.distintas p)).mp
        rw [List.getElem?_map, List.getElem?_map, hc', hu, Option.map_some, Option.map_some, hid]
      · rintro rfl
        rw [Option.some.inj (hc'.symm.trans hu)]
    by_cases hidx : idx = cur
    · simp [hidx, hid]
    · simp [hidx, hid]
  · rw [KeyVault.mem_markDeadAndRotate hcur, KeyVault.mark_inj, hs q idx c hc]
    simp [hq]

theorem Concuerda.revive_iff (h : Ordenado s) (hs : Concuerda s) :
    Concuerda (s.paso (.reviveKeys p)) ↔ s.MarcasQuietas (.reviveKeys p) := by
  rw [paso, MarcasQuietas, Libro.revive, concuerda_set_iff]
  constructor
  · intro hother q idx hlt
    rcases hother with ⟨hself, hother⟩
    rw [h.length_keys] at hlt
    split
    · rename_i hq
      subst hq
      intro hdead
      by_contra hprimera
      have hnew := (hself idx _ (by rw [List.getElem?_map, List.getElem?_eq_getElem hlt]; rfl)).mp
        ((KeyVault.mem_reviveKeys h.marcas _).mpr ⟨hdead, hprimera⟩)
      cases hnew
    · rename_i hq
      intro hprimera
      have hold := hs q idx _ (List.getElem?_eq_getElem hlt)
      have hnew := hother q hq idx _ (List.getElem?_eq_getElem hlt)
      have hdead := List.mem_of_find?_eq_some hprimera
      exact ((KeyVault.mem_reviveKeys h.marcas _).mp (hnew.mpr (hold.mp hdead))).2 hprimera
  · intro hmarcas
    constructor
    · intro idx c hc
      obtain ⟨c', hc', rfl⟩ := Option.map_eq_some_iff.mp (List.getElem?_map ▸ hc)
      have hlt := (List.getElem?_eq_some_iff.mp hc').1
      have hself := hmarcas p idx (by rwa [h.length_keys])
      rw [if_pos rfl] at hself
      rw [KeyVault.mem_reviveKeys h.marcas]
      exact iff_of_false (fun hdead => hdead.2 (hself hdead.1)) nofun
    · intro q hq idx c hc
      have hlt := (List.getElem?_eq_some_iff.mp hc).1
      have hother := hmarcas q idx (by rwa [h.length_keys])
      rw [if_neg hq] at hother
      rw [KeyVault.mem_reviveKeys h.marcas, hs q idx c hc]
      exact and_iff_left hother

theorem Concuerda.paso_iff (h : Ordenado s) (hs : Concuerda s) {e : Orden}
    (he : s.EnDominio e) : Concuerda (s.paso e) ↔ s.MarcasQuietas e := by
  cases e with
  | addKey p key => exact hs.addKey_iff h key
  | removeKey p index => exact hs.removeKey_iff h index
  | nextKey p =>
    refine iff_of_true ?_ trivial
    rw [Llavero.paso]
    split
    · exact hs
    · rename_i hnext
      obtain ⟨idx, -, -, rfl⟩ := KeyVault.nextKey_eq_some hnext
      exact hs
  | markDeadAndRotate p => exact iff_of_true (hs.rechaza h he) trivial
  | reviveKeys p => exact hs.revive_iff h

theorem abierto_ordenado (keys : String → List String) : Ordenado (abierto keys) where
  textos := by
    intro p
    apply List.ext_getElem?
    intro idx
    simp [abierto, Function.comp_def]
  distintas := by
    intro p
    have hids : ((abierto keys).libro.claves p).map Clave.id = List.range (keys p).length := by
      apply List.ext_getElem?
      intro idx
      rcases Nat.lt_or_ge idx (keys p).length with hlt | hge
      · simp [abierto, hlt]
      · simp [abierto, hge]
    rw [hids]
    exact List.nodup_range
  libres := by
    intro p c hc
    obtain ⟨idx, hlt, rfl⟩ := List.mem_mapIdx.mp hc
    exact hlt
  marcas := List.nodup_nil

theorem abierto_concuerda (keys : String → List String) : Concuerda (abierto keys) := by
  intro p idx c hc
  obtain ⟨key, -, rfl⟩ := Option.map_eq_some_iff.mp (List.getElem?_mapIdx ▸ hc)
  exact iff_of_false List.not_mem_nil nofun

/-- In every run in which `markDeadAndRotate` is called for the keys that `nextKey` returned,
the marks are those of the rejected keys in every state exactly when every step leaves them
with their keys. -/
theorem marcas_iff (keys : String → List String) (es : List Orden)
    (hdom : Run.AllSteps paso EnDominio (abierto keys) es) :
    Run.Always paso Fiel (abierto keys) es ↔ Run.AllSteps paso MarcasQuietas (abierto keys) es := by
  apply Run.always_iff_allSteps (I := Ordenado) (fun s e hs _ _ => hs.paso e) ?_
    (abierto_ordenado keys) ((abierto_concuerda keys).fiel (abierto_ordenado keys)) hdom
  intro s e hs hfiel he
  rw [← (hfiel.concuerda hs).paso_iff hs he]
  exact ⟨fun h => h.concuerda (hs.paso e), fun h => h.fiel (hs.paso e)⟩

def dosClaves (p : String) : List String := if p = "grok" then ["a", "b"] else []

def rotadas : List Orden :=
  [.nextKey "grok", .markDeadAndRotate "grok", .nextKey "grok", .removeKey "grok" 1]

theorem marcas_rotadas : Run.Always paso Fiel (abierto dosClaves) rotadas := by
  have hdom : Run.AllSteps paso EnDominio (abierto dosClaves) rotadas :=
    ⟨trivial, ⟨0, ⟨0, "a", false⟩, by decide⟩, trivial, trivial, trivial⟩
  apply (marcas_iff dosClaves rotadas hdom).mpr
  refine ⟨trivial, trivial, trivial, ?_, trivial⟩
  intro _ idx hidx hlt
  have hlength : idx + 1 < 2 := hlt
  omega

/-- The first key is rejected and removed, and its mark passes to the second. -/
theorem removeKey_traslada : ¬ ∀ (keys : String → List String) (es : List Orden),
    Run.AllSteps paso EnDominio (abierto keys) es → Run.Always paso Fiel (abierto keys) es := by
  intro h
  have hfiel := h dosClaves [.nextKey "grok", .markDeadAndRotate "grok", .removeKey "grok" 0]
    ⟨trivial, ⟨0, ⟨0, "a", false⟩, by decide⟩, trivial, trivial⟩
  have hninguna := hfiel.2.2.2.ninguna "grok"
  exact absurd (hninguna.mp (by decide) ⟨1, "b", false⟩ (by decide)) (by decide)

end Llavero
end Nerea.Agents
