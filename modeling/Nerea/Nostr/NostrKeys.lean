import Mathlib.Data.List.Nodup
import Mathlib.Logic.Function.Basic
import Nerea.Shared.Hex
import Nerea.Shared.Run

/-!
# The identities that are stored by name

A save drops the identity of its name at once and adds the new one when its key is
converted. The names stay distinct and each holds the key of the last call, as long as a
save that is converted finds its name free and no later call done, and one that raises has
not dropped the identity that was there.
-/

set_option autoImplicit false

namespace Nerea.Nostr

structure Identidad where
  nombre : String
  secretHex : String
  npub : String
  createdAt : ℤ

inductive Llamada where
  /-- Awaits `toNpub`. -/
  | convierte (nombre : String) (secret : List UInt8)
  /-- Awaits `Settings.save`. -/
  | guarda
  | fin

/-- What is only recorded, for each name: of the calls that have had their effect the one
called last, with the key of a save, and whether a save dropped an identity that no other
has replaced and no delete was called for. -/
structure NostrKeys where
  nostrKeys : List Identidad
  llamadas : ℕ → Llamada
  lanzadas : ℕ
  hecha : String → Option (ℕ × Option (List UInt8))
  retirada : String → Bool

namespace NostrKeys

inductive Evento where
  | saveIdentity (nombre : String) (secret : List UInt8)
  | deleteIdentity (nombre : String)
  /-- `toNpub` returns. -/
  | npub (n : ℕ) (npub : String) (now : ℤ)
  | guardado (n : ℕ)
  /-- What the call awaits throws. -/
  | falla (n : ℕ)

def removeWhere (nostrKeys : List Identidad) (nombre : String) : List Identidad :=
  nostrKeys.filter (fun k => k.nombre ≠ nombre)

def busca (nostrKeys : List Identidad) (nombre : String) : Option Identidad :=
  nostrKeys.find? (fun k => k.nombre = nombre)

def sigue (s : NostrKeys) (n : ℕ) (c : Llamada) : NostrKeys :=
  { s with llamadas := Function.update s.llamadas n c }

def lanza (s : NostrKeys) (c : Llamada) : NostrKeys :=
  { s with lanzadas := s.lanzadas + 1 }.sigue s.lanzadas c

def saveIdentity (s : NostrKeys) (nombre : String) (secret : List UInt8) : NostrKeys :=
  { s with
    nostrKeys := removeWhere s.nostrKeys nombre
    retirada := Function.update s.retirada nombre
      (s.retirada nombre || (busca s.nostrKeys nombre).isSome) }.lanza (.convierte nombre secret)

def deleteIdentity (s : NostrKeys) (nombre : String) : NostrKeys :=
  { s with
    nostrKeys := removeWhere s.nostrKeys nombre
    retirada := Function.update s.retirada nombre false
    hecha := Function.update s.hecha nombre (some (s.lanzadas, none)) }.lanza .guarda

/-- The key, or an exception. -/
def loadSecret (s : NostrKeys) (nombre : String) : Except Unit (Option (List UInt8)) :=
  match s.nostrKeys.find? (fun k => k.nombre = nombre ∧ k.secretHex ≠ "") with
  | none => .ok none
  | some k =>
    match Hex.decode k.secretHex with
    | none => .error ()
    | some secret => .ok (some secret)

/-- The save `n` is the one called last, or another one still is. -/
def posterior (n : ℕ) (secret : List UInt8) :
    Option (ℕ × Option (List UInt8)) → Option (ℕ × Option (List UInt8))
  | none => some (n, some secret)
  | some (m, v) => if m < n then some (n, some secret) else some (m, v)

/-- The identity a save adds. -/
def identidad (nombre : String) (secret : List UInt8) (npub : String) (now : ℤ) : Identidad where
  nombre := nombre
  secretHex := Hex.encode secret
  npub := npub
  createdAt := now

def handleNpub (s : NostrKeys) (n : ℕ) (npub : String) (now : ℤ) : Llamada → NostrKeys
  | .convierte nombre secret =>
    { s with
      nostrKeys := s.nostrKeys ++ [identidad nombre secret npub now]
      retirada := Function.update s.retirada nombre false
      hecha := Function.update s.hecha nombre (posterior n secret (s.hecha nombre)) }.sigue n
        .guarda
  | _ => s

def paso (s : NostrKeys) : Evento → NostrKeys
  | .saveIdentity nombre secret => s.saveIdentity nombre secret
  | .deleteIdentity nombre => s.deleteIdentity nombre
  | .npub n npub now => s.handleNpub n npub now (s.llamadas n)
  | .guardado n =>
    match s.llamadas n with
    | .guarda => s.sigue n .fin
    | _ => s
  | .falla n =>
    match s.llamadas n with
    | .fin => s
    | _ => s.sigue n .fin

def inicial (nostrKeys : List Identidad) : NostrKeys where
  nostrKeys := nostrKeys
  llamadas := fun _ => .fin
  lanzadas := 0
  hecha := fun _ => none
  retirada := fun _ => false

/-- A save of the name awaits its conversion. -/
def Pendiente (s : NostrKeys) (nombre : String) : Prop :=
  ∃ n secret, s.llamadas n = .convierte nombre secret

/-- Under the name is what the call left that has had its effect and was called last. -/
def Tiene (guardadas : List Identidad) (s : NostrKeys) (nombre : String) :
    Option (ℕ × Option (List UInt8)) → Prop
  | none => busca s.nostrKeys nombre = busca guardadas nombre
  | some (_, none) => busca s.nostrKeys nombre = none
  | some (_, some secret) =>
    ∃ k, busca s.nostrKeys nombre = some k ∧ k.secretHex = Hex.encode secret

structure Correcto (guardadas : List Identidad) (s : NostrKeys) : Prop where
  distintos : (s.nostrKeys.map Identidad.nombre).Nodup
  tiene : ∀ nombre, ¬ s.Pendiente nombre → s.Tiene guardadas nombre (s.hecha nombre)
  carga : ∀ nombre n secret, ¬ s.Pendiente nombre → s.hecha nombre = some (n, some secret) →
    secret ≠ [] → s.loadSecret nombre = .ok (some secret)

/-- A save that is converted finds its name free and no call done that came after it; one
that raises dropped no identity that is missing now, unless another save of the name is
pending. -/
def EnTurno (s : NostrKeys) : Evento → Prop
  | .npub n _ _ => ∀ nombre secret, s.llamadas n = .convierte nombre secret →
      busca s.nostrKeys nombre = none ∧ ∀ m v, s.hecha nombre = some (m, v) → m < n
  | .falla n => ∀ nombre secret, s.llamadas n = .convierte nombre secret →
      s.retirada nombre = false ∨ ∃ n' secret', n' ≠ n ∧ s.llamadas n' = .convierte nombre secret'
  | _ => True

section Lista

variable {l : List Identidad} {nombre otro : String}

theorem busca_removeWhere : busca (removeWhere l nombre) nombre = none := by
  unfold busca removeWhere
  rw [List.find?_eq_none]
  intro k hk h
  have hne := of_decide_eq_true (List.mem_filter.mp hk).2
  exact hne (of_decide_eq_true h)

theorem busca_removeWhere_of_ne (h : otro ≠ nombre) :
    busca (removeWhere l nombre) otro = busca l otro := by
  unfold busca removeWhere
  rw [List.find?_filter]
  congr 1
  funext k
  by_cases hk : k.nombre = otro
  · simp [hk, h]
  · simp [hk]

theorem busca_append_identidad (secret : List UInt8) (npub : String) (now : ℤ)
    (h : busca l nombre = none) :
    busca (l ++ [identidad nombre secret npub now]) nombre =
      some (identidad nombre secret npub now) := by
  unfold busca at h ⊢
  rw [List.find?_append, h]
  simp [identidad]

theorem busca_append_identidad_of_ne (secret : List UInt8) (npub : String) (now : ℤ)
    (h : otro ≠ nombre) :
    busca (l ++ [identidad nombre secret npub now]) otro = busca l otro := by
  unfold busca
  rw [List.find?_append]
  simp [identidad, Ne.symm h]

theorem nodup_removeWhere (h : (l.map Identidad.nombre).Nodup) :
    ((removeWhere l nombre).map Identidad.nombre).Nodup :=
  h.sublist (List.Sublist.map _ List.filter_sublist)

theorem nodup_append_identidad (secret : List UInt8) (npub : String) (now : ℤ)
    (h : (l.map Identidad.nombre).Nodup) (hno : busca l nombre = none) :
    ((l ++ [identidad nombre secret npub now]).map Identidad.nombre).Nodup := by
  rw [List.map_append]
  apply h.append
  · exact List.nodup_singleton _
  · intro x hx hx'
    obtain ⟨k, hk, hkx⟩ := List.mem_map.mp hx
    have hnombre : x = nombre := List.mem_singleton.mp hx'
    have hne := List.find?_eq_none.mp hno k hk
    exact hne (decide_eq_true (hkx.trans hnombre))

end Lista

/-- Between two events. -/
structure Consistente (guardadas : List Identidad) (s : NostrKeys) : Prop where
  distintos : (s.nostrKeys.map Identidad.nombre).Nodup
  tiene : ∀ nombre, s.retirada nombre = false → s.Tiene guardadas nombre (s.hecha nombre)
  retirada : ∀ nombre, s.retirada nombre = true →
    busca s.nostrKeys nombre = none ∧ s.Pendiente nombre
  frescas : ∀ n, s.lanzadas ≤ n → s.llamadas n = .fin

variable {guardadas : List Identidad} {s s' : NostrKeys} {n : ℕ} {c : Llamada}

theorem Tiene.congr {nombre : String} {v : Option (ℕ × Option (List UInt8))}
    (h : s.Tiene guardadas nombre v)
    (hbusca : busca s'.nostrKeys nombre = busca s.nostrKeys nombre) :
    s'.Tiene guardadas nombre v := by
  unfold Tiene at h ⊢
  rw [hbusca]
  exact h

theorem Pendiente.otra {nombre : String} (h : s.Pendiente nombre)
    (hllamadas : s'.llamadas = Function.update s.llamadas n c)
    (hn : ∀ secret, s.llamadas n = .convierte nombre secret →
      ∃ n' secret', n' ≠ n ∧ s.llamadas n' = .convierte nombre secret') : s'.Pendiente nombre := by
  have hotra : ∃ n' secret', n' ≠ n ∧ s.llamadas n' = .convierte nombre secret' := by
    obtain ⟨n', secret, hn'⟩ := h
    by_cases heq : n' = n
    · exact hn secret (heq ▸ hn')
    · exact ⟨n', secret, heq, hn'⟩
  obtain ⟨n', secret', hne, hn'⟩ := hotra
  refine ⟨n', secret', ?_⟩
  rw [hllamadas, Function.update_of_ne hne]
  exact hn'

/-- What happens to the name `x` leaves the others as they are. -/
theorem Consistente.of_update (hs : Consistente guardadas s) {x : String}
    (hllamadas : s'.llamadas = Function.update s.llamadas n c)
    (hdistintos : (s'.nostrKeys.map Identidad.nombre).Nodup)
    (hx : s'.retirada x = false → s'.Tiene guardadas x (s'.hecha x))
    (hx' : s'.retirada x = true → busca s'.nostrKeys x = none ∧ s'.Pendiente x)
    (hbusca : ∀ y, y ≠ x → busca s'.nostrKeys y = busca s.nostrKeys y)
    (hretirada : ∀ y, y ≠ x → s'.retirada y = s.retirada y)
    (hhecha : ∀ y, y ≠ x → s'.hecha y = s.hecha y)
    (hn : ∀ y secret, y ≠ x → s.llamadas n ≠ .convierte y secret)
    (hfrescas : ∀ m, s'.lanzadas ≤ m → m ≠ n ∧ s.lanzadas ≤ m) : Consistente guardadas s' where
  distintos := hdistintos
  tiene := by
    intro y hy
    by_cases heq : y = x
    · rw [heq] at hy ⊢
      exact hx hy
    · rw [hhecha y heq]
      exact (hs.tiene y (hretirada y heq ▸ hy)).congr (hbusca y heq)
  retirada := by
    intro y hy
    by_cases heq : y = x
    · rw [heq] at hy ⊢
      exact hx' hy
    · obtain ⟨hnone, hpendiente⟩ := hs.retirada y (hretirada y heq ▸ hy)
      exact ⟨(hbusca y heq).trans hnone,
        hpendiente.otra hllamadas (fun secret h => absurd h (hn y secret heq))⟩
  frescas := by
    intro m hm
    obtain ⟨hne, hle⟩ := hfrescas m hm
    rw [hllamadas, Function.update_of_ne hne]
    exact hs.frescas m hle

theorem Consistente.fresca_of_ne (hs : Consistente guardadas s) (hn : s.llamadas n ≠ .fin) {m : ℕ}
    (hm : s.lanzadas ≤ m) : m ≠ n ∧ s.lanzadas ≤ m := by
  refine ⟨?_, hm⟩
  intro heq
  exact hn (hs.frescas n (heq ▸ hm))

/-- The call `n` is over and nothing else has changed. -/
theorem Consistente.termina (hs : Consistente guardadas s) (hfin : s.llamadas n ≠ .fin)
    (hn : ∀ nombre secret, s.llamadas n = .convierte nombre secret → s.retirada nombre = false ∨
      ∃ n' secret', n' ≠ n ∧ s.llamadas n' = .convierte nombre secret') :
    Consistente guardadas (s.sigue n .fin) where
  distintos := hs.distintos
  tiene := fun nombre h => hs.tiene nombre h
  retirada := by
    intro nombre h
    obtain ⟨hnone, hpendiente⟩ := hs.retirada nombre h
    refine ⟨hnone, hpendiente.otra rfl ?_⟩
    intro secret hsecret
    rcases hn nombre secret hsecret with hno | hotra
    · have hsi : s.retirada nombre = true := h
      rw [hno] at hsi
      cases hsi
    · exact hotra
  frescas := by
    intro m hm
    obtain ⟨hne, hle⟩ := hs.fresca_of_ne hfin hm
    have h : Function.update s.llamadas n .fin m = .fin := by
      rw [Function.update_of_ne hne]
      exact hs.frescas m hle
    exact h

theorem Consistente.fresca_lanza (hs : Consistente guardadas s) (y : String)
    (secret : List UInt8) : s.llamadas s.lanzadas ≠ .convierte y secret := by
  rw [hs.frescas s.lanzadas (Nat.le_refl _)]
  nofun

theorem Consistente.saveIdentity (hs : Consistente guardadas s) (nombre : String)
    (secret : List UInt8) : Consistente guardadas (s.saveIdentity nombre secret) := by
  have hretirada : (s.saveIdentity nombre secret).retirada nombre =
      (s.retirada nombre || (busca s.nostrKeys nombre).isSome) :=
    Function.update_self nombre _ s.retirada
  apply hs.of_update (x := nombre) (n := s.lanzadas) rfl (nodup_removeWhere hs.distintos)
  · intro h
    rw [hretirada, Bool.or_eq_false_iff] at h
    -- nothing is dropped
    have hnone : busca s.nostrKeys nombre = none := by
      rw [← Option.not_isSome_iff_eq_none, h.2]
      nofun
    apply (hs.tiene nombre h.1).congr
    rw [hnone]
    exact busca_removeWhere
  · intro _
    exact ⟨busca_removeWhere, s.lanzadas, secret, Function.update_self s.lanzadas _ s.llamadas⟩
  · exact fun y hy => busca_removeWhere_of_ne hy
  · exact fun y hy => Function.update_of_ne hy _ s.retirada
  · exact fun _ _ => rfl
  · exact fun y secret _ => hs.fresca_lanza y secret
  · intro m hm
    have hlt : s.lanzadas + 1 ≤ m := hm
    omega

theorem Consistente.deleteIdentity (hs : Consistente guardadas s) (nombre : String) :
    Consistente guardadas (s.deleteIdentity nombre) := by
  have hretirada : (s.deleteIdentity nombre).retirada nombre = false :=
    Function.update_self nombre _ s.retirada
  have hhecha : (s.deleteIdentity nombre).hecha nombre = some (s.lanzadas, none) :=
    Function.update_self nombre _ s.hecha
  apply hs.of_update (x := nombre) (n := s.lanzadas) rfl (nodup_removeWhere hs.distintos)
  · intro _
    rw [hhecha]
    exact busca_removeWhere
  · intro h
    rw [hretirada] at h
    cases h
  · exact fun y hy => busca_removeWhere_of_ne hy
  · exact fun y hy => Function.update_of_ne hy _ s.retirada
  · exact fun y hy => Function.update_of_ne hy _ s.hecha
  · exact fun y secret _ => hs.fresca_lanza y secret
  · intro m hm
    have hlt : s.lanzadas + 1 ≤ m := hm
    omega

theorem posterior_of_lt {secret : List UInt8} {h : Option (ℕ × Option (List UInt8))}
    (hn : ∀ m v, h = some (m, v) → m < n) : posterior n secret h = some (n, some secret) := by
  rcases h with _ | ⟨m, v⟩
  · rfl
  · exact if_pos (hn m v rfl)

theorem Consistente.handleNpub (hs : Consistente guardadas s) {npub : String} {now : ℤ}
    {nombre : String} {secret : List UInt8} (hn : s.llamadas n = .convierte nombre secret)
    (hlibre : busca s.nostrKeys nombre = none)
    (hultima : ∀ m v, s.hecha nombre = some (m, v) → m < n) :
    Consistente guardadas (s.handleNpub n npub now (.convierte nombre secret)) := by
  have hretirada : (s.handleNpub n npub now (.convierte nombre secret)).retirada nombre = false :=
    Function.update_self nombre _ s.retirada
  have hhecha : (s.handleNpub n npub now (.convierte nombre secret)).hecha nombre =
      some (n, some secret) :=
    (Function.update_self nombre _ s.hecha).trans (posterior_of_lt hultima)
  apply hs.of_update (x := nombre) (n := n) (c := .guarda) rfl
    (nodup_append_identidad secret npub now hs.distintos hlibre)
  · intro _
    rw [hhecha]
    exact ⟨_, busca_append_identidad secret npub now hlibre, rfl⟩
  · intro h
    rw [hretirada] at h
    cases h
  · exact fun y hy => busca_append_identidad_of_ne secret npub now hy
  · exact fun y hy => Function.update_of_ne hy _ s.retirada
  · exact fun y hy => Function.update_of_ne hy _ s.hecha
  · intro y secret' hy h
    rw [hn] at h
    cases h
    exact hy rfl
  · exact fun m hm => hs.fresca_of_ne (by rw [hn]; nofun) hm

theorem paso_consistente {e : Evento} (hs : Consistente guardadas s) (he : EnTurno s e) :
    Consistente guardadas (s.paso e) := by
  cases e with
  | saveIdentity nombre secret => exact hs.saveIdentity nombre secret
  | deleteIdentity nombre => exact hs.deleteIdentity nombre
  | npub n npub now =>
    unfold paso
    dsimp only
    cases hn : s.llamadas n with
    | convierte nombre secret =>
      obtain ⟨hlibre, hultima⟩ := he nombre secret hn
      exact hs.handleNpub hn hlibre hultima
    | guarda => exact hs
    | fin => exact hs
  | guardado n =>
    unfold paso
    dsimp only
    cases hn : s.llamadas n with
    | convierte nombre secret => exact hs
    | guarda =>
      apply hs.termina
      · rw [hn]
        nofun
      · intro nombre secret h
        rw [hn] at h
        cases h
    | fin => exact hs
  | falla n =>
    unfold paso
    dsimp only
    cases hn : s.llamadas n with
    | convierte nombre secret => exact hs.termina (by rw [hn]; nofun) he
    | guarda => exact hs.termina (by rw [hn]; nofun) he
    | fin => exact hs

theorem inicial_consistente (h : (guardadas.map Identidad.nombre).Nodup) :
    Consistente guardadas (inicial guardadas) where
  distintos := h
  tiene := fun _ _ => rfl
  retirada := nofun
  frescas := fun _ _ => rfl

theorem loadSecret_of_busca {nombre : String} {secret : List UInt8} {k : Identidad}
    (hk : busca s.nostrKeys nombre = some k) (hhex : k.secretHex = Hex.encode secret)
    (hne : secret ≠ []) : s.loadSecret nombre = .ok (some secret) := by
  have hempty : k.secretHex ≠ "" := hhex ▸ Hex.encode_ne_empty hne
  have hfind : s.nostrKeys.find? (fun k => k.nombre = nombre ∧ k.secretHex ≠ "") = some k := by
    unfold busca at hk
    rw [List.find?_eq_some_iff_append] at hk ⊢
    obtain ⟨hnombre, as, bs, hl, has⟩ := hk
    refine ⟨?_, as, bs, hl, ?_⟩
    · exact decide_eq_true ⟨of_decide_eq_true hnombre, hempty⟩
    · intro a ha
      have hotro := has a ha
      simp only [Bool.not_eq_true', decide_eq_false_iff_not] at hotro ⊢
      exact fun h => hotro h.1
  unfold loadSecret
  rw [hfind]
  dsimp only
  rw [hhex, Hex.decode_encode]

theorem Consistente.correcto (hs : Consistente guardadas s) : Correcto guardadas s := by
  have htiene : ∀ nombre, ¬ s.Pendiente nombre → s.Tiene guardadas nombre (s.hecha nombre) := by
    intro nombre hno
    apply hs.tiene
    rw [← Bool.not_eq_true]
    exact fun h => hno (hs.retirada nombre h).2
  refine ⟨hs.distintos, htiene, ?_⟩
  intro nombre n secret hno hhecha hne
  have h := htiene nombre hno
  rw [hhecha] at h
  obtain ⟨k, hk, hhex⟩ := h
  exact loadSecret_of_busca hk hhex hne

theorem identidades (guardadas : List Identidad)
    (hguardadas : (guardadas.map Identidad.nombre).Nodup) (es : List Evento)
    (hes : Run.AllSteps paso EnTurno (inicial guardadas) es) :
    Run.Always paso (Correcto guardadas) (inicial guardadas) es := by
  apply Run.Always.imp (fun _ hs => Consistente.correcto hs)
  exact Run.always_of_allSteps (fun _ _ hs he => paso_consistente hs he)
    (inicial_consistente hguardadas) hes

theorem identidades_una_falla : Run.Always paso (Correcto []) (inicial [])
    [.saveIdentity "nerea" [1], .saveIdentity "bot" [2], .falla 0, .npub 1 "npub1" 5,
      .saveIdentity "nerea" [3], .npub 2 "npub2" 6, .deleteIdentity "bot", .guardado 3] := by
  apply identidades [] List.nodup_nil
  refine ⟨trivial, trivial, ?_, ?_, trivial, ?_, trivial, trivial, trivial⟩
  · intro nombre secret h
    cases h
    exact Or.inl rfl
  · intro nombre secret h
    cases h
    exact ⟨rfl, nofun⟩
  · intro nombre secret h
    cases h
    exact ⟨rfl, nofun⟩

/-- Two saves of one name overlap. -/
theorem saves_repeat_name : ¬ ∀ guardadas, (guardadas.map Identidad.nombre).Nodup → ∀ es,
    Run.Always paso (Correcto guardadas) (inicial guardadas) es := by
  intro h
  have hlast := (h [] List.nodup_nil [.saveIdentity "nerea" [1], .saveIdentity "nerea" [2],
    .npub 0 "npub1" 5, .npub 1 "npub2" 6]).last
  exact absurd hlast.distintos (by decide)

end NostrKeys
end Nerea.Nostr
