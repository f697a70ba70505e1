import Mathlib.Data.List.Basic
import Mathlib.Logic.Function.Basic
import Nerea.Shared.Run

/-!
# The ports the app opens on the router

A mapping is listed when the router's answer to `openPort` arrives and dropped when a close
is answered, whatever the answer. Between two answers the router goes on. When no close
that failed, or that was overtaken by an open, drops a mapping, and no discovery that fails
forgets the gateway, every mapping that is open on the router can still be closed.
-/

set_option autoImplicit false

namespace Nerea.Services

inductive PortType where
  | udp | tcp
  deriving DecidableEq

structure NatMapping where
  protocol : PortType
  externalPort : ℕ
  internalPort : ℕ
  description : String

def NatMapping.puerto (m : NatMapping) : PortType × ℕ := (m.protocol, m.externalPort)

/-- An object of the list, known by its number. -/
structure Entrada where
  numero : ℕ
  mapping : NatMapping

/-- What a call awaits: the discovery, the router, or the router's answer, which is `none`
when it is an exception. A `closeAll` also keeps the number the next object had when it was
called, and those of the objects whose close failed. -/
inductive Llamada where
  | discover (abre : Option NatMapping)
  | openPort (m : NatMapping)
  | openRespuesta (m : NatMapping) (ok : Option Bool)
  | closePort (puerto : PortType × ℕ)
  | closeRespuesta (puerto : PortType × ℕ) (ok : Option Bool)
  | closeAll (desde : ℕ) (fallidas : List ℕ) (e : Entrada) (resto : List Entrada)
  | closeAllRespuesta (desde : ℕ) (fallidas : List ℕ) (resto : List Entrada)
  | fin

/-- No `openPort`, `closePort` or `closeAll`. -/
def Llamada.quieta : Llamada → Bool
  | discover none => true
  | fin => true
  | _ => false

/-- It has found the gateway and opens a port. -/
def Llamada.abre : Llamada → Bool
  | openPort _ => true
  | openRespuesta _ _ => true
  | _ => false

/-- `router` is what the router has open for the app. -/
structure NatService where
  natEnabled : Bool
  gateway : Bool
  mappings : List Entrada
  numeros : ℕ
  router : PortType × ℕ → Bool
  llamadas : ℕ → Llamada
  lanzadas : ℕ

namespace NatService

inductive Evento where
  | natEnabled (b : Bool)
  | init
  | externalIp
  | openPort (protocol : PortType) (localPort : ℕ) (externalPort : Option ℕ)
      (description : Option String)
  | closePort (protocol : PortType) (externalPort : ℕ)
  | closeAll
  /-- The discovery ends, with a gateway or without. -/
  | descubre (n : ℕ) (hay : Bool)
  /-- The router does what it is asked for, or not, and answers. -/
  | atiende (n : ℕ) (hecho : Bool) (ok : Option Bool)
  | responde (n : ℕ)
  /-- The router closes a port by itself. -/
  | caduca (puerto : PortType × ℕ)

def sigue (s : NatService) (n : ℕ) (c : Llamada) : NatService :=
  { s with llamadas := Function.update s.llamadas n c }

def lanza (s : NatService) (c : Llamada) : NatService :=
  { s with lanzadas := s.lanzadas + 1 }.sigue s.lanzadas c

/-- What `discover` is awaited for: nothing, or to open a port. -/
def discover (s : NatService) (abre : Option NatMapping) : NatService :=
  if s.gateway then
    match abre with
    | none => s
    | some m => s.lanza (.openPort m)
  else s.lanza (.discover abre)

def openPort (s : NatService) (protocol : PortType) (localPort : ℕ) (externalPort : Option ℕ)
    (description : Option String) : NatService :=
  if s.natEnabled then
    s.discover (some {
      protocol := protocol
      externalPort := externalPort.getD localPort
      internalPort := localPort
      description := description.getD "mimapp" })
  else s

def closePort (s : NatService) (protocol : PortType) (externalPort : ℕ) : NatService :=
  if s.gateway then s.lanza (.closePort (protocol, externalPort)) else s

/-- It closes a copy of the list one by one. -/
def closeAll (s : NatService) : NatService :=
  if s.gateway then
    match s.mappings with
    | [] => s
    | e :: resto => s.lanza (.closeAll s.numeros [] e resto)
  else { s with mappings := [] }

def handleDescubre (s : NatService) (n : ℕ) (hay : Bool) : Llamada → NatService
  | .discover (some m) =>
    if hay then { s with gateway := true }.sigue n (.openPort m)
    else { s with gateway := false }.sigue n .fin
  | .discover none => { s with gateway := hay }.sigue n .fin
  | _ => s

def handleAtiende (s : NatService) (n : ℕ) (hecho : Bool) (ok : Option Bool) :
    Llamada → NatService
  | .openPort m =>
    { s with router := Function.update s.router m.puerto (s.router m.puerto || hecho) }.sigue n
      (.openRespuesta m ok)
  | .closePort puerto =>
    { s with router := Function.update s.router puerto (s.router puerto && !hecho) }.sigue n
      (.closeRespuesta puerto ok)
  | .closeAll desde fallidas e resto =>
    { s with
      router := Function.update s.router e.mapping.puerto
        (s.router e.mapping.puerto && !hecho) }.sigue n
      (.closeAllRespuesta desde (if ok = some true then fallidas else e.numero :: fallidas) resto)
  | _ => s

def handleResponde (s : NatService) (n : ℕ) : Llamada → NatService
  | .openRespuesta m ok =>
    if ok = some true then
      { s with
        mappings := s.mappings ++ [Entrada.mk s.numeros m]
        numeros := s.numeros + 1 }.sigue n .fin
    else s.sigue n .fin
  | .closeRespuesta puerto _ =>
    -- whatever the answer was
    { s with mappings := s.mappings.filter (fun e => e.mapping.puerto ≠ puerto) }.sigue n .fin
  | .closeAllRespuesta _ _ [] => { s with mappings := [] }.sigue n .fin
  | .closeAllRespuesta desde fallidas (e :: resto) => s.sigue n (.closeAll desde fallidas e resto)
  | _ => s

def paso (s : NatService) : Evento → NatService
  | .natEnabled b => { s with natEnabled := b }
  | .init => if s.natEnabled then s.discover none else s
  | .externalIp => s.discover none
  | .openPort protocol localPort externalPort description =>
    s.openPort protocol localPort externalPort description
  | .closePort protocol externalPort => s.closePort protocol externalPort
  | .closeAll => s.closeAll
  | .descubre n hay => s.handleDescubre n hay (s.llamadas n)
  | .atiende n hecho ok => s.handleAtiende n hecho ok (s.llamadas n)
  | .responde n => s.handleResponde n (s.llamadas n)
  | .caduca puerto => { s with router := Function.update s.router puerto false }

def inicial (natEnabled : Bool) : NatService where
  natEnabled := natEnabled
  gateway := false
  mappings := []
  numeros := 0
  router := fun _ => false
  llamadas := fun _ => .fin
  lanzadas := 0

def Listado (s : NatService) (puerto : PortType × ℕ) : Prop :=
  ∃ e ∈ s.mappings, e.mapping.puerto = puerto

/-- With nothing pending, what is open on the router is listed and there is a gateway to ask
for its removal. -/
def SinOlvido (s : NatService) : Prop :=
  (∀ n, (s.llamadas n).quieta = true) → ∀ puerto, s.router puerto = true →
    s.gateway = true ∧ s.Listado puerto

/-- A close that failed drops no entry, and a `closeAll` that ends none of those made since it
was called. -/
def Conserva (s : NatService) : Evento → Prop
  | .responde n =>
    match s.llamadas n with
    | .closeRespuesta puerto ok => ok ≠ some true → ∀ e ∈ s.mappings,
        e.mapping.puerto = puerto → e ∈ (s.paso (.responde n)).mappings
    | .closeAllRespuesta desde fallidas _ => ∀ e ∈ s.mappings,
        desde ≤ e.numero ∨ e.numero ∈ fallidas → e ∈ (s.paso (.responde n)).mappings
    | _ => True
  | _ => True

/-- The answer to the `openPort` that opened it is on its way. -/
def EnCamino (s : NatService) (puerto : PortType × ℕ) : Prop :=
  ∃ n m, s.llamadas n = .openRespuesta m (some true) ∧ m.puerto = puerto

/-- What the router opens it confirms; a discovery fails only when no other has found the
gateway meanwhile, or nothing is open or being opened; and a close is answered, and the last
of a `closeAll`, when the ports it drops are closed or about to be listed anew, none of the
entries it drops had its close fail, and `closeAll` drops only what was there. -/
def EnTurno (s : NatService) : Evento → Prop
  | .atiende n hecho ok => ∀ m, s.llamadas n = .openPort m → hecho = true → ok = some true
  | .descubre n hay => ∀ abre, s.llamadas n = .discover abre → hay = true ∨ s.gateway = false ∨
      (∀ puerto, s.router puerto = false) ∧ ∀ n', (s.llamadas n').abre = false
  | .responde n =>
    match s.llamadas n with
    | .closeRespuesta puerto ok => (s.router puerto = false ∨ s.EnCamino puerto) ∧
        (ok = some true ∨ ¬ s.Listado puerto)
    | .closeAllRespuesta desde fallidas [] => ∀ e ∈ s.mappings,
        (s.router e.mapping.puerto = false ∨ s.EnCamino e.mapping.puerto) ∧
        e.numero < desde ∧ e.numero ∉ fallidas
    | _ => True
  | _ => True

/-- Between two answers. -/
structure Cubierto (s : NatService) : Prop where
  listado : ∀ puerto, s.router puerto = true → s.Listado puerto ∨ s.EnCamino puerto
  router : ∀ puerto, s.router puerto = true → s.gateway = true
  abre : ∀ n, (s.llamadas n).abre = true → s.gateway = true
  frescas : ∀ n, s.lanzadas ≤ n → s.llamadas n = .fin

variable {s s' : NatService} {n : ℕ} {c : Llamada}

theorem EnCamino.otra {puerto : PortType × ℕ} (h : s.EnCamino puerto)
    (hllamadas : s'.llamadas = Function.update s.llamadas n c)
    (hn : ∀ m, s.llamadas n = .openRespuesta m (some true) → m.puerto ≠ puerto) :
    s'.EnCamino puerto := by
  obtain ⟨n', m, hm, hpuerto⟩ := h
  refine ⟨n', m, ?_, hpuerto⟩
  have hne : n' ≠ n := by
    intro heq
    exact hn m (heq ▸ hm) hpuerto
  rw [hllamadas, Function.update_of_ne hne]
  exact hm

/-- The call `n` goes on with `c`. -/
theorem Cubierto.of_update (hs : Cubierto s)
    (hllamadas : s'.llamadas = Function.update s.llamadas n c)
    (hlistado : ∀ puerto, s'.router puerto = true → s'.Listado puerto ∨ s'.EnCamino puerto)
    (hrouter : ∀ puerto, s'.router puerto = true → s'.gateway = true)
    (habre : ∀ n', (s.llamadas n').abre = true → s'.gateway = true)
    (hc : c.abre = true → s'.gateway = true)
    (hfrescas : ∀ m, s'.lanzadas ≤ m → m ≠ n ∧ s.lanzadas ≤ m) : Cubierto s' where
  listado := hlistado
  router := hrouter
  abre := by
    intro n' hn'
    rw [hllamadas] at hn'
    by_cases heq : n' = n
    · rw [heq, Function.update_self] at hn'
      exact hc hn'
    · rw [Function.update_of_ne heq] at hn'
      exact habre n' hn'
  frescas := by
    intro m hm
    obtain ⟨hne, hle⟩ := hfrescas m hm
    rw [hllamadas, Function.update_of_ne hne]
    exact hs.frescas m hle

/-- The list stays and the router opens nothing. -/
theorem Cubierto.mueve (hs : Cubierto s)
    (hllamadas : s'.llamadas = Function.update s.llamadas n c)
    (hmappings : s'.mappings = s.mappings)
    (hrouter : ∀ puerto, s'.router puerto = true → s.router puerto = true)
    (hgateway : s.gateway = true → s'.gateway = true) (hc : c.abre = true → s'.gateway = true)
    (hn : ∀ m, s.llamadas n ≠ .openRespuesta m (some true))
    (hfrescas : ∀ m, s'.lanzadas ≤ m → m ≠ n ∧ s.lanzadas ≤ m) : Cubierto s' := by
  apply hs.of_update hllamadas
  · intro puerto hpuerto
    rcases hs.listado puerto (hrouter puerto hpuerto) with ⟨e, he, hep⟩ | hcamino
    · exact Or.inl ⟨e, hmappings ▸ he, hep⟩
    · exact Or.inr (hcamino.otra hllamadas (fun m hm => absurd hm (hn m)))
  · intro puerto hpuerto
    exact hgateway (hs.router puerto (hrouter puerto hpuerto))
  · exact fun n' hn' => hgateway (hs.abre n' hn')
  · exact hc
  · exact hfrescas

theorem Cubierto.fresca_of_ne (hs : Cubierto s) (hn : s.llamadas n ≠ .fin) {m : ℕ}
    (hm : s.lanzadas ≤ m) : m ≠ n ∧ s.lanzadas ≤ m := by
  refine ⟨?_, hm⟩
  intro heq
  exact hn (hs.frescas n (heq ▸ hm))

theorem Cubierto.lanza (hs : Cubierto s) (hc : c.abre = true → s.gateway = true) :
    Cubierto (s.lanza c) := by
  have hfin := hs.frescas s.lanzadas (Nat.le_refl _)
  refine hs.mueve rfl rfl (fun _ h => h) (fun h => h) hc ?_ ?_
  · intro m hm
    rw [hfin] at hm
    cases hm
  · intro m hm
    have hlt : s.lanzadas + 1 ≤ m := hm
    omega

theorem Cubierto.discover (hs : Cubierto s) (abre : Option NatMapping) :
    Cubierto (s.discover abre) := by
  unfold NatService.discover
  split
  · rename_i hgateway
    cases abre with
    | none => exact hs
    | some m => exact hs.lanza (fun _ => hgateway)
  · exact hs.lanza nofun

theorem Cubierto.closeAll (hs : Cubierto s) : Cubierto s.closeAll := by
  unfold NatService.closeAll
  split
  · split
    · exact hs
    · exact hs.lanza nofun
  · rename_i hgateway
    -- nothing is open without a gateway
    refine ⟨?_, hs.router, hs.abre, hs.frescas⟩
    intro puerto hpuerto
    exact absurd (hs.router puerto hpuerto) hgateway

theorem Cubierto.descubre (hs : Cubierto s) {hay : Bool} {abre : Option NatMapping}
    (hn : s.llamadas n = .discover abre) (hord : EnTurno s (.descubre n hay))
    (hc : c.abre = true → hay = true) : Cubierto ({ s with gateway := hay }.sigue n c) := by
  have hordn := hord abre hn
  apply hs.of_update rfl
  · intro puerto hpuerto
    rcases hs.listado puerto hpuerto with hlistado | hcamino
    · exact Or.inl hlistado
    · right
      apply hcamino.otra rfl
      intro m hm
      rw [hn] at hm
      cases hm
  · intro puerto hpuerto
    rcases hordn with hhay | hgateway | ⟨hrouter, -⟩
    · exact hhay
    · rw [hs.router puerto hpuerto] at hgateway
      cases hgateway
    · have hcerrado : s.router puerto = true := hpuerto
      rw [hrouter puerto] at hcerrado
      cases hcerrado
  · intro n' hn'
    rcases hordn with hhay | hgateway | ⟨-, habre⟩
    · exact hhay
    · rw [hs.abre n' hn'] at hgateway
      cases hgateway
    · rw [habre n'] at hn'
      cases hn'
  · exact hc
  · intro m hm
    exact hs.fresca_of_ne (by rw [hn]; nofun) hm

theorem Cubierto.handleDescubre (hs : Cubierto s) {hay : Bool}
    (hord : EnTurno s (.descubre n hay)) :
    Cubierto (s.handleDescubre n hay (s.llamadas n)) := by
  cases hn : s.llamadas n with
  | discover abre =>
    cases abre with
    | none => exact hs.descubre hn hord nofun
    | some m =>
      cases hay with
      | true => exact hs.descubre hn hord (fun _ => rfl)
      | false => exact hs.descubre hn hord nofun
  | openPort m => exact hs
  | openRespuesta m ok => exact hs
  | closePort puerto => exact hs
  | closeRespuesta puerto ok => exact hs
  | closeAll desde fallidas e resto => exact hs
  | closeAllRespuesta desde fallidas resto => exact hs
  | fin => exact hs

theorem abierto_of_cierra {router : PortType × ℕ → Bool} {puerto puerto' : PortType × ℕ} {b : Bool}
    (h : Function.update router puerto (router puerto && b) puerto' = true) :
    router puerto' = true := by
  by_cases heq : puerto' = puerto
  · rw [heq, Function.update_self, Bool.and_eq_true] at h
    exact heq ▸ h.1
  · rwa [Function.update_of_ne heq] at h

/-- The router opens the port of `n` and confirms it, or opens nothing. -/
theorem Cubierto.abierto (hs : Cubierto s) {m : NatMapping} {hecho : Bool} {ok : Option Bool}
    (hn : s.llamadas n = .openPort m) (hord : hecho = true → ok = some true) :
    Cubierto ({ s with
      router := Function.update s.router m.puerto (s.router m.puerto || hecho) }.sigue n
        (.openRespuesta m ok)) := by
  have habre : s.gateway = true := hs.abre n (by rw [hn]; rfl)
  apply hs.of_update rfl
  · intro puerto hpuerto
    have hotro : s.router puerto = true ∨ puerto = m.puerto ∧ hecho = true := by
      by_cases heq : puerto = m.puerto
      · have h : (s.router m.puerto || hecho) = true := by
          rw [heq] at hpuerto
          exact (Function.update_self m.puerto (s.router m.puerto || hecho) s.router) ▸ hpuerto
        rcases Bool.or_eq_true_iff.mp h with h | h
        · exact Or.inl (heq ▸ h)
        · exact Or.inr ⟨heq, h⟩
      · have h : Function.update s.router m.puerto (s.router m.puerto || hecho) puerto = true :=
          hpuerto
        rw [Function.update_of_ne heq] at h
        exact Or.inl h
    rcases hotro with hpuerto | ⟨heq, hhecho⟩
    · rcases hs.listado puerto hpuerto with hlistado | hcamino
      · exact Or.inl hlistado
      · right
        apply hcamino.otra rfl
        intro m' hm'
        rw [hn] at hm'
        cases hm'
    · right
      refine ⟨n, m, ?_, heq.symm⟩
      rw [← hord hhecho]
      exact Function.update_self n _ s.llamadas
  · exact fun _ _ => habre
  · exact fun _ _ => habre
  · exact fun _ => habre
  · intro m hm
    exact hs.fresca_of_ne (by rw [hn]; nofun) hm

theorem Cubierto.cierra (hs : Cubierto s) {puerto : PortType × ℕ} {b : Bool}
    (hno : (s.llamadas n).abre = false) (hfin : s.llamadas n ≠ .fin) (hc : c.abre = false) :
    Cubierto ({ s with
      router := Function.update s.router puerto (s.router puerto && b) }.sigue n c) := by
  refine hs.mueve rfl rfl (fun _ h => abierto_of_cierra h) (fun h => h) ?_ ?_
    (fun m hm => hs.fresca_of_ne hfin hm)
  · intro h
    rw [hc] at h
    cases h
  · intro m hm
    rw [hm] at hno
    cases hno

theorem Cubierto.handleAtiende (hs : Cubierto s) {hecho : Bool} {ok : Option Bool}
    (hord : EnTurno s (.atiende n hecho ok)) :
    Cubierto (s.handleAtiende n hecho ok (s.llamadas n)) := by
  cases hn : s.llamadas n with
  | openPort m => exact hs.abierto hn (hord m hn)
  | closePort puerto => exact hs.cierra (by rw [hn]; rfl) (by rw [hn]; nofun) rfl
  | closeAll desde fallidas e resto =>
    exact hs.cierra (by rw [hn]; rfl) (by rw [hn]; nofun) rfl
  | discover abre => exact hs
  | openRespuesta m ok => exact hs
  | closeRespuesta puerto ok => exact hs
  | closeAllRespuesta desde fallidas resto => exact hs
  | fin => exact hs

/-- The answer to `n` drops from the list only what is closed or on its way. -/
theorem Cubierto.descarta (hs : Cubierto s) {mappings : List Entrada}
    (hno : (s.llamadas n).abre = false) (hfin : s.llamadas n ≠ .fin)
    (hdescarta : ∀ e ∈ s.mappings, e ∈ mappings ∨
      s.router e.mapping.puerto = false ∨ s.EnCamino e.mapping.puerto) :
    Cubierto ({ s with mappings := mappings }.sigue n .fin) := by
  have hcamino : ∀ puerto, s.EnCamino puerto →
      ({ s with mappings := mappings }.sigue n .fin).EnCamino puerto := by
    intro puerto hcamino
    apply hcamino.otra rfl
    intro m hm
    rw [hm] at hno
    cases hno
  apply hs.of_update rfl
  · intro puerto hpuerto
    rcases hs.listado puerto hpuerto with ⟨e, he, hep⟩ | hen
    · rcases hdescarta e he with hqueda | hcerrado | hen
      · exact Or.inl ⟨e, hqueda, hep⟩
      · have habierto : s.router puerto = true := hpuerto
        rw [← hep, hcerrado] at habierto
        cases habierto
      · exact Or.inr (hcamino puerto (hep ▸ hen))
    · exact Or.inr (hcamino puerto hen)
  · exact hs.router
  · exact hs.abre
  · nofun
  · exact fun m hm => hs.fresca_of_ne hfin hm

/-- The mapping is listed. -/
theorem Cubierto.anota (hs : Cubierto s) {m : NatMapping}
    (hn : s.llamadas n = .openRespuesta m (some true)) :
    Cubierto (s.handleResponde n (.openRespuesta m (some true))) := by
  apply hs.of_update (n := n) (c := .fin) rfl
  · intro puerto hpuerto
    by_cases heq : m.puerto = puerto
    · exact Or.inl ⟨⟨s.numeros, m⟩, List.mem_append_right _ List.mem_cons_self, heq⟩
    · rcases hs.listado puerto hpuerto with ⟨e, he, hep⟩ | hcamino
      · exact Or.inl ⟨e, List.mem_append_left _ he, hep⟩
      · right
        apply hcamino.otra (n := n) (c := .fin) rfl
        intro m' hm'
        rw [hn] at hm'
        cases hm'
        exact heq
  · exact hs.router
  · exact hs.abre
  · nofun
  · exact fun m hm => hs.fresca_of_ne (by rw [hn]; nofun) hm

theorem Cubierto.handleResponde (hs : Cubierto s) (hord : EnTurno s (.responde n)) :
    Cubierto (s.handleResponde n (s.llamadas n)) := by
  unfold EnTurno at hord
  dsimp only at hord
  cases hn : s.llamadas n with
  | openRespuesta m ok =>
    by_cases hok : ok = some true
    · rw [hok] at hn ⊢
      exact hs.anota hn
    · rw [NatService.handleResponde, if_neg hok]
      refine hs.mueve (c := .fin) rfl rfl (fun _ h => h) (fun h => h) nofun ?_
        (fun m hm => hs.fresca_of_ne (by rw [hn]; nofun) hm)
      intro m' hm'
      rw [hn] at hm'
      cases hm'
      exact hok rfl
  | closeRespuesta puerto ok =>
    rw [hn] at hord
    apply hs.descarta
    · rw [hn]
      rfl
    · rw [hn]
      nofun
    · intro e he
      by_cases hep : e.mapping.puerto = puerto
      · exact Or.inr (hep ▸ hord.1)
      · exact Or.inl (List.mem_filter.mpr ⟨he, decide_eq_true hep⟩)
  | closeAllRespuesta desde fallidas resto =>
    rw [hn] at hord
    cases resto with
    | nil =>
      apply hs.descarta
      · rw [hn]
        rfl
      · rw [hn]
        nofun
      · exact fun e he => Or.inr (hord e he).1
    | cons e resto =>
      refine hs.mueve (c := .closeAll desde fallidas e resto) rfl rfl (fun _ h => h) (fun h => h)
        nofun ?_ (fun m hm => hs.fresca_of_ne (by rw [hn]; nofun) hm)
      intro m hm
      rw [hn] at hm
      cases hm
  | discover abre => exact hs
  | openPort m => exact hs
  | closePort puerto => exact hs
  | closeAll desde fallidas e resto => exact hs
  | fin => exact hs

theorem Cubierto.caduca (hs : Cubierto s) (puerto : PortType × ℕ) :
    Cubierto { s with router := Function.update s.router puerto false } := by
  have hmenos : ∀ puerto', Function.update s.router puerto false puerto' = true →
      s.router puerto' = true := by
    intro puerto' h
    by_cases heq : puerto' = puerto
    · rw [heq, Function.update_self] at h
      cases h
    · rwa [Function.update_of_ne heq] at h
  refine ⟨?_, ?_, hs.abre, hs.frescas⟩
  · exact fun puerto' h => hs.listado puerto' (hmenos puerto' h)
  · exact fun puerto' h => hs.router puerto' (hmenos puerto' h)

theorem paso_cubierto {e : Evento} (hs : Cubierto s) (he : EnTurno s e) : Cubierto (s.paso e) := by
  cases e with
  | natEnabled b => exact ⟨hs.listado, hs.router, hs.abre, hs.frescas⟩
  | init =>
    unfold paso
    dsimp only
    split
    · exact hs.discover none
    · exact hs
  | externalIp => exact hs.discover none
  | openPort protocol localPort externalPort description =>
    unfold paso NatService.openPort
    dsimp only
    split
    · exact hs.discover _
    · exact hs
  | closePort protocol externalPort =>
    unfold paso NatService.closePort
    dsimp only
    split
    · exact hs.lanza nofun
    · exact hs
  | closeAll => exact hs.closeAll
  | descubre n hay => exact hs.handleDescubre he
  | atiende n hecho ok => exact hs.handleAtiende he
  | responde n => exact hs.handleResponde he
  | caduca puerto => exact hs.caduca puerto

theorem inicial_cubierto (natEnabled : Bool) : Cubierto (inicial natEnabled) where
  listado := nofun
  router := nofun
  abre := nofun
  frescas := fun _ _ => rfl

theorem Cubierto.sinOlvido (hs : Cubierto s) : SinOlvido s := by
  intro hquieta puerto hpuerto
  refine ⟨hs.router puerto hpuerto, ?_⟩
  rcases hs.listado puerto hpuerto with hlistado | ⟨n, m, hn, -⟩
  · exact hlistado
  · have hn' := hquieta n
    rw [hn] at hn'
    cases hn'

theorem conserva_of_enTurno {e : Evento} (he : EnTurno s e) : Conserva s e := by
  cases e with
  | responde n =>
    unfold Conserva
    dsimp only
    cases hn : s.llamadas n with
    | closeRespuesta puerto ok =>
      unfold EnTurno at he
      dsimp only at he
      rw [hn] at he
      intro hok e hmem hep
      rcases he.2 with hsi | hno
      · exact absurd hsi hok
      · exact absurd ⟨e, hmem, hep⟩ hno
    | closeAllRespuesta desde fallidas resto =>
      intro e hmem hconserva
      cases resto with
      | nil =>
        unfold EnTurno at he
        dsimp only at he
        rw [hn] at he
        obtain ⟨-, hlt, hfallida⟩ := he e hmem
        rcases hconserva with hle | hen
        · omega
        · exact absurd hen hfallida
      | cons e' resto =>
        unfold paso
        dsimp only
        rw [hn]
        exact hmem
    | discover abre => exact trivial
    | openPort m => exact trivial
    | openRespuesta m ok => exact trivial
    | closePort puerto => exact trivial
    | closeAll desde fallidas e resto => exact trivial
    | fin => exact trivial
  | natEnabled b => exact trivial
  | init => exact trivial
  | externalIp => exact trivial
  | openPort protocol localPort externalPort description => exact trivial
  | closePort protocol externalPort => exact trivial
  | closeAll => exact trivial
  | descubre n hay => exact trivial
  | atiende n hecho ok => exact trivial
  | caduca puerto => exact trivial

theorem sin_olvidos (natEnabled : Bool) (es : List Evento)
    (hes : Run.AllSteps paso EnTurno (inicial natEnabled) es) :
    Run.Always paso SinOlvido (inicial natEnabled) es ∧
      Run.AllSteps paso Conserva (inicial natEnabled) es := by
  constructor
  · apply Run.Always.imp (fun _ hs => Cubierto.sinOlvido hs)
    exact Run.always_of_allSteps (fun _ _ hs he => paso_cubierto hs he)
      (inicial_cubierto natEnabled) hes
  · exact hes.imp (fun _ _ he => conserva_of_enTurno he)

theorem sin_olvidos_dos_puertos :
    Run.Always paso SinOlvido (inicial true)
      [.openPort .udp 6881 none none, .descubre 0 true, .atiende 0 true (some true), .responde 0,
        .openPort .tcp 80 (some 8080) none, .atiende 1 true (some true), .responde 1,
        .closePort .udp 6881, .atiende 2 true (some true), .responde 2, .closeAll,
        .atiende 3 true (some true), .responde 3] ∧
    Run.AllSteps paso Conserva (inicial true)
      [.openPort .udp 6881 none none, .descubre 0 true, .atiende 0 true (some true), .responde 0,
        .openPort .tcp 80 (some 8080) none, .atiende 1 true (some true), .responde 1,
        .closePort .udp 6881, .atiende 2 true (some true), .responde 2, .closeAll,
        .atiende 3 true (some true), .responde 3] := by
  apply sin_olvidos
  refine ⟨trivial, fun _ _ => Or.inl rfl, fun _ _ _ => rfl, trivial, trivial, fun _ _ _ => rfl,
    trivial, trivial, nofun, ⟨Or.inl rfl, Or.inl rfl⟩, trivial, nofun, ?_, trivial⟩
  intro e he
  rw [List.mem_singleton.mp he]
  exact ⟨Or.inl rfl, Nat.lt_succ_self 1, List.not_mem_nil⟩

/-- The router does not answer the close. -/
theorem closePort_forgets : ¬ ∀ natEnabled es,
    Run.Always paso SinOlvido (inicial natEnabled) es ∧
      Run.AllSteps paso Conserva (inicial natEnabled) es := by
  intro h
  have hlast := (h true [.openPort .udp 6881 none none, .descubre 0 true,
    .atiende 0 true (some true), .responde 0, .closePort .udp 6881, .atiende 1 false none,
    .responde 1]).1.last
  have hquieta : ∀ n, ((Run.run paso (inicial true) [.openPort .udp 6881 none none,
      .descubre 0 true, .atiende 0 true (some true), .responde 0, .closePort .udp 6881,
      .atiende 1 false none, .responde 1]).llamadas n).quieta = true := by
    intro n
    rcases n with _ | _ | n
    · rfl
    · rfl
    · rfl
  obtain ⟨-, e, he, -⟩ := hlast hquieta (.udp, 6881) rfl
  cases he

end NatService
end Nerea.Services
