import Nerea.Colab.Connection
import Nerea.Colab.RuntimeSteps

/-!
# Threads on one connection

At most one thread connects, and while a `close` is under way only one that was overtaken.
A thread moves in one of three ways: it stops changing the connection, it is the only one
to change it, or it closes.
-/

set_option autoImplicit false

namespace Nerea.Colab

namespace ColabRuntime

open Conexion

variable {p : Plataforma} {s s' : ColabRuntime} {h : HiloId} {pc : Pc} {estricto : Prop}

def Quieto (s : ColabRuntime) : Prop :=
  ∀ x ∈ s.hilos, x.pc.arranca = false ∧ x.pc.cierra = false

theorem forall_hilos {s : ColabRuntime} {P : Pc → Prop} :
    (∀ x ∈ s.hilos, P x.pc) ↔ ∀ h pc, s.pcOf h = some pc → P pc := by
  constructor
  · intro hs h pc hpc
    obtain ⟨x, hx, rfl⟩ := pcOf_eq_some.mp hpc
    exact hs x (List.mem_of_getElem? hx)
  · intro hs x hx
    obtain ⟨h, hh⟩ := List.getElem?_of_mem hx
    exact hs h x.pc (pcOf_eq_some.mpr ⟨x, hh, rfl⟩)

theorem quieto_iff : s.Quieto ↔
    ∀ h pc, s.pcOf h = some pc → pc.arranca = false ∧ pc.cierra = false :=
  forall_hilos (P := fun pc => pc.arranca = false ∧ pc.cierra = false)

def Cerrando (s : ColabRuntime) : Prop := ∃ h pc, s.pcOf h = some pc ∧ pc.cierra = true

/-- One thread at most connects, and while a `close` is under way only an overtaken one. -/
structure Ciclo (estricto : Prop) (s : ColabRuntime) : Prop where
  base : s.toConexion.Base
  turnos : ∀ h pc, s.pcOf h = some pc → s.toConexion.Turno estricto pc
  unico : ∀ h h' pc pc', s.pcOf h = some pc → s.pcOf h' = some pc' → pc.arranca = true →
    pc'.arranca = true → h = h'
  cierre : s.Cerrando → ∀ h pc, s.pcOf h = some pc → pc.arranca = true →
    ∃ gen k, pc = .abriendo gen k ∧ gen ≠ s.gen
  enlazada : s.started = true → s.Cerrando ∨ s.toConexion.Enlazada

/-- Only the thread `h` moves, to `pc`. -/
structure Mueve (h : HiloId) (pc : Pc) (s s' : ColabRuntime) : Prop where
  otros : ∀ h', h' ≠ h → s'.pcOf h' = s.pcOf h'
  propio : s'.pcOf h = some pc

theorem mueve_of_modify {f : Hilo → Hilo} {x : Hilo} (hx : s.hilos[h]? = some x)
    (hhilos : s'.hilos = s.hilos.modify h f) (hpc : (f x).pc = pc) : Mueve h pc s s' := by
  refine ⟨?_, ?_⟩
  · intro h' hne
    rw [pcOf, hhilos, List.getElem?_modify_ne _ _ (Ne.symm hne), pcOf]
  · rw [pcOf, hhilos, List.getElem?_modify_eq, hx]
    exact congrArg some hpc

theorem Mueve.dos {s'' : ColabRuntime} {pc' : Pc} (hm : Mueve h pc s s')
    (hm' : Mueve h pc' s s'') : Mueve h pc' s' s'' :=
  ⟨fun h' hne => (hm'.otros h' hne).trans (hm.otros h' hne).symm, hm'.propio⟩

theorem Ciclo.sale (hs : Ciclo estricto s) (hm : Mueve h pc s s') (harranca : pc.arranca = false)
    (hcierra : pc.cierra = false) (hbase : s'.toConexion.Base) (hgen : s'.gen = s.gen)
    (hturnos : ∀ h' pc', h' ≠ h → s.pcOf h' = some pc' →
      s.toConexion.Turno estricto pc' → s'.toConexion.Turno estricto pc')
    (henlazada : s'.started = true → s'.Cerrando ∨ s'.toConexion.Enlazada) :
    Ciclo estricto s' := by
  have hother {h' : HiloId} {pc' : Pc} (hpc' : s'.pcOf h' = some pc')
      (hne : pc'.arranca = true ∨ pc'.cierra = true) : h' ≠ h ∧ s.pcOf h' = some pc' := by
    by_cases heq : h' = h
    · rw [heq] at hpc'
      obtain rfl := Option.some.inj (hm.propio.symm.trans hpc')
      rcases hne with hne | hne
      · exact absurd (harranca.symm.trans hne) Bool.false_ne_true
      · exact absurd (hcierra.symm.trans hne) Bool.false_ne_true
    · exact ⟨heq, hm.otros h' heq ▸ hpc'⟩
  refine ⟨hbase, ?_, ?_, ?_, henlazada⟩
  · intro h' pc' hpc'
    by_cases heq : h' = h
    · rw [heq] at hpc'
      obtain rfl := Option.some.inj (hm.propio.symm.trans hpc')
      exact turno_of_quieto _ _ harranca hcierra
    · have hold : s.pcOf h' = some pc' := hm.otros h' heq ▸ hpc'
      exact hturnos h' pc' heq hold (hs.turnos h' pc' hold)
  · intro h₁ h₂ pc₁ pc₂ hpc₁ hpc₂ ha₁ ha₂
    exact hs.unico h₁ h₂ pc₁ pc₂ (hother hpc₁ (Or.inl ha₁)).2 (hother hpc₂ (Or.inl ha₂)).2 ha₁ ha₂
  · intro hc₁ h' pc' hpc' ha'
    rcases hc₁ with ⟨h₁, pc₁, hpc₁, hc₁⟩
    rw [hgen]
    exact hs.cierre ⟨h₁, pc₁, (hother hpc₁ (Or.inr hc₁)).2, hc₁⟩ h' pc'
      (hother hpc' (Or.inl ha')).2 ha'

theorem ciclo_entra (hm : Mueve h pc s s')
    (hquieto : ∀ h' pc', h' ≠ h → s.pcOf h' = some pc' → pc'.arranca = false ∧ pc'.cierra = false)
    (hcierra : pc.cierra = false) (hbase : s'.toConexion.Base)
    (hturno : s'.toConexion.Turno estricto pc)
    (henlazada : s'.started = true → s'.toConexion.Enlazada) : Ciclo estricto s' := by
  have hother {h' : HiloId} {pc' : Pc} (hne : h' ≠ h) (hpc' : s'.pcOf h' = some pc') :
      pc'.arranca = false ∧ pc'.cierra = false :=
    hquieto h' pc' hne (hm.otros h' hne ▸ hpc')
  have hself {h' : HiloId} {pc' : Pc} (hpc' : s'.pcOf h' = some pc')
      (ha' : pc'.arranca = true) : h' = h := by
    by_contra hne
    exact absurd ((hother hne hpc').1.symm.trans ha') Bool.false_ne_true
  refine ⟨hbase, ?_, ?_, ?_, fun hstarted => Or.inr (henlazada hstarted)⟩
  · intro h' pc' hpc'
    by_cases heq : h' = h
    · rw [heq] at hpc'
      obtain rfl := Option.some.inj (hm.propio.symm.trans hpc')
      exact hturno
    · exact turno_of_quieto _ _ (hother heq hpc').1 (hother heq hpc').2
  · intro h₁ h₂ pc₁ pc₂ hpc₁ hpc₂ ha₁ ha₂
    exact (hself hpc₁ ha₁).trans (hself hpc₂ ha₂).symm
  · intro hc₁
    rcases hc₁ with ⟨h₁, pc₁, hpc₁, hc₁⟩
    by_cases heq : h₁ = h
    · rw [heq] at hpc₁
      obtain rfl := Option.some.inj (hm.propio.symm.trans hpc₁)
      exact absurd (hcierra.symm.trans hc₁) Bool.false_ne_true
    · exact absurd ((hother heq hpc₁).2.symm.trans hc₁) Bool.false_ne_true

/-- The thread closes, and whoever still connects was overtaken. -/
theorem Ciclo.cierraPc (hs : Ciclo estricto s) (hm : Mueve h pc s s') (hcierra : pc.cierra = true)
    (hbase : s'.toConexion.Base) (hstarted : estricto → s'.started = false)
    (hstarted' : ∀ h' pc', h' ≠ h → s.pcOf h' = some pc' → pc'.arranca = true →
      s'.started = false)
    (hviejos : ∀ h' pc', h' ≠ h → s.pcOf h' = some pc' → pc'.arranca = true →
      ∃ gen k, pc' = .abriendo gen k ∧ gen ≠ s'.gen)
    (hchannel : s'.channel = none ∨ s'.channel = s.channel)
    (hconectan : Conectan s.toConexion s'.toConexion) : Ciclo estricto s' := by
  have harranca : pc.arranca = false := by
    cases pc <;> first | rfl | cases hcierra
  have hother {h' : HiloId} {pc' : Pc} (hpc' : s'.pcOf h' = some pc')
      (ha' : pc'.arranca = true) : h' ≠ h ∧ s.pcOf h' = some pc' := by
    by_cases heq : h' = h
    · rw [heq] at hpc'
      obtain rfl := Option.some.inj (hm.propio.symm.trans hpc')
      exact absurd (harranca.symm.trans ha') Bool.false_ne_true
    · exact ⟨heq, hm.otros h' heq ▸ hpc'⟩
  refine ⟨hbase, ?_, ?_, ?_, fun _ => Or.inl ⟨h, pc, hm.propio, hcierra⟩⟩
  · intro h' pc' hpc'
    cases ha' : pc'.arranca with
    | true =>
      obtain ⟨hne, hold⟩ := hother hpc' ha'
      obtain ⟨gen, k, rfl, hgen⟩ := hviejos h' pc' hne hold ha'
      exact turno_abriendo_of_ne (hs.turnos h' _ hold) hgen (hstarted' h' _ hne hold ha') hchannel
        hconectan
    | false =>
      cases hc' : pc'.cierra with
      | true => exact turno_of_cierra hc' hstarted
      | false => exact turno_of_quieto _ _ ha' hc'
  · intro h₁ h₂ pc₁ pc₂ hpc₁ hpc₂ ha₁ ha₂
    exact hs.unico h₁ h₂ pc₁ pc₂ (hother hpc₁ ha₁).2 (hother hpc₂ ha₂).2 ha₁ ha₂
  · intro _ h' pc' hpc' ha'
    obtain ⟨hne, hold⟩ := hother hpc' ha'
    exact hviejos h' pc' hne hold ha'

theorem Ciclo.congr (hs : Ciclo estricto s) (hc : s'.toConexion = s.toConexion)
    (hhilos : s'.hilos = s.hilos) : Ciclo estricto s' := by
  have hpcOf : s'.pcOf = s.pcOf := by
    funext h
    rw [pcOf, hhilos, pcOf]
  refine ⟨?_, ?_, ?_, ?_, ?_⟩
  · rw [hc]
    exact hs.base
  · rw [hc, hpcOf]
    exact hs.turnos
  · rw [hpcOf]
    exact hs.unico
  · rw [Cerrando, hc, hpcOf]
    exact hs.cierre
  · rw [Cerrando, hc, hpcOf]
    exact hs.enlazada

theorem Ciclo.of_hilos (hs : Ciclo estricto s) (hhilos : s'.hilos = s.hilos)
    (hgen : s'.gen = s.gen) (hbase : s'.toConexion.Base)
    (hturnos : ∀ h pc, s.pcOf h = some pc → s.toConexion.Turno estricto pc →
      s'.toConexion.Turno estricto pc)
    (henlazada : s'.started = true → s.Cerrando ∨ s'.toConexion.Enlazada) :
    Ciclo estricto s' := by
  have hpcOf : s'.pcOf = s.pcOf := by
    funext h
    rw [pcOf, hhilos, pcOf]
  refine ⟨hbase, ?_, ?_, ?_, ?_⟩
  · intro h pc hpc
    rw [hpcOf] at hpc
    exact hturnos h pc hpc (hs.turnos h pc hpc)
  · rw [hpcOf]
    exact hs.unico
  · rw [Cerrando, hpcOf, hgen]
    exact hs.cierre
  · rw [Cerrando, hpcOf]
    exact henlazada

/-- Beside a thread that connects and was not overtaken, no other changes the connection. -/
theorem Ciclo.solo (hs : Ciclo estricto s) (hpc : s.pcOf h = some pc)
    (harranca : pc.arranca = true) (hgen : ∀ gen k, pc = .abriendo gen k → gen = s.gen)
    (h' : HiloId) (pc' : Pc) (hne : h' ≠ h) (hpc' : s.pcOf h' = some pc') :
    pc'.arranca = false ∧ pc'.cierra = false := by
  refine ⟨?_, ?_⟩
  · by_contra ha'
    have ha' : pc'.arranca = true := by simpa using ha'
    exact hne (hs.unico h' h pc' pc hpc' hpc ha' harranca)
  · by_contra hc'
    have hc' : pc'.cierra = true := by simpa using hc'
    obtain ⟨gen, k, hgenk, hne⟩ := hs.cierre ⟨h', pc', hpc', hc'⟩ h pc hpc harranca
    exact hne (hgen gen k hgenk)

theorem Mueve.cerrando (hm : Mueve h pc s s')
    (hself : ∀ pc₀, s.pcOf h = some pc₀ → pc₀.cierra = false) (hs : s.Cerrando) :
    s'.Cerrando := by
  obtain ⟨h', pc', hpc', hc'⟩ := hs
  refine ⟨h', pc', ?_, hc'⟩
  rw [hm.otros h' ?_, hpc']
  rintro rfl
  exact absurd ((hself pc' hpc').symm.trans hc') Bool.false_ne_true

theorem Ciclo.deja (hs : Ciclo estricto s) (hm : Mueve h pc s s') (harranca : pc.arranca = false)
    (hcierra : pc.cierra = false) (hc : s'.toConexion = s.toConexion)
    (hself : ∀ pc₀, s.pcOf h = some pc₀ → pc₀.cierra = false) : Ciclo estricto s' := by
  refine hs.sale hm harranca hcierra ?_ ?_ ?_ ?_
  · rw [hc]
    exact hs.base
  · rw [hc]
  · rw [hc]
    exact fun _ _ _ _ hturno => hturno
  · rw [hc]
    intro hstarted
    exact (hs.enlazada hstarted).imp_left (hm.cerrando hself)

theorem mueve_setPc {x : Hilo} (hx : s.hilos[h]? = some x) (pc : Pc) :
    Mueve h pc s (s.setPc h pc) :=
  mueve_of_modify hx rfl rfl

theorem Entrega.ciclo (hstep : Entrega p h s s') {x : Hilo} (hx : s.hilos[h]? = some x)
    (hs : Ciclo estricto (s.setPc h .fin)) : Ciclo estricto s' := by
  cases hstep with
  | vuelve => exact hs
  | lanza => exact hs.congr rfl rfl
  | envia code =>
    have hsent : Mueve h (.esperando s.intentos.length) s (s.sent p h code) :=
      mueve_of_modify hx rfl rfl
    refine hs.deja ((mueve_setPc hx .fin).dos hsent) rfl rfl rfl ?_
    intro pc₀ hpc₀
    obtain rfl := Option.some.inj ((mueve_setPc hx .fin).propio.symm.trans hpc₀)
    rfl

theorem mismos_closeSink (s : ColabRuntime) : Mismos s.toConexion s.closeSink.toConexion := by
  cases hchannel : s.channel with
  | none => exact mismos_of_eq (by simp [closeSink, hchannel])
  | some k =>
    have hsockets : s.closeSink.sockets =
        s.sockets.modify k fun x => { x with sinkClosed := true } := by
      simp [closeSink, hchannel]
    exact mismos_of_modify hsockets fun _ => rfl

theorem conectan_closeSink (s : ColabRuntime) : Conectan s.toConexion s.closeSink.toConexion := by
  cases hchannel : s.channel with
  | none => exact conectan_of_eq (by simp [closeSink, hchannel])
  | some k =>
    have hsockets : s.closeSink.sockets =
        s.sockets.modify k fun x => { x with sinkClosed := true } := by
      simp [closeSink, hchannel]
    exact conectan_of_modify hsockets (fun _ => rfl) fun _ _ hstate => hstate

theorem mueve_spawn {f : Hilo → Hilo} (llamada : Llamada)
    (hhilos : s'.hilos = (s.spawn llamada).hilos.modify s.hilos.length f)
    (hpc : (f ⟨llamada, .fin, 0, []⟩).pc = pc) : Mueve s.hilos.length pc s s' := by
  have hm := mueve_of_modify (getElem?_spawn_self s llamada) hhilos hpc
  refine ⟨?_, hm.propio⟩
  intro h' hne
  rw [hm.otros h' hne, pcOf, getElem?_spawn_of_ne hne, pcOf]

theorem pcOf_length (s : ColabRuntime) : s.pcOf s.hilos.length = none := by
  rw [pcOf, List.getElem?_eq_none (Nat.le_refl _), Option.map_none]

theorem Ciclo.spawn (hs : Ciclo estricto s) (llamada : Llamada) :
    Ciclo estricto ((s.spawn llamada).setPc s.hilos.length .fin) := by
  have hm : Mueve s.hilos.length .fin s ((s.spawn llamada).setPc s.hilos.length .fin) :=
    mueve_spawn llamada rfl rfl
  refine hs.sale hm rfl rfl ?_ rfl ?_ ?_
  · exact hs.base.of_kernel (mismos_of_eq rfl) (Nat.le_refl _) rfl rfl rfl nofun
  · intro h' pc' _ _ habriendo
    rcases habriendo with ⟨hcierra, harranca, hcreando, habriendo, -⟩
    refine ⟨hcierra, harranca, ?_, ?_, fun _ => rfl⟩
    · intro gen hpc
      obtain ⟨hgen, hnone, -, hold⟩ := hcreando gen hpc
      exact ⟨hgen, hnone, rfl, hold⟩
    · intro gen k hpc
      obtain ⟨hchannel, x, hx, hxgen, hstate, hactual⟩ := habriendo gen k hpc
      refine ⟨hchannel, x, hx, hxgen, hstate, ?_⟩
      intro heq
      obtain ⟨hchannel, hsink, hkernelId, -⟩ := hactual heq
      exact ⟨hchannel, hsink, hkernelId, rfl⟩
  · intro hstarted
    refine (hs.enlazada hstarted).imp_left (hm.cerrando ?_)
    intro pc₀ hpc₀
    rw [pcOf_length] at hpc₀
    cases hpc₀

theorem quieto_spawn (hs : s.Quieto) (llamada : Llamada) :
    ((s.spawn llamada).setPc s.hilos.length .fin).Quieto := by
  have hm : Mueve s.hilos.length .fin s ((s.spawn llamada).setPc s.hilos.length .fin) :=
    mueve_spawn llamada rfl rfl
  apply quieto_iff.mpr
  intro h' pc' hpc'
  by_cases heq : h' = s.hilos.length
  · rw [heq] at hpc'
    obtain rfl := Option.some.inj (hm.propio.symm.trans hpc')
    exact ⟨rfl, rfl⟩
  · exact quieto_iff.mp hs h' pc' (hm.otros h' heq ▸ hpc')

theorem Avance.ciclo (hstep : Avance p h s s') {x : Hilo} (hx : s.hilos[h]? = some x)
    (hs : Ciclo estricto (s.setPc h .fin)) (hcerrado : s.cerrado = false)
    (hquieto : s.started = false → (s.setPc h .fin).Quieto) : Ciclo estricto s' := by
  have hnot {Q : Prop} (h : s.cerrado = true) : Q :=
    absurd (hcerrado.symm.trans h) Bool.false_ne_true
  cases hstep with
  | entrega s' hs' => exact hs'.ciclo hx hs
  | crea hstarted hkernel =>
    have hm : Mueve h (.creando (s.gen + 1)) s
        ({ s with gen := s.gen + 1 }.setPc h (.creando (s.gen + 1))) :=
      mueve_of_modify hx rfl rfl
    refine ciclo_entra ((mueve_setPc hx .fin).dos hm) ?_ rfl ?_ ?_ ?_
    · exact fun h' pc' _ hpc' => quieto_iff.mp (hquieto hstarted) h' pc' hpc'
    · exact hs.base.of_kernel (mismos_of_eq rfl) (Nat.le_succ _) rfl rfl rfl hnot
    · refine ⟨nofun, fun _ => hstarted, ?_, nofun, nofun⟩
      intro gen hgen
      cases hgen
      refine ⟨rfl, hkernel, hcerrado, ?_⟩
      intro k y hy
      exact Nat.lt_succ_of_le (hs.base.generaciones k y hy)
    · intro h
      exact absurd (hstarted.symm.trans h) Bool.false_ne_true
  | conecta id hstarted hkernel =>
    have hm : Mueve h (.abriendo (s.gen + 1) s.sockets.length) s
        ({ s with gen := s.gen + 1 }.connect h (s.gen + 1) id) :=
      mueve_of_modify hx rfl rfl
    refine ciclo_entra ((mueve_setPc hx .fin).dos hm) ?_ rfl ?_ ?_ ?_
    · exact fun h' pc' _ hpc' => quieto_iff.mp (hquieto hstarted) h' pc' hpc'
    · refine hs.base.connect rfl ?_ (Nat.le_refl _) hs.base.creados hkernel rfl hcerrado
      intro k y hy
      exact Nat.lt_succ_of_le (hs.base.generaciones k y hy)
    · exact turno_connect rfl rfl hstarted hkernel hcerrado
    · intro h
      exact absurd (hstarted.symm.trans h) Bool.false_ne_true

end ColabRuntime
end Nerea.Colab
