import Nerea.Colab.Threads

/-!
# The life of a kernel

`start` compares generations only after its second wait, and `close` and `_killChannel` not
at all, so that operations on the connection that overlap spoil it: two starts create two
kernels, and a start that a close overtakes leaves a kernel behind. As long as none begins
while another one is under way that it would spoil, the connection is as it should be.
-/

set_option autoImplicit false

namespace Nerea.Colab

namespace ColabRuntime

open Conexion

variable {p : Plataforma} {s s' : ColabRuntime} {h : HiloId} {pc : Pc} {estricto : Prop}

/-- No operation begins that would spoil one under way, the server tells of each kernel it
creates, and no dead cell reconnects after a `close`. -/
def Ordenado (p : Plataforma) (s : ColabRuntime) : Evento → Prop
  | .start => s.started = true ∨ s.Quieto
  | .execute _ => s.started = true ∨ s.Quieto
  | .close => ∀ x ∈ s.hilos, x.pc ≠ .matando ∧ ∀ gen, x.pc ≠ .creando gen
  | .kernelCreado _ resp creado => creado = true → ∃ id, leerKernelId p.toDart resp = .creado id
  | .retorno h => ∀ i (x : Intento), s.pcOf h = some (.esperando i) → s.intentos[i]? = some x →
      x.listo = true → x.result.dead = true → s.Quieto ∧ s.cerrado = false
  | _ => True

def CierraApagado (s : ColabRuntime) : Evento → Prop
  | .close => s.started = false
  | _ => True

theorem Ciclo.close (hs : Ciclo estricto s)
    (hord : ∀ x ∈ s.hilos, x.pc ≠ .matando ∧ ∀ gen, x.pc ≠ .creando gen)
    (hestricto : estricto → s.started = false) :
    Ciclo estricto ((s.spawn .close).close s.hilos.length) := by
  have hord := forall_hilos (P := fun pc => pc ≠ .matando ∧ ∀ gen, pc ≠ .creando gen).mp hord
  have hviejos : ∀ h' pc', h' ≠ s.hilos.length → s.pcOf h' = some pc' → pc'.arranca = true →
      ∃ gen k, pc' = .abriendo gen k ∧ gen ≠ s.gen + 1 := by
    intro h' pc' _ hpc' ha'
    cases pc' with
    | abriendo gen k =>
      obtain ⟨-, x, hx, hxgen, -⟩ := (hs.turnos h' _ hpc').abriendo gen k rfl
      have hle := hs.base.generaciones k x hx
      exact ⟨gen, k, rfl, by omega⟩
    | creando gen => exact absurd rfl ((hord h' _ hpc').2 gen)
    | matando => exact absurd rfl (hord h' _ hpc').1
    | cerrandoViejo => cases ha'
    | esperando i => cases ha'
    | borrando => cases ha'
    | cerrando => cases ha'
    | fin => cases ha'
  have hstarted : ∀ h' pc', h' ≠ s.hilos.length → s.pcOf h' = some pc' → pc'.arranca = true →
      s.started = false :=
    fun h' pc' _ hpc' ha' => (hs.turnos h' pc' hpc').arranca ha'
  unfold ColabRuntime.close
  dsimp only
  split
  · have hm : Mueve s.hilos.length .borrando s
        ({ s.spawn .close with gen := s.gen + 1 }.setPc s.hilos.length .borrando) :=
      mueve_spawn .close rfl rfl
    refine hs.cierraPc hm rfl ?_ hestricto hstarted hviejos (Or.inr rfl) (conectan_of_eq rfl)
    exact hs.base.of_kernel (mismos_of_eq rfl) (Nat.le_succ _) rfl rfl rfl nofun
  · have hm : Mueve s.hilos.length .cerrando s
        ({ s.spawn .close with gen := s.gen + 1 }.closeSocket s.hilos.length) :=
      mueve_spawn .close rfl rfl
    refine hs.cierraPc hm rfl ?_ hestricto hstarted hviejos (Or.inr rfl) (conectan_closeSink s)
    exact hs.base.of_kernel (mismos_closeSink s) (Nat.le_succ _) rfl rfl rfl nofun

theorem Ciclo.borrado (hs : Ciclo estricto s) (hpc : s.pcOf h = some .borrando) :
    Ciclo estricto (s.closeSocket h) := by
  obtain ⟨x, hx, hxpc⟩ := pcOf_eq_some.mp hpc
  have hm : Mueve h .cerrando s (s.closeSocket h) := mueve_of_modify hx rfl rfl
  refine hs.cierraPc hm rfl ?_ ((hs.turnos h _ hpc).cierra rfl) ?_ ?_ (Or.inr rfl)
    (conectan_closeSink s)
  · exact hs.base.of_kernel (mismos_closeSink s) (Nat.le_refl _) rfl rfl rfl fun hcerrado =>
      ⟨(hs.base.apagada hcerrado).started, (hs.base.apagada hcerrado).kernelId,
        (hs.base.apagada hcerrado).channel⟩
  · exact fun h' pc' _ hpc' ha' => (hs.turnos h' pc' hpc').arranca ha'
  · exact fun h' pc' _ hpc' ha' => hs.cierre ⟨h, _, hpc, rfl⟩ h' pc' hpc' ha'

theorem Ciclo.closed (hs : Ciclo estricto s) (hpc : s.pcOf h = some .cerrando) :
    Ciclo estricto (s.closed.setPc h .fin) := by
  obtain ⟨x, hx, hxpc⟩ := pcOf_eq_some.mp hpc
  have hm : Mueve h .fin s (s.closed.setPc h .fin) := mueve_of_modify hx rfl rfl
  refine hs.sale hm rfl rfl ?_ rfl ?_ nofun
  · exact hs.base.of_mismos (mismos_of_eq rfl) (Nat.le_refl _) (Nat.zero_le 1) (fun _ => rfl)
      hs.base.viejos fun _ => ⟨rfl, rfl, rfl⟩
  · intro h' pc' _ hpc' hturno
    cases ha' : pc'.arranca with
    | true =>
      obtain ⟨gen, k, rfl, hgen⟩ := hs.cierre ⟨h, _, hpc, rfl⟩ h' pc' hpc' ha'
      exact turno_abriendo_of_ne hturno hgen rfl (Or.inl rfl) (conectan_of_eq rfl)
    | false =>
      cases hc' : pc'.cierra with
      | true => exact turno_of_cierra hc' fun _ => rfl
      | false => exact turno_of_quieto _ _ ha' hc'

theorem Ciclo.noArranca (hs : Ciclo estricto s) (hpc : s.pcOf h = some pc)
    (harranca : pc.arranca = true) {pc' : Pc} (hm : Mueve h pc' s s')
    (harranca' : pc'.arranca = false) (hcierra' : pc'.cierra = false)
    (hbase : s'.toConexion.Base) (hgen : s'.gen = s.gen) (hstarted : s'.started = s.started) :
    Ciclo estricto s' := by
  have hfalse : s'.started = false := hstarted.trans ((hs.turnos h pc hpc).arranca harranca)
  refine hs.sale hm harranca' hcierra' hbase hgen ?_ ?_
  · intro h₁ pc₁ hne hpc₁ _
    have ha₁ : pc₁.arranca = false := by
      by_contra ha₁
      have ha₁ : pc₁.arranca = true := by simpa using ha₁
      exact hne (hs.unico h₁ h pc₁ pc hpc₁ hpc ha₁ harranca)
    cases hc₁ : pc₁.cierra with
    | true => exact turno_of_cierra hc₁ fun _ => hfalse
    | false => exact turno_of_quieto _ _ ha₁ hc₁
  · intro h
    exact absurd (hfalse.symm.trans h) Bool.false_ne_true

theorem mueve_killed {x : Hilo} (hx : s.hilos[h]? = some x) :
    Mueve h .fin s ((s.killed h).setPc h .fin) := by
  refine mueve_of_modify (f := fun x => { x with pc := .fin, attempt := x.attempt + 1 }) hx ?_
    rfl
  exact List.modify_modify_eq _ _ _ _

theorem Ciclo.killed (hs : Ciclo estricto s) (hpc : s.pcOf h = some .matando) :
    Ciclo estricto ((s.killed h).setPc h .fin) := by
  obtain ⟨x, hx, hxpc⟩ := pcOf_eq_some.mp hpc
  have hcerrado : s.cerrado = false := (hs.turnos h _ hpc).matando rfl
  refine hs.noArranca hpc rfl (mueve_killed hx) rfl rfl ?_ rfl rfl
  refine hs.base.of_kernel (mismos_of_eq rfl) (Nat.le_refl _) rfl rfl rfl ?_
  intro h
  exact absurd (hcerrado.symm.trans h) Bool.false_ne_true

theorem Ciclo.adelantado (hs : Ciclo estricto s) {gen : ℕ} {k : SocketId}
    (hpc : s.pcOf h = some (.abriendo gen k)) :
    Ciclo estricto (((s.modifySocket k fun x => { x with state := .abierto }).recordOvertaken
      gen).closeSink.setPc h .cerrandoViejo) := by
  obtain ⟨x, hx, hxpc⟩ := pcOf_eq_some.mp hpc
  set s₁ := (s.modifySocket k fun x => { x with state := .abierto }).recordOvertaken gen
  have hm : Mueve h .cerrandoViejo s (s₁.closeSink.setPc h .cerrandoViejo) :=
    mueve_of_modify hx rfl rfl
  have hmismos₁ : Mismos s.toConexion s₁.toConexion := mismos_of_modify rfl fun _ => rfl
  have hmismos : Mismos s.toConexion s₁.closeSink.toConexion :=
    hmismos₁.trans (mismos_closeSink s₁)
  refine hs.noArranca hpc rfl hm rfl rfl ?_ rfl rfl
  refine hs.base.of_mismos hmismos (Nat.le_refl _) hs.base.creados hs.base.sinKernel ?_ ?_
  · intro v hv
    obtain ⟨hchannel, y, hy, hygen, -⟩ := (hs.turnos h _ hpc).abriendo gen k rfl
    rcases List.mem_append.mp (show v ∈ s.cierresViejos ++ _ from hv) with hv | hv
    · exact hs.base.viejos v hv
    · -- The channel is none, or the start's own socket.
      obtain ⟨g, hg, rfl⟩ := List.mem_map.mp hv
      rcases hchannel with hchannel | hchannel
      · simp [channelGen, modifySocket, hchannel] at hg
      · simp [channelGen, modifySocket, hchannel, hy] at hg
        omega
  · intro hcerrado
    obtain ⟨hstarted, hkernelId, hchannel⟩ := hs.base.apagada hcerrado
    exact ⟨hstarted, hkernelId, hchannel⟩

theorem Ciclo.creado (hs : Ciclo estricto s) {gen : ℕ} (hpc : s.pcOf h = some (.creando gen))
    (creado : Bool) (id : String) :
    Ciclo estricto
      ({ s with creados := s.creados + creado.toNat, kernelId := some id }.connect h gen id) := by
  obtain ⟨x, hx, hxpc⟩ := pcOf_eq_some.mp hpc
  obtain ⟨hgen, hnone, hcerrado, hold⟩ := (hs.turnos h _ hpc).creando gen rfl
  have hstarted := (hs.turnos h _ hpc).arranca rfl
  have hm : Mueve h (.abriendo gen s.sockets.length) s
      ({ s with creados := s.creados + creado.toNat, kernelId := some id }.connect h gen id) :=
    mueve_of_modify hx rfl rfl
  refine ciclo_entra hm (hs.solo hpc rfl nofun) rfl ?_ ?_ ?_
  · refine hs.base.connect rfl hold (Nat.le_of_eq hgen) ?_ rfl rfl hcerrado
    show s.creados + creado.toNat ≤ 1
    rw [hs.base.sinKernel hnone, Nat.zero_add]
    exact Bool.toNat_le creado
  · exact turno_connect rfl rfl hstarted rfl hcerrado
  · intro h
    exact absurd (hstarted.symm.trans h) Bool.false_ne_true

theorem Ciclo.noCreado (hs : Ciclo estricto s) {gen : ℕ}
    (hpc : s.pcOf h = some (.creando gen)) (kernelId : Option String) :
    Ciclo estricto ({ s with creados := s.creados, kernelId := kernelId }.setPc h .fin) := by
  obtain ⟨x, hx, hxpc⟩ := pcOf_eq_some.mp hpc
  obtain ⟨-, hnone, hcerrado, -⟩ := (hs.turnos h _ hpc).creando gen rfl
  have hm : Mueve h .fin s ({ s with creados := s.creados, kernelId := kernelId }.setPc h .fin) :=
    mueve_of_modify hx rfl rfl
  refine hs.noArranca hpc rfl hm rfl rfl ?_ rfl rfl
  refine hs.base.of_mismos (mismos_of_eq rfl) (Nat.le_refl _) hs.base.creados
    (fun _ => hs.base.sinKernel hnone) hs.base.viejos ?_
  intro h
  exact absurd (hcerrado.symm.trans h) Bool.false_ne_true

theorem Ciclo.listo (hs : Ciclo estricto s) {k : SocketId}
    (hpc : s.pcOf h = some (.abriendo s.gen k)) :
    Ciclo estricto ({ s.modifySocket k fun x => { x with state := .abierto } with
      started := true }.setPc h .fin) := by
  obtain ⟨x, hx, hxpc⟩ := pcOf_eq_some.mp hpc
  obtain ⟨-, y, hy, hygen, -, hactual⟩ := (hs.turnos h _ hpc).abriendo s.gen k rfl
  obtain ⟨hchannel, hsink, hkernelId, hcerrado⟩ := hactual rfl
  set s' := { s.modifySocket k fun x => { x with state := .abierto } with started := true }
  have hm : Mueve h .fin s (s'.setPc h .fin) := mueve_of_modify hx rfl rfl
  refine ciclo_entra hm (hs.solo hpc rfl ?_) rfl ?_ (turno_of_quieto _ _ rfl rfl) ?_
  · intro gen k' heq
    cases heq
    rfl
  · refine hs.base.of_kernel (mismos_of_modify rfl fun _ => rfl) (Nat.le_refl _) rfl rfl rfl ?_
    intro h
    exact absurd (hcerrado.symm.trans h) Bool.false_ne_true
  · intro _
    refine ⟨k, y.kernelId, hchannel, ?_, hkernelId⟩
    show (s.sockets.modify k fun x => { x with state := .abierto })[k]? =
      some ⟨s.gen, y.kernelId, .abierto, false⟩
    rw [List.getElem?_modify_eq, hy, ← hygen, ← hsink]
    rfl

theorem Ciclo.falla (hs : Ciclo estricto s) {gen : ℕ} {k : SocketId}
    (hpc : s.pcOf h = some (.abriendo gen k)) :
    Ciclo estricto ((s.modifySocket k fun x => { x with state := .fallido }).setPc h .fin) := by
  obtain ⟨x, hx, hxpc⟩ := pcOf_eq_some.mp hpc
  have hm : Mueve h .fin s
      ((s.modifySocket k fun x => { x with state := .fallido }).setPc h .fin) :=
    mueve_of_modify hx rfl rfl
  refine hs.noArranca hpc rfl hm rfl rfl ?_ rfl rfl
  refine hs.base.of_kernel (mismos_of_modify rfl fun _ => rfl) (Nat.le_refl _) rfl rfl rfl ?_
  intro hcerrado
  obtain ⟨hstarted, hkernelId, hchannel⟩ := hs.base.apagada hcerrado
  exact ⟨hstarted, hkernelId, hchannel⟩

theorem Ciclo.lose (hs : Ciclo estricto s) {k : SocketId} {x : Socket}
    (hx : s.sockets[k]? = some x) (hstate : x.state ≠ .conectando) (hgen : x.gen = s.gen)
    (hhilos : s'.hilos = s.hilos) (hmismos : Mismos s.toConexion s'.toConexion)
    (hconectan : Conectan s.toConexion s'.toConexion) (hstarted : s'.started = false)
    (hchannel : s'.channel = none) (hgen' : s'.gen = s.gen)
    (hkernelId : s'.kernelId = s.kernelId) (hcreados : s'.creados = s.creados)
    (hviejos : s'.cierresViejos = s.cierresViejos) (hcerrado : s'.cerrado = s.cerrado) :
    Ciclo estricto s' := by
  refine hs.of_hilos hhilos hgen' ?_ ?_ ?_
  · refine hs.base.of_kernel hmismos (Nat.le_of_eq hgen'.symm) hkernelId hcreados hviejos ?_
    intro h
    exact ⟨hstarted, hkernelId.trans (hs.base.apagada (hcerrado ▸ h)).kernelId, hchannel⟩
  · intro h pc _ hturno
    exact turno_lose hturno hs.base hx hstate hgen hstarted hchannel hgen' hcerrado hconectan
  · intro h
    exact absurd (hstarted.symm.trans h) Bool.false_ne_true

theorem Ciclo.doneViejo (hs : Ciclo estricto s) {k : SocketId} {x : Socket}
    (hx : s.sockets[k]? = some x) (hstate : x.state ≠ .conectando) (hgen : x.gen ≠ s.gen) :
    Ciclo estricto (s.modifySocket k fun x => { x with state := .terminado }) := by
  refine hs.of_hilos rfl rfl ?_ ?_ ?_
  · refine hs.base.of_kernel (mismos_of_modify rfl fun _ => rfl) (Nat.le_refl _) rfl rfl rfl ?_
    intro hcerrado
    obtain ⟨hstarted, hkernelId, hchannel⟩ := hs.base.apagada hcerrado
    exact ⟨hstarted, hkernelId, hchannel⟩
  · intro h pc _ hturno
    exact turno_modify hturno hx hstate fun _ => rfl
  · intro hstarted
    refine (hs.enlazada hstarted).imp_right ?_
    intro hkernelId
    rcases hkernelId with ⟨j, id, hchannel, hj, hkernelId⟩
    refine ⟨j, id, hchannel, ?_, hkernelId⟩
    have hne : k ≠ j := by
      rintro rfl
      obtain rfl := Option.some.inj (hx.symm.trans hj)
      exact hgen rfl
    exact (List.getElem?_modify_ne _ _ hne).trans hj

theorem Ciclo.muere (hs : Ciclo estricto s) {x : Hilo} (hx : s.hilos[h]? = some x)
    (hquieto : s.Quieto) (hcerrado : s.cerrado = false) (i : IntentoId) :
    Ciclo estricto ((s.returned i).killChannel h) := by
  have hm : Mueve h .matando s ((s.returned i).killChannel h) := mueve_of_modify hx rfl rfl
  refine ciclo_entra hm (fun h' pc' _ => quieto_iff.mp hquieto h' pc') rfl ?_ ?_ nofun
  · refine hs.base.of_kernel (mismos_closeSink s) (Nat.le_succ _) rfl rfl rfl ?_
    intro h
    exact absurd (hcerrado.symm.trans h) Bool.false_ne_true
  · exact ⟨nofun, fun _ => rfl, nofun, nofun, fun _ => hcerrado⟩

theorem Cambio.ciclo {e : Evento} (hstep : Cambio p s e s') (hs : Ciclo estricto s)
    (hord : Ordenado p s e) (hestricto : estricto → CierraApagado s e) : Ciclo estricto s' := by
  have hinicio (hord : s.started = true ∨ s.Quieto) (llamada : Llamada)
      (hstarted : s.started = false) :
      ((s.spawn llamada).setPc s.hilos.length .fin).Quieto := by
    rcases hord with htrue | hquieto
    · exact absurd (hstarted.symm.trans htrue) Bool.false_ne_true
    · exact quieto_spawn hquieto llamada
  cases hstep with
  | nada => exact hs
  | start s' hs' =>
    exact hs'.ciclo (getElem?_spawn_self s .start) (hs.spawn .start) rfl (hinicio hord .start)
  | execute code s' hs' =>
    exact hs'.ciclo (getElem?_spawn_self s _) (hs.spawn (.execute code)) rfl (hinicio hord _)
  | close => exact hs.close hord hestricto
  | interrumpe i hi => exact hs.congr rfl rfl
  | creado h gen resp creado id hpc hid => exact hs.creado hpc creado id
  | noCreado h gen resp creado kernelId hpc hid =>
    have hcreado : creado = false := by
      by_contra hcreado
      have hcreado : creado = true := by simpa using hcreado
      obtain ⟨id, hid'⟩ := hord hcreado
      exact hid id hid'
    rw [hcreado]
    exact hs.noCreado hpc kernelId
  | borrado h hpc => exact hs.borrado hpc
  | adelantado h gen k hpc hgen => exact hs.adelantado hpc
  | listo h k s' hpc hs' =>
    obtain ⟨x, hx, -⟩ := pcOf_eq_some.mp hpc
    exact hs'.ciclo hx (hs.listo hpc)
  | falla h gen k hpc => exact hs.falla hpc
  | viejoCerrado h s' hpc hs' =>
    obtain ⟨x, hx, -⟩ := pcOf_eq_some.mp hpc
    refine hs'.ciclo hx (hs.deja (mueve_setPc hx .fin) rfl rfl rfl ?_)
    intro pc₀ hpc₀
    obtain rfl := Option.some.inj (hpc.symm.trans hpc₀)
    rfl
  | reintenta h x s' hx hxpc hattempt hs' =>
    have hpc : s.pcOf h = some .matando := pcOf_eq_some.mpr ⟨x, hx, hxpc⟩
    refine hs'.ciclo (getElem?_killed hx) (hs.killed hpc) ((hs.turnos h _ hpc).matando rfl) ?_
    intro _
    apply quieto_iff.mpr
    intro h' pc' hpc'
    by_cases heq : h' = h
    · rw [heq] at hpc'
      obtain rfl := Option.some.inj ((mueve_killed hx).propio.symm.trans hpc')
      exact ⟨rfl, rfl⟩
    · exact hs.solo hpc rfl nofun h' pc' heq ((mueve_killed hx).otros h' heq ▸ hpc')
  | agotado h hpc => exact hs.killed hpc
  | cerrado h hpc => exact hs.closed hpc
  | frame k raw x m hk hstate hm => exact hs.congr rfl rfl
  | error k text x hk hstate hgen =>
    exact hs.lose hk hstate hgen rfl (mismos_of_eq rfl) (conectan_of_eq rfl) rfl rfl rfl rfl rfl
      rfl rfl
  | doneViejo k x hk hstate hgen => exact hs.doneViejo hk hstate hgen
  | done k x hk hstate hgen =>
    refine hs.lose hk hstate hgen rfl (mismos_of_modify rfl fun _ => rfl)
      (conectan_of_modify rfl (fun _ => rfl) ?_) rfl rfl rfl rfl rfl rfl rfl
    intro y hy hystate
    obtain rfl := Option.some.inj (hk.symm.trans hy)
    exact absurd hystate hstate
  | vence h i x hpc hx hlisto => exact hs.congr rfl rfl
  | retorna h i y hpc hy hlisto hdead =>
    obtain ⟨x, hx, -⟩ := pcOf_eq_some.mp hpc
    have hm : Mueve h .fin s ((s.returned i).setPc h .fin) := mueve_of_modify hx rfl rfl
    refine hs.deja hm rfl rfl rfl ?_
    intro pc₀ hpc₀
    obtain rfl := Option.some.inj (hpc.symm.trans hpc₀)
    rfl
  | muere h i y hpc hy hlisto hdead =>
    obtain ⟨x, hx, -⟩ := pcOf_eq_some.mp hpc
    obtain ⟨hquieto, hcerrado⟩ := hord i y hpc hy hlisto hdead
    exact hs.muere hx hquieto hcerrado i

theorem ciclo_inicial (estricto : Prop) : Ciclo estricto {} := by
  refine ⟨⟨Nat.zero_le 1, fun _ => rfl, nofun, nofun, nofun, nofun⟩, nofun, nofun, ?_, nofun⟩
  intro hpc
  rcases hpc with ⟨h, pc, hpc, -⟩
  cases hpc

theorem correr_ciclo (p : Plataforma) (estricto : Prop) {es : List Evento}
    (hes : Run.AllSteps (paso p) (Ordenado p) {} es)
    (hes' : estricto → Run.AllSteps (paso p) CierraApagado {} es) :
    Ciclo estricto (correr p {} es) := by
  have hboth : Run.AllSteps (paso p)
      (fun s e => Ordenado p s e ∧ (estricto → CierraApagado s e)) {} es := by
    by_cases h : estricto
    · exact (hes.and (hes' h)).imp fun s e hord => ⟨hord.1, fun _ => hord.2⟩
    · exact hes.imp fun s e hord => ⟨hord, fun h' => absurd h' h⟩
  refine Run.invariant_of_allSteps ?_ (ciclo_inicial estricto) hboth
  intro s e hs hord
  exact (paso_cambio p s e).ciclo hs hord.1 hord.2

theorem Ciclo.enlazada_of_estricto (hs : Ciclo estricto s) (h : estricto)
    (hstarted : s.started = true) : s.Enlazada := by
  rcases hs.enlazada hstarted with ⟨h', pc, hpc, hcierra⟩ | henlazada
  · have hfalse := (hs.turnos h' pc hpc).cierra hcierra h
    exact absurd (hfalse.symm.trans hstarted) Bool.false_ne_true
  · exact henlazada

/-- What the life of a kernel should be like. -/
structure Vida (s : ColabRuntime) : Prop where
  creados : s.creados ≤ 1
  enlazada : s.started = true → s.Enlazada
  viejos : ∀ v ∈ s.cierresViejos, v.2 ≤ v.1
  apagada : s.cerrado = true → (∀ x ∈ s.hilos, x.pc = .fin) → s.Apagada

/-- In every run whose operations are in order the life of the kernel is as it should be, but
that `started` is true while a `close` deletes the kernel; if nothing is started whenever
`close` is called, it is all as it should be. -/
theorem vida_correr (p : Plataforma) (es : List Evento)
    (hes : Run.AllSteps (paso p) (Ordenado p) {} es) :
    let s := correr p {} es
    (s.creados ≤ 1 ∧ (s.started = true → s.Cerrando ∨ s.Enlazada) ∧
      (∀ v ∈ s.cierresViejos, v.2 ≤ v.1) ∧ (s.cerrado = true → s.Apagada)) ∧
    (Run.AllSteps (paso p) CierraApagado {} es → s.Vida) := by
  constructor
  · have hs := correr_ciclo p False hes False.elim
    exact ⟨hs.base.creados, hs.enlazada, hs.base.viejos, hs.base.apagada⟩
  · intro hes'
    have hs := correr_ciclo p True hes fun _ => hes'
    exact ⟨hs.base.creados, hs.enlazada_of_estricto trivial, hs.base.viejos,
      fun hcerrado _ => hs.base.apagada hcerrado⟩

theorem vida_caida : (correr ejemplo {} [.start, .kernelCreado 0 (some ⟨201, "kernel"⟩) true,
    .socketListo 0, .socketDone 0, .close, .sinkCerrado 1]).Vida := by
  refine (vida_correr ejemplo _ ?_).2 ?_
  · refine ⟨Or.inr nofun, fun _ => ⟨"k", rfl⟩, trivial, trivial, ?_, trivial, trivial⟩
    intro x hx
    obtain rfl := List.mem_singleton.mp hx
    exact ⟨nofun, nofun⟩
  · exact ⟨trivial, trivial, trivial, trivial, rfl, trivial, trivial⟩

/-- Two cells at once, each of which creates a kernel. -/
theorem vida_solapadas : ¬ ∀ (p : Plataforma) (es : List Evento), (correr p {} es).Vida := by
  intro hall
  have hcreados := (hall ejemplo [.execute "x = 1", .execute "y = 2",
    .kernelCreado 0 (some ⟨201, "kernel"⟩) true,
    .kernelCreado 1 (some ⟨201, "kernel"⟩) true]).creados
  exact absurd hcreados (by decide)

end ColabRuntime
end Nerea.Colab
