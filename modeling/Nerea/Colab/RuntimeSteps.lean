import Nerea.Colab.Runtime

/-!
# What a step of the runtime can do

The head of `execute` and of `start` ends in one of a few ways, and so does every event.
Invariants of the runtime are proved over these cases.
-/

set_option autoImplicit false

namespace Nerea.Colab
namespace ColabRuntime

theorem pcOf_eq_some {s : ColabRuntime} {h : HiloId} {pc : Pc} :
    s.pcOf h = some pc ↔ ∃ x, s.hilos[h]? = some x ∧ x.pc = pc :=
  Option.map_eq_some_iff

theorem getElem?_spawn_self (s : ColabRuntime) (llamada : Llamada) :
    (s.spawn llamada).hilos[s.hilos.length]? = some ⟨llamada, .fin, 0, []⟩ :=
  List.getElem?_concat_length

theorem getElem?_spawn_of_ne {s : ColabRuntime} {h : HiloId} (hne : h ≠ s.hilos.length)
    (llamada : Llamada) : (s.spawn llamada).hilos[h]? = s.hilos[h]? := by
  rcases Nat.lt_or_gt_of_ne hne with hlt | hgt
  · exact List.getElem?_append_left hlt
  · rw [List.getElem?_eq_none (Nat.le_of_lt hgt)]
    apply List.getElem?_eq_none
    simpa [spawn] using Nat.succ_le_of_lt hgt

theorem getElem?_killed {s : ColabRuntime} {h : HiloId} {x : Hilo} (hx : s.hilos[h]? = some x) :
    (s.killed h).hilos[h]? = some { x with attempt := x.attempt + 1 } := by
  simp only [killed, List.getElem?_modify_eq, hx]
  rfl

theorem dead_lostResult (text : String) : (lostResult text).dead = false := by
  simp [lostResult, ColabExecResult.dead, Salida.isError, Salida.fail]

/-- How a thread may go on once its `start` returned. -/
inductive Entrega (p : Plataforma) (h : HiloId) (s : ColabRuntime) : ColabRuntime → Prop
  | vuelve : Entrega p h s (s.setPc h .fin)
  | lanza : Entrega p h s ({ s with activo := none }.setPc h .fin)
  | envia (code : String) : Entrega p h s (s.sent p h code)

/-- How it may go on when it may have to connect first. -/
inductive Avance (p : Plataforma) (h : HiloId) (s : ColabRuntime) : ColabRuntime → Prop
  | entrega (s' : ColabRuntime) (hs : Entrega p h s s') : Avance p h s s'
  | crea (hstarted : s.started = false) (hkernel : s.kernelId = none) :
      Avance p h s ({ s with gen := s.gen + 1 }.setPc h (.creando (s.gen + 1)))
  | conecta (id : String) (hstarted : s.started = false) (hkernel : s.kernelId = some id) :
      Avance p h s ({ s with gen := s.gen + 1 }.connect h (s.gen + 1) id)

variable (p : Plataforma) (s : ColabRuntime) (h : HiloId)

theorem entrega_send (code : String) : Entrega p h s (s.send p h code) := by
  unfold send
  split
  · rw [giveBack, dead_lostResult, if_neg Bool.false_ne_true]
    exact .lanza
  · exact .envia code

theorem entrega_resume : Entrega p h s (s.resume p h) := by
  unfold resume
  split
  · exact entrega_send p s h _
  · exact .vuelve

theorem avance_start : Avance p h s (s.start p h) := by
  unfold start
  split
  · exact .entrega _ (entrega_resume p s h)
  · rename_i hstarted
    have hstarted : s.started = false := by simpa using hstarted
    dsimp only
    split
    · rename_i hkernel
      exact .crea hstarted hkernel
    · rename_i id hkernel
      exact .conecta id hstarted hkernel

theorem avance_attempt (code : String) : Avance p h s (s.attempt p h code) := by
  unfold attempt
  split
  · exact avance_start p s h
  · exact .entrega _ (entrega_send p s h code)

/-- The cell of `h` is over, and its result is in the hands of `execute`. -/
def returned (i : IntentoId) : ColabRuntime :=
  { s.modifyIntento i Intento.giveBack with activo := none }

inductive Cambio : Evento → ColabRuntime → Prop
  | nada (e : Evento) : Cambio e s
  | start (s' : ColabRuntime) (hs : Avance p s.hilos.length (s.spawn .start) s') :
      Cambio .start s'
  | execute (code : String) (s' : ColabRuntime)
      (hs : Avance p s.hilos.length (s.spawn (.execute code)) s') : Cambio (.execute code) s'
  | close : Cambio .close ((s.spawn .close).close s.hilos.length)
  | interrumpe (i : IntentoId) (hi : s.activo = some i) :
      Cambio .interruptCurrent (s.modifyIntento i Intento.interrupt)
  | creado (h : HiloId) (gen : ℕ) (resp : Option Respuesta) (creado : Bool) (id : String)
      (hpc : s.pcOf h = some (.creando gen)) (hid : leerKernelId p.toDart resp = .creado id) :
      Cambio (.kernelCreado h resp creado)
        ({ s with creados := s.creados + creado.toNat, kernelId := some id }.connect h gen id)
  | noCreado (h : HiloId) (gen : ℕ) (resp : Option Respuesta) (creado : Bool)
      (kernelId : Option String) (hpc : s.pcOf h = some (.creando gen))
      (hid : ∀ id, leerKernelId p.toDart resp ≠ .creado id) :
      Cambio (.kernelCreado h resp creado)
        ({ s with creados := s.creados + creado.toNat, kernelId := kernelId }.setPc h .fin)
  | borrado (h : HiloId) (hpc : s.pcOf h = some .borrando) :
      Cambio (.borrado h) (s.closeSocket h)
  | adelantado (h : HiloId) (gen : ℕ) (k : SocketId)
      (hpc : s.pcOf h = some (.abriendo gen k)) (hgen : gen ≠ s.gen) :
      Cambio (.socketListo h)
        (((s.modifySocket k fun x => { x with state := .abierto }).recordOvertaken
          gen).closeSink.setPc h .cerrandoViejo)
  | listo (h : HiloId) (k : SocketId) (s' : ColabRuntime)
      (hpc : s.pcOf h = some (.abriendo s.gen k))
      (hs : Entrega p h { s.modifySocket k fun x => { x with state := .abierto } with
        started := true } s') : Cambio (.socketListo h) s'
  | falla (h : HiloId) (gen : ℕ) (k : SocketId) (hpc : s.pcOf h = some (.abriendo gen k)) :
      Cambio (.socketFalla h)
        ((s.modifySocket k fun x => { x with state := .fallido }).setPc h .fin)
  | viejoCerrado (h : HiloId) (s' : ColabRuntime) (hpc : s.pcOf h = some .cerrandoViejo)
      (hs : Entrega p h s s') : Cambio (.sinkCerrado h) s'
  | reintenta (h : HiloId) (x : Hilo) (s' : ColabRuntime) (hx : s.hilos[h]? = some x)
      (hpc : x.pc = .matando) (hattempt : x.attempt + 1 < 3)
      (hs : Avance p h (s.killed h) s') : Cambio (.sinkCerrado h) s'
  | agotado (h : HiloId) (hpc : s.pcOf h = some .matando) :
      Cambio (.sinkCerrado h) ((s.killed h).setPc h .fin)
  | cerrado (h : HiloId) (hpc : s.pcOf h = some .cerrando) :
      Cambio (.sinkCerrado h) (s.closed.setPc h .fin)
  | frame (k : SocketId) (raw : Frame) (x : Socket) (m : Message)
      (hk : s.sockets[k]? = some x) (hstate : x.state = .abierto)
      (hm : decodeFrame p.toDart raw = some m) :
      Cambio (.frame k raw) (s.emit p.toDart (.frame m))
  | error (k : SocketId) (text : String) (x : Socket) (hk : s.sockets[k]? = some x)
      (hstate : x.state ≠ .conectando) (hgen : x.gen = s.gen) :
      Cambio (.socketError k text)
        ({ s with started := false, channel := none }.emit p.toDart (.error text))
  | doneViejo (k : SocketId) (x : Socket) (hk : s.sockets[k]? = some x)
      (hstate : x.state ≠ .conectando) (hgen : x.gen ≠ s.gen) :
      Cambio (.socketDone k) (s.modifySocket k fun x => { x with state := .terminado })
  | done (k : SocketId) (x : Socket) (hk : s.sockets[k]? = some x)
      (hstate : x.state ≠ .conectando) (hgen : x.gen = s.gen) :
      Cambio (.socketDone k)
        ({ s.modifySocket k fun x => { x with state := .terminado } with
          started := false, channel := none }.emit p.toDart .closed)
  | vence (h : HiloId) (i : IntentoId) (x : Intento)
      (hpc : s.pcOf h = some (.esperando i)) (hx : s.intentos[i]? = some x)
      (hlisto : x.listo = false) : Cambio (.timeout h) (s.modifyIntento i Intento.expire)
  | retorna (h : HiloId) (i : IntentoId) (x : Intento)
      (hpc : s.pcOf h = some (.esperando i)) (hx : s.intentos[i]? = some x)
      (hlisto : x.listo = true) (hdead : x.result.dead = false) :
      Cambio (.retorno h) ((s.returned i).setPc h .fin)
  | muere (h : HiloId) (i : IntentoId) (x : Intento)
      (hpc : s.pcOf h = some (.esperando i)) (hx : s.intentos[i]? = some x)
      (hlisto : x.listo = true) (hdead : x.result.dead = true) :
      Cambio (.retorno h) ((s.returned i).killChannel h)

theorem cambio_kernelCreated {gen : ℕ} (resp : Option Respuesta) (creado : Bool)
    (hpc : s.pcOf h = some (.creando gen)) :
    Cambio p s (.kernelCreado h resp creado)
      ({ s with creados := s.creados + creado.toNat }.kernelCreated p h gen resp) := by
  unfold kernelCreated
  split
  · rename_i id hid
    exact .creado h gen resp creado id hpc hid
  · rename_i hid
    exact .noCreado h gen resp creado _ hpc (by simp [hid])
  · rename_i hid
    exact .noCreado h gen resp creado _ hpc (by simp [hid])
  · rename_i hid
    exact .noCreado h gen resp creado _ hpc (by simp [hid])

theorem cambio_socketReady {gen : ℕ} {k : SocketId}
    (hpc : s.pcOf h = some (.abriendo gen k)) :
    Cambio p s (.socketListo h) (s.socketReady p h gen k) := by
  unfold socketReady
  dsimp only
  split
  · rename_i hgen
    exact .adelantado h gen k hpc hgen
  · rename_i hgen
    have hgen : gen = s.gen := Classical.not_not.mp hgen
    exact .listo h k _ (hgen ▸ hpc) (entrega_resume p _ h)

theorem cambio_sinkDone {x : Hilo} (hx : s.hilos[h]? = some x) :
    Cambio p s (.sinkCerrado h) (s.sinkDone p h x) := by
  unfold sinkDone
  split
  · rename_i hpc
    exact .viejoCerrado h _ (pcOf_eq_some.mpr ⟨x, hx, hpc⟩) (entrega_resume p s h)
  · rename_i hpc
    split
    · split
      · rename_i code _ hattempt
        exact .reintenta h x _ hx hpc hattempt (avance_attempt p _ h code)
      · exact .agotado h (pcOf_eq_some.mpr ⟨x, hx, hpc⟩)
    · exact .agotado h (pcOf_eq_some.mpr ⟨x, hx, hpc⟩)
  · rename_i hpc
    exact .cerrado h (pcOf_eq_some.mpr ⟨x, hx, hpc⟩)
  · exact .nada _

theorem cambio_giveBack {i : IntentoId} {x : Intento} (hpc : s.pcOf h = some (.esperando i))
    (hx : s.intentos[i]? = some x) (hlisto : x.listo = true) :
    Cambio p s (.retorno h) ((s.returned i).giveBack h x.result) := by
  unfold giveBack
  split
  · rename_i hdead
    exact .muere h i x hpc hx hlisto hdead
  · rename_i hdead
    exact .retorna h i x hpc hx hlisto (by simpa using hdead)

/-- A socket that has connected or has failed. -/
theorem ne_conectando {x : Socket} (h : x.state = .abierto ∨ x.state = .fallido) :
    x.state ≠ .conectando := by
  rcases h with h | h
  · rw [h]
    nofun
  · rw [h]
    nofun

theorem paso_cambio (e : Evento) : Cambio p s e (paso p s e) := by
  cases e with
  | start => exact .start _ (avance_start p _ _)
  | execute code => exact .execute code _ (avance_attempt p _ _ code)
  | close => exact .close
  | interruptCurrent =>
    simp only [paso, interruptCurrent]
    split
    · exact .nada _
    · rename_i i hi
      exact .interrumpe i hi
  | kernelCreado h resp creado =>
    simp only [paso]
    split
    · rename_i gen hpc
      exact cambio_kernelCreated p s h resp creado hpc
    · exact .nada _
  | borrado h =>
    simp only [paso]
    split
    · rename_i hpc
      exact .borrado h hpc
    · exact .nada _
  | socketListo h =>
    simp only [paso]
    split
    · rename_i gen k hpc
      exact cambio_socketReady p s h hpc
    · exact .nada _
  | socketFalla h =>
    simp only [paso]
    split
    · rename_i gen k hpc
      exact .falla h gen k hpc
    · exact .nada _
  | sinkCerrado h =>
    simp only [paso]
    split
    · rename_i x hx
      exact cambio_sinkDone p s h hx
    · exact .nada _
  | frame k raw =>
    simp only [paso]
    split
    · rename_i x m hk hm
      split
      · rename_i hstate
        exact .frame k raw x m hk hstate hm
      · exact .nada _
    · exact .nada _
  | socketError k text =>
    simp only [paso]
    split
    · rename_i x hk
      split
      · rename_i hstate
        have hstate := ne_conectando hstate
        unfold lose
        split
        · exact .nada _
        · rename_i hgen
          exact .error k text x hk hstate (Classical.not_not.mp hgen)
      · exact .nada _
    · exact .nada _
  | socketDone k =>
    simp only [paso]
    split
    · rename_i x hk
      split
      · rename_i hstate
        have hstate := ne_conectando hstate
        unfold lose
        split
        · rename_i hgen
          exact .doneViejo k x hk hstate hgen
        · rename_i hgen
          exact .done k x hk hstate (Classical.not_not.mp hgen)
      · exact .nada _
    · exact .nada _
  | timeout h =>
    simp only [paso]
    split
    · rename_i i hpc
      split
      · rename_i x hx
        split
        · exact .nada _
        · rename_i hlisto
          exact .vence h i x hpc hx (by simpa using hlisto)
      · exact .nada _
    · exact .nada _
  | retorno h =>
    simp only [paso]
    split
    · rename_i i hpc
      split
      · rename_i x hx
        split
        · rename_i hlisto
          exact cambio_giveBack p s h hpc hx hlisto
        · exact .nada _
      · exact .nada _
    · exact .nada _

section Intentos

variable {p : Plataforma} {s s' : ColabRuntime} {h : HiloId} {P : Intento → Prop}

theorem forall_intentos_modify (hs : ∀ x ∈ s.intentos, P x) (i : IntentoId)
    {f : Intento → Intento} (hf : ∀ x, P x → P (f x)) :
    ∀ x ∈ (s.modifyIntento i f).intentos, P x := by
  intro x hx
  obtain ⟨j, hj⟩ := List.getElem?_of_mem hx
  simp only [modifyIntento, List.getElem?_modify, Option.map_eq_map,
    Option.map_eq_some_iff] at hj
  obtain ⟨y, hy, rfl⟩ := hj
  have hPy : P y := hs y (List.mem_of_getElem? hy)
  split
  · exact hf y hPy
  · exact hPy

theorem forall_intentos_emit (hs : ∀ x ∈ s.intentos, P x) {d : Dart} {msg : Msg}
    (hmsg : ∀ x ∈ s.intentos, P x → P (x.receive d msg)) :
    ∀ x ∈ (s.emit d msg).intentos, P x := by
  intro x hx
  obtain ⟨y, hy, rfl⟩ := List.mem_map.mp hx
  exact hmsg y hy (hs y hy)

theorem Entrega.forall_intentos (hstep : Entrega p h s s') (hs : ∀ x ∈ s.intentos, P x)
    (hnuevo : ∀ code msgId, P (Intento.nuevo h code msgId)) : ∀ x ∈ s'.intentos, P x := by
  cases hstep with
  | vuelve => exact hs
  | lanza => exact hs
  | envia code =>
    intro x hx
    rcases List.mem_append.mp hx with hx | hx
    · exact hs x hx
    · obtain rfl := List.mem_singleton.mp hx
      exact hnuevo _ _

theorem Avance.forall_intentos (hstep : Avance p h s s') (hs : ∀ x ∈ s.intentos, P x)
    (hnuevo : ∀ code msgId, P (Intento.nuevo h code msgId)) : ∀ x ∈ s'.intentos, P x := by
  cases hstep with
  | entrega s' hs' => exact hs'.forall_intentos hs hnuevo
  | crea hstarted hkernel => exact hs
  | conecta id hstarted hkernel => exact hs

theorem intentos_close (s : ColabRuntime) (h : HiloId) : (s.close h).intentos = s.intentos := by
  unfold close
  dsimp only
  split <;> rfl

/-- What every single attempt keeps under what can happen to it, all attempts keep. -/
theorem Cambio.forall_intentos {e : Evento} (hstep : Cambio p s e s')
    (hs : ∀ x ∈ s.intentos, P x) (hnuevo : ∀ h code msgId, P (Intento.nuevo h code msgId))
    (hinterrupt : ∀ x, P x → P x.interrupt) (hexpire : ∀ x, P x → P x.expire)
    (hgiveBack : ∀ x, P x → P x.giveBack)
    (hclosed : ∀ x, P x → P (x.receive p.toDart .closed))
    (herror : ∀ x text, P x → P (x.receive p.toDart (.error text)))
    (hframe : ∀ k raw m, e = .frame k raw → decodeFrame p.toDart raw = some m →
      ∀ x ∈ s.intentos, P x → P (x.receive p.toDart (.frame m))) :
    ∀ x ∈ s'.intentos, P x := by
  cases hstep with
  | nada => exact hs
  | start s' hs' => exact hs'.forall_intentos hs (hnuevo _)
  | execute code s' hs' => exact hs'.forall_intentos hs (hnuevo _)
  | close =>
    rw [intentos_close]
    exact hs
  | interrumpe i hi => exact forall_intentos_modify hs i hinterrupt
  | creado => exact hs
  | noCreado => exact hs
  | borrado => exact hs
  | adelantado => exact hs
  | listo h k s' hpc hs' => exact hs'.forall_intentos hs (hnuevo _)
  | falla => exact hs
  | viejoCerrado h s' hpc hs' => exact hs'.forall_intentos hs (hnuevo _)
  | reintenta h x s' hx hpc hattempt hs' => exact hs'.forall_intentos hs (hnuevo _)
  | agotado => exact hs
  | cerrado => exact hs
  | frame k raw x m hk hstate hm =>
    exact forall_intentos_emit hs (hframe k raw m rfl hm)
  | error k text x hk hstate hgen =>
    exact forall_intentos_emit hs fun x _ => herror x text
  | doneViejo => exact hs
  | done k x hk hstate hgen =>
    exact forall_intentos_emit hs fun x _ => hclosed x
  | vence h i x hpc hx hlisto => exact forall_intentos_modify hs i hexpire
  | retorna h i x hpc hx hlisto hdead => exact forall_intentos_modify hs i hgiveBack
  | muere h i x hpc hx hlisto hdead => exact forall_intentos_modify hs i hgiveBack

end Intentos

end ColabRuntime
end Nerea.Colab
