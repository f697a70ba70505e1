import Nerea.Agents.LoopUniqueness

/-!
# The state in which an activation leaves its agent

The final answer and the failures write a status, but the loop is also left without one:
when a message or a call is malformed, under a raised stop flag, and at the limit when the
status is not running. Then the status before the step stays, and it must be a final one.
-/

set_option autoImplicit false

namespace Nerea.Agents

def AgentStatus.EsFinal (st : AgentStatus) : Prop := st = .idle ∨ st = .stopped ∨ st = .error

def Agent.pendiente (a : Agent) : String × Option Args × Option WaiterId :=
  (a.pendingToolName, a.pendingToolArgs, a.permissionWaiter)

/-- No pending tool and no waiter. -/
def Agent.SinPendiente (a : Agent) : Prop := a.pendiente = ("", none, none)

namespace AgentManager

/-- How the activation `k` may have ended from `s` to `s'`: without a status, or with one. -/
structure Salida (k : LoopId) (ref : Ref) (s s' : AgentManager) (muda : Prop) : Prop where
  pendiente : s'.loops k = none → (s'.heap ref).pendiente = (s.heap ref).pendiente
  callada : muda → s'.loops k = none ∧ (s'.heap ref).status = (s.heap ref).status
  con_status : ¬ muda → s'.loops k = none → (s'.heap ref).status.EsFinal

variable {k : LoopId} {ref : Ref} {s s' s'' : AgentManager} {muda : Prop}

theorem Salida.of_eq (h : Salida k ref s' s'' muda)
    (hstatus : (s'.heap ref).status = (s.heap ref).status)
    (hpendiente : (s'.heap ref).pendiente = (s.heap ref).pendiente) :
    Salida k ref s s'' muda where
  pendiente := fun hnone => (h.pendiente hnone).trans hpendiente
  callada := fun hmuda => ⟨(h.callada hmuda).1, (h.callada hmuda).2.trans hstatus⟩
  con_status := h.con_status

theorem Salida.congr {muda' : Prop} (h : Salida k ref s s' muda) (hiff : muda ↔ muda') :
    Salida k ref s s' muda' := by
  rwa [← hiff]

theorem Salida.addLog {m : AgentMsg} (h : Salida k ref (s.addLog ref m) s' muda) :
    Salida k ref s s' muda := by
  apply h.of_eq
  · rw [AgentManager.addLog, heap_modify_self]
  · rw [AgentManager.addLog, heap_modify_self]
    rfl

structure Despejado (s : AgentManager) : Prop where
  libres : ∀ ref, (∀ k w name args, ¬ s.Espera k ref w name args) → (s.heap ref).SinPendiente
  frescos : ∀ k, s.lanzados ≤ k → s.loops k = none

theorem Despejado.of_frame (hs : Despejado s) (hk : k < s.lanzados)
    (hajena : ∀ r, s.Viva k r → r = ref) (hlanzados : s'.lanzados = s.lanzados)
    (hheap : ∀ r, r ≠ ref → s'.heap r = s.heap r)
    (hloops : ∀ k', k' ≠ k → s'.loops k' = s.loops k')
    (hself : (∀ k w name args, ¬ s'.Espera k ref w name args) → (s'.heap ref).SinPendiente) :
    Despejado s' where
  libres := by
    intro r hr
    by_cases heq : r = ref
    · rw [heq] at hr ⊢
      exact hself hr
    · rw [hheap r heq]
      apply hs.libres r
      intro k' w name args hespera
      by_cases hk' : k' = k
      · rw [hk'] at hespera
        exact heq (hajena r hespera.viva)
      · obtain ⟨resto, hresto⟩ := hespera
        exact hr k' w name args ⟨resto, (hloops k' hk').trans hresto⟩
  frescos := by
    intro k' hk'
    rw [hlanzados] at hk'
    have hne : k' ≠ k := by
      rintro rfl
      exact Nat.not_le_of_lt hk hk'
    rw [hloops k' hne]
    exact hs.frescos k' hk'

theorem Marco.pendiente (h : Marco k ref s s') :
    (s'.heap ref).pendiente = (s.heap ref).pendiente := by
  have hfijo := h.fijo
  simp only [Agent.fijo, Prod.mk.injEq] at hfijo
  obtain ⟨-, -, -, hwaiter, hname, hargs⟩ := hfijo
  rw [Agent.pendiente, hwaiter, hname, hargs]
  rfl

theorem Avance.loops_other (h : Avance k ref s s') {k' : LoopId} (hk : k' ≠ k) :
    s'.loops k' = s.loops k' := by
  cases h with
  | calla h _ => exact h.loops_other k' hk
  | ejecuta args resto h _ _ _ =>
    exact (loops_await_of_ne hk _ ref _).trans (h.loops_other k' hk)
  | pide args resto h _ _ =>
    exact (loops_await_of_ne hk _ ref _).trans (h.loops_other k' hk)

theorem Avance.despejado (h : Avance k ref s s') (hs : Despejado s) (hk : k < s.lanzados)
    (hajena : ∀ r, s.Viva k r → r = ref) (hself : (s.heap ref).SinPendiente) :
    Despejado s' := by
  have hother : ∀ k', k' ≠ k → s'.loops k' = s.loops k' := fun k' hk' => h.loops_other hk'
  cases h with
  | calla h _ =>
    exact hs.of_frame hk hajena h.lanzados h.heap_other hother fun _ => h.pendiente.trans hself
  | ejecuta args resto h _ _ _ =>
    exact hs.of_frame hk hajena h.lanzados h.heap_other hother fun _ => h.pendiente.trans hself
  | @pide s' name tool args resto h _ _ =>
    have hlanzados : (s'.askPermission k ref name args resto).lanzados = s.lanzados := h.lanzados
    refine hs.of_frame hk hajena hlanzados ?_ hother ?_
    · intro r hr
      rw [heap_askPermission_of_ne hr]
      exact h.heap_other r hr
    · intro hno
      exact absurd ⟨resto, loops_await_self _ k ref _⟩ (hno k s'.waiters name args)

theorem Despejado.sereno (hs : Despejado s) (h : Sereno s s') (hlanzados : s'.lanzados = s.lanzados)
    (hpendiente : ∀ r, (s'.heap r).pendiente = (s.heap r).pendiente) : Despejado s' where
  libres := by
    intro r hr
    apply (hpendiente r).trans
    apply hs.libres r
    intro k w name args hresto
    rcases hresto with ⟨resto, hresto⟩
    exact hr k w name args ⟨resto, by rw [h.loops]; exact hresto⟩
  frescos := by
    intro k hk
    rw [h.loops]
    exact hs.frescos k (hlanzados ▸ hk)

theorem pendiente_modify {f : Agent → Agent}
    (hf : (f (s.heap ref)).pendiente = (s.heap ref).pendiente) (r : Ref) :
    ((s.modify ref f).heap r).pendiente = (s.heap r).pendiente := by
  by_cases hr : r = ref
  · rw [hr, heap_modify_self, hf]
  · rw [heap_modify_of_ne hr]

theorem Despejado.modify (hs : Despejado s) {f : Agent → Agent}
    (hid : (f (s.heap ref)).id = (s.heap ref).id)
    (hpendiente : (f (s.heap ref)).pendiente = (s.heap ref).pendiente) :
    Despejado (s.modify ref f) :=
  hs.sereno (sereno_modify s ref (congrArg (·.2.2) hpendiente) hid) rfl
    (pendiente_modify hpendiente)

theorem Despejado.stopAgent (hs : Despejado s) (ref : Ref) : Despejado (s.stopAgent ref).1 := by
  have hflag : Despejado (s.raiseFlag ref) := hs.modify rfl rfl
  unfold AgentManager.stopAgent
  split
  · exact hflag
  · rename_i s' hanswer
    have hframe : s'.heap = (s.raiseFlag ref).heap ∧ s'.lanzados = s.lanzados := by
      unfold answer at hanswer
      split at hanswer
      · obtain rfl := Option.some.inj hanswer
        exact ⟨rfl, rfl⟩
      · obtain ⟨-, rfl⟩ := complete_eq_some hanswer
        exact ⟨rfl, rfl⟩
    have hs' : Despejado s' :=
      hflag.sereno (sereno_answer hanswer) hframe.2 fun r => by rw [hframe.1]
    have hset : Despejado (s'.setStopped ref) := hs'.modify rfl rfl
    exact hset

theorem Despejado.resolvePermission (hs : Despejado s) (id : String) (granted : Bool) :
    Despejado (s.resolvePermission id granted) := by
  have hframe : (s.resolvePermission id granted).heap = s.heap ∧
      (s.resolvePermission id granted).lanzados = s.lanzados := by
    unfold AgentManager.resolvePermission
    split
    · exact ⟨rfl, rfl⟩
    · split
      · exact ⟨rfl, rfl⟩
      · split
        · exact ⟨rfl, rfl⟩
        · rename_i h
          obtain ⟨-, rfl⟩ := complete_eq_some h
          exact ⟨rfl, rfl⟩
  exact hs.sereno (sereno_resolvePermission s id granted) hframe.2 fun r => by rw [hframe.1]

theorem Despejado.create (hs : Despejado s) (x : Datos) : Despejado (s.create x) where
  libres := by
    intro r hr
    by_cases heq : r = s.creados
    · rw [heq, heap_create_self]
      rfl
    · rw [heap_create_of_ne heq]
      exact hs.libres r hr
  frescos := hs.frescos

/-- Only `k` is alive for the agent and it does not wait for an answer. -/
theorem Despejado.sinPendiente (hs : Despejado s) (hu : UnSoloLoop s) {pc : Pc}
    (hk : s.loops k = some ⟨ref, pc⟩) (hpc : pc.isPermiso = false) :
    (s.heap ref).SinPendiente := by
  apply hs.libres ref
  intro k' w name args hespera
  obtain rfl := hu.unico k' k ref hespera.viva ⟨pc, hk⟩
  obtain ⟨resto, hresto⟩ := hespera
  rw [hk] at hresto
  cases hresto
  cases hpc

theorem Despejado.lanzado (hs : Despejado s) {a : Activacion} (hk : s.loops k = some a) :
    k < s.lanzados := by
  by_contra h
  rw [hs.frescos k (Nat.not_lt.mp h)] at hk
  cases hk

theorem viva_unica {a : Activacion} (hk : s.loops k = some a) :
    ∀ r, s.Viva k r → r = a.ref := by
  intro r hpc
  rcases hpc with ⟨pc, hpc⟩
  rw [hk] at hpc
  cases hpc
  rfl

theorem sinPendiente_clearPending (s : AgentManager) (ref : Ref) :
    ((s.clearPending ref).heap ref).SinPendiente := by
  rw [clearPending, heap_modify_self]
  rfl

theorem Despejado.clearPending (hs : Despejado s) (ref : Ref) :
    Despejado (s.clearPending ref) where
  libres := by
    intro r hr
    by_cases heq : r = ref
    · rw [heq]
      exact sinPendiente_clearPending s ref
    · rw [AgentManager.clearPending, heap_modify_of_ne heq]
      exact hs.libres r hr
  frescos := hs.frescos

theorem Despejado.handleAnswer (hs : Despejado s) (d : Dart) {w : WaiterId} {name : String}
    {args : Args} {resto : List Json} (granted : Bool)
    (hk : s.loops k = some ⟨ref, .permiso w name args resto⟩) :
    Despejado (s.handleAnswer d k ref w name args resto granted) := by
  have hclear := hs.clearPending ref
  have hself := sinPendiente_clearPending s ref
  have hlt : k < (s.clearPending ref).lanzados := hs.lanzado hk
  have hajena : ∀ r, (s.clearPending ref).Viva k r → r = ref := viva_unica hk
  unfold AgentManager.handleAnswer
  dsimp only
  split
  · exact (avance_iterate d _ k ref).despejado hclear hlt hajena hself
  · split
    · exact ((marco_addLog k ref _ _).avance (runCalls_avance d _ k ref resto)).despejado hclear
        hlt hajena hself
    · exact hclear.of_frame hlt hajena rfl (fun _ _ => rfl)
        (fun _ hk' => loops_await_of_ne hk' _ ref _) fun _ => hself

theorem Cambio.despejado {d : Dart} {e : Evento} (h : Cambio d s e s') (hs : Despejado s)
    (hu : UnSoloLoop s) (he : TalkSinLoop s e) : Despejado s' := by
  have havance {k : LoopId} {ref : Ref} {pc : Pc} {s' : AgentManager}
      (hk : s.loops k = some ⟨ref, pc⟩) (hpc : pc.isPermiso = false) (h : Avance k ref s s') :
      Despejado s' :=
    h.despejado hs (hs.lanzado hk) (viva_unica hk) (hs.sinPendiente hu hk hpc)
  cases h with
  | nada => exact hs
  | create x => exact hs.create x
  | remove id => exact ⟨hs.libres, hs.frescos⟩
  | stop id ref _ => exact hs.stopAgent ref
  | revive id ref _ =>
    have hidle : Despejado (s.setIdle ref) := hs.modify rfl rfl
    exact ⟨hidle.libres, hidle.frescos⟩
  | resolvePermission id granted => exact hs.resolvePermission id granted
  | talk id task ref hid hstatus =>
    have hlibre : (s.heap ref).SinPendiente :=
      hs.libres ref fun k w name args hespera => he ref hid hstatus k hespera.viva
    have hlanzado : Despejado { s with lanzados := s.lanzados + 1 } :=
      ⟨hs.libres, fun k hk => hs.frescos k (Nat.le_of_succ_le hk)⟩
    have hreceive : Despejado (s.receive ref task) := hlanzado.modify rfl rfl
    have hself : ((s.receive ref task).heap ref).SinPendiente := by
      rw [receive, heap_modify_self]
      exact hlibre
    apply (avance_iterate d _ s.lanzados ref).despejado hreceive (Nat.lt_succ_self _) _ hself
    intro r hpc
    rcases hpc with ⟨pc, hpc⟩
    have hfresco : s.loops s.lanzados = none := hs.frescos _ (Nat.le_refl _)
    exact absurd (hfresco.symm.trans hpc) (by simp)
  | setHistMode ref modo => exact hs.modify rfl rfl
  | resumen k ref _ _ _ _ _ hk => exact havance hk rfl (handleSummary_avance s k ref _ _ _ _)
  | envio k ref _ _ hk => exact havance hk rfl (send_avance s k ref _ _)
  | respuesta k ref _ res hk => exact havance hk rfl (handleReply_avance d s k ref res)
  | permiso k ref _ _ _ _ granted hk _ => exact hs.handleAnswer d granted hk
  | herramienta k ref _ _ out hk => exact havance hk rfl (handleOutput_avance d s k ref _ _ out)

end AgentManager
end Nerea.Agents
