import Nerea.Agents.LoopFrame

/-!
# When a stop is final

An activation under a raised stop flag calls no tool and asks nothing, but it looks at the
flag only before the next iteration and the next call: what ends its request still writes a
status, and `remove` raises no flag at all. The stop is final as long as the requests that
end meanwhile are refused keys or calls of tools.
-/

set_option autoImplicit false

namespace Nerea.Agents

def Suceso.isEjecutadoDe (ref : Ref) : Suceso → Bool
  | ejecutado ref' _ _ _ _ => ref' == ref
  | _ => false

theorem Suceso.isEjecutadoDe_of_isEnviado {x : Suceso} (h : x.isEnviado = true) (ref : Ref) :
    x.isEjecutadoDe ref = false := by
  cases x with
  | enviado ref' key mensajes => rfl
  | resuelto ref' w granted name args => rfl
  | ejecutado ref' name args permissions waiter => cases h

namespace AgentManager

def ejecuciones (s : AgentManager) (ref : Ref) : List Suceso :=
  s.historia.filter fun x => x.isEjecutadoDe ref

/-- A reply after which a flagged activation only leaves: the key is refused, the message is
no object, or it calls tools. -/
def Inocua (d : Dart) : Respuesta → Prop
  | .fallo _ => False
  | .http statusCode body => statusCode = 401 ∨ statusCode = 403 ∨
      statusCode = 200 ∧ ∃ msg, mensajeDe d body = some msg ∧
        (msg.get "tool_calls" = none ∨
          ∃ tc calls, msg.get "tool_calls" = some (.arr (tc :: calls)))

/-- No flagged activation gets a reply that writes a status, and no agent is removed while
an activation of it goes on unflagged. -/
def SinFinal (d : Dart) (s : AgentManager) : Evento → Prop
  | .respuesta k res => ∀ ref key, s.loops k = some ⟨ref, .respuesta key⟩ →
      (s.heap ref).stopFlag = true → Inocua d res
  | .envio k => ∀ ref key mensajes, s.loops k = some ⟨ref, .mensajes key mensajes⟩ →
      (s.heap ref).stopFlag = true → ∃ p, providerById (s.heap ref).providerId = some p
  | .remove id => ∀ ref ∈ s.agents, (s.heap ref).id = id →
      (s.heap ref).stopFlag = true ∧ (s.heap ref).status ≠ .running ∨ ∀ k, ¬ s.Viva k ref
  | _ => True

def Ajeno (ref : Ref) (s : AgentManager) : Evento → Prop
  | .talk id _ => s.byId id ≠ some ref
  | .revive id => s.byId id ≠ some ref
  | _ => True

/-- Stopped (and perhaps `visible` in the list), or removed with nothing going on: the status
and the calls stay. -/
structure Final (visible : Prop) (ref : Ref) (st : AgentStatus) (xs : List Suceso)
    (s : AgentManager) : Prop where
  creado : ref < s.creados
  status : (s.heap ref).status = st
  calls : s.ejecuciones ref = xs
  quieto : (s.heap ref).stopFlag = true ∧ st ≠ .running ∨ ∀ k, ¬ s.Viva k ref
  listado : ref ∈ s.agents → visible ∧ st = .stopped

variable {k : LoopId} {ref ref' : Ref} {s s' : AgentManager} {st : AgentStatus}
  {xs : List Suceso} {visible : Prop}

theorem Final.of_eq (hs : Final visible ref st xs s)
    (hstatus : (s'.heap ref).status = (s.heap ref).status)
    (hflag : (s.heap ref).stopFlag = true → (s'.heap ref).stopFlag = true)
    (hcalls : s'.ejecuciones ref = s.ejecuciones ref) (hcreados : s.creados ≤ s'.creados)
    (hagents : ref ∈ s'.agents → ref ∈ s.agents) (hviva : ∀ k, s'.Viva k ref → s.Viva k ref) :
    Final visible ref st xs s' where
  creado := Nat.lt_of_lt_of_le hs.creado hcreados
  status := hstatus.trans hs.status
  calls := hcalls.trans hs.calls
  quieto := by
    rcases hs.quieto with ⟨h, hne⟩ | h
    · exact Or.inl ⟨hflag h, hne⟩
    · exact Or.inr fun k hk => h k (hviva k hk)
  listado := fun h => hs.listado (hagents h)

/-- A step that leaves the agent's record as it is. -/
theorem Final.of_heap (hs : Final visible ref st xs s) (hheap : s'.heap ref = s.heap ref)
    (hcalls : s'.ejecuciones ref = s.ejecuciones ref) (hcreados : s.creados ≤ s'.creados)
    (hagents : ref ∈ s'.agents → ref ∈ s.agents) (hviva : ∀ k, s'.Viva k ref → s.Viva k ref) :
    Final visible ref st xs s' := by
  apply hs.of_eq _ _ hcalls hcreados hagents hviva
  · rw [hheap]
  · rw [hheap]
    exact id

theorem Marco.ejecuciones (h : Marco k ref' s s') (ref : Ref) :
    s'.ejecuciones ref = s.ejecuciones ref := by
  obtain ⟨envios, hhist, henvios⟩ := h.historia
  have hnil : envios.filter (fun x => x.isEjecutadoDe ref) = [] := by
    apply List.filter_eq_nil_iff.mpr
    intro x hx
    rw [Suceso.isEjecutadoDe_of_isEnviado (henvios x hx) ref]
    exact Bool.false_ne_true
  rw [AgentManager.ejecuciones, hhist, List.filter_append, hnil, List.nil_append]
  rfl

theorem Marco.viva_of_ne (h : Marco k ref' s s') (hne : ref ≠ ref') {k' : LoopId}
    (hk : s'.Viva k' ref) : s.Viva k' ref := by
  obtain ⟨pc, hpc⟩ := hk
  by_cases heq : k' = k
  · rw [heq] at hpc ⊢
    rcases h.loops_self with hself | hself | ⟨pc', -, hself⟩
    · exact ⟨pc, hself ▸ hpc⟩
    · rw [hself] at hpc
      cases hpc
    · rw [hself] at hpc
      cases hpc
      exact absurd rfl hne
  · exact ⟨pc, h.loops_other k' heq ▸ hpc⟩

theorem Final.marco_of_ne (hs : Final visible ref st xs s) (h : Marco k ref' s s')
    (hne : ref ≠ ref') : Final visible ref st xs s' := by
  apply hs.of_heap (h.heap_other ref hne)
  · exact h.ejecuciones ref
  · exact h.creados.ge
  · exact fun hr => h.agents ▸ hr
  · exact fun k' hk => h.viva_of_ne hne hk

theorem viva_await_of_ne (hne : ref ≠ ref') {pc : Pc} {k' : LoopId}
    (hk : (s.await k ref' pc).Viva k' ref) : s.Viva k' ref := by
  obtain ⟨pc', hpc⟩ := hk
  by_cases heq : k' = k
  · rw [heq, loops_await_self] at hpc
    cases hpc
    exact absurd rfl hne
  · exact ⟨pc', loops_await_of_ne heq s ref' pc ▸ hpc⟩

theorem Final.execute_of_ne (hs : Final visible ref st xs s) (hne : ref ≠ ref') (name : String)
    (args : Args) (waiter : Option WaiterId) (resto : List Json) :
    Final visible ref st xs (s.execute k ref' name args waiter resto) := by
  have hother : (ref' == ref) = false := by simpa using hne.symm
  have hheap : (s.execute k ref' name args waiter resto).heap ref = s.heap ref := rfl
  apply hs.of_heap hheap
  · simp only [AgentManager.ejecuciones, AgentManager.execute, await, List.filter_cons,
      Suceso.isEjecutadoDe, hother, Bool.false_eq_true, if_false]
  · exact le_refl s.creados
  · exact id
  · exact fun k' hk => viva_await_of_ne hne hk

theorem Final.askPermission_of_ne (hs : Final visible ref st xs s) (hne : ref ≠ ref')
    (name : String) (args : Args) (resto : List Json) :
    Final visible ref st xs (s.askPermission k ref' name args resto) := by
  apply hs.of_heap (heap_askPermission_of_ne hne s k name args resto)
  · rfl
  · exact le_refl s.creados
  · exact id
  · exact fun k' hk => viva_await_of_ne hne hk

theorem Avance.final_of_ne (h : Avance k ref' s s') (hs : Final visible ref st xs s)
    (hne : ref ≠ ref') : Final visible ref st xs s' := by
  cases h with
  | calla h _ => exact hs.marco_of_ne h hne
  | ejecuta args resto h _ _ _ => exact (hs.marco_of_ne h hne).execute_of_ne hne _ args none resto
  | pide args resto h _ _ => exact (hs.marco_of_ne h hne).askPermission_of_ne hne _ args resto

theorem Final.modify_of_ne (hs : Final visible ref st xs s) (hne : ref ≠ ref')
    (f : Agent → Agent) : Final visible ref st xs (s.modify ref' f) := by
  apply hs.of_heap (heap_modify_of_ne hne s f)
  · rfl
  · exact le_refl s.creados
  · exact id
  · exact fun k' hk => hk

/-- Under a raised flag an activation neither calls a tool nor asks. -/
theorem Avance.marco_of_stopFlag (h : Avance k ref s s') (hflag : (s.heap ref).stopFlag = true) :
    Marco k ref s s' := by
  cases h with
  | calla h _ => exact h
  | ejecuta args resto _ _ _ hstop => exact absurd (hflag.symm.trans hstop) (by simp)
  | pide args resto _ _ hstop => exact absurd (hflag.symm.trans hstop) (by simp)

theorem Final.marco_self (hs : Final visible ref st xs s) (hk : s.Viva k ref)
    (h : Marco k ref s s') (hstatus : (s'.heap ref).status = (s.heap ref).status) :
    Final visible ref st xs s' := by
  apply hs.of_eq hstatus
  · exact fun hflag => h.stopFlag.trans hflag
  · exact h.ejecuciones ref
  · exact h.creados.ge
  · exact fun hr => h.agents ▸ hr
  · intro k' hpc
    rcases hpc with ⟨pc, hpc⟩
    by_cases heq : k' = k
    · rw [heq]
      exact hk
    · exact ⟨pc, h.loops_other k' heq ▸ hpc⟩

theorem Final.flag (hs : Final visible ref st xs s) (hk : s.Viva k ref) :
    (s.heap ref).stopFlag = true ∧ (s.heap ref).status ≠ .running := by
  rcases hs.quieto with ⟨hflag, hne⟩ | h
  · exact ⟨hflag, hs.status ▸ hne⟩
  · exact absurd hk (h k)

theorem iterate_of_stopFlag (d : Dart) (k : LoopId) (hflag : (s.heap ref).stopFlag = true)
    (hstatus : (s.heap ref).status ≠ .running) : s.iterate d k ref = s.finish k := by
  unfold iterate
  rw [if_neg (by simp [hflag]), if_neg (by simp [hstatus])]

theorem runCalls_of_stopFlag (d : Dart) (k : LoopId) (hflag : (s.heap ref).stopFlag = true)
    (hstatus : (s.heap ref).status ≠ .running) (calls : List Json) :
    s.runCalls d k ref calls = s.finish k := by
  cases calls with
  | nil => exact iterate_of_stopFlag d k hflag hstatus
  | cons tc resto => rw [runCalls, if_pos hflag, iterate_of_stopFlag d k hflag hstatus]

@[simp] theorem heap_addLog_status (s : AgentManager) (ref : Ref) (m : AgentMsg) :
    ((s.addLog ref m).heap ref).status = (s.heap ref).status := by
  rw [addLog, heap_modify_self]

@[simp] theorem heap_addLog_stopFlag (s : AgentManager) (ref : Ref) (m : AgentMsg) :
    ((s.addLog ref m).heap ref).stopFlag = (s.heap ref).stopFlag := by
  rw [addLog, heap_modify_self]

theorem status_handleMessage (d : Dart) (k : LoopId) (hflag : (s.heap ref).stopFlag = true)
    (hstatus : (s.heap ref).status ≠ .running) {msg : Json}
    (hmsg : msg.get "tool_calls" = none ∨
      ∃ tc calls, msg.get "tool_calls" = some (.arr (tc :: calls))) :
    ((s.handleMessage d k ref msg).heap ref).status = (s.heap ref).status := by
  unfold handleMessage
  rcases hmsg with hmsg | ⟨tc, calls, hmsg⟩
  · rw [hmsg]
    rfl
  · rw [hmsg]
    cases msg.get "content" with
    | none => rfl
    | some content =>
      dsimp only
      split
      · rw [runCalls_of_stopFlag d k hflag hstatus]
        rfl
      · rw [runCalls_of_stopFlag d k (by simpa using hflag) (by simpa using hstatus)]
        exact heap_addLog_status s ref _

theorem status_handleReply (d : Dart) (k : LoopId) (hflag : (s.heap ref).stopFlag = true)
    (hstatus : (s.heap ref).status ≠ .running) {res : Respuesta} (hres : Inocua d res) :
    ((s.handleReply d k ref res).heap ref).status = (s.heap ref).status := by
  cases res with
  | fallo e => exact absurd hres id
  | http statusCode body =>
    unfold handleReply
    dsimp only
    split
    · set s' := { s with vault := s.vault.markDeadAndRotate (s.heap ref).providerId }
      have hiterate : s'.iterate d k ref = s'.finish k := iterate_of_stopFlag d k hflag hstatus
      rw [hiterate]
      rfl
    · rename_i hauth
      rcases hres with h | h | ⟨h200, msg, hmsg, hcalls⟩
      · exact absurd (Or.inl h) hauth
      · exact absurd (Or.inr h) hauth
      · rw [if_neg (not_not_intro h200), hmsg]
        exact status_handleMessage d k hflag hstatus hcalls

theorem status_handleSummary (k : LoopId) (key : String) (sistema : Json) (poda : Poda)
    (resumen : Option String) :
    ((s.handleSummary k ref key sistema poda resumen).heap ref).status =
      (s.heap ref).status := by
  unfold handleSummary
  split
  · have hstore : ((s.storeResumen ref poda resumen).heap ref).status = (s.heap ref).status := by
      cases resumen with
      | none => rfl
      | some r => rw [storeResumen, heap_modify_self]
    exact hstore
  · rfl

theorem Final.modify_self (hs : Final visible ref st xs s) {f : Agent → Agent}
    (hstatus : (f (s.heap ref)).status = (s.heap ref).status)
    (hflag : (s.heap ref).stopFlag = true → (f (s.heap ref)).stopFlag = true) :
    Final visible ref st xs (s.modify ref f) := by
  apply hs.of_eq
  · rw [heap_modify_self, hstatus]
  · rw [heap_modify_self]
    exact hflag
  · rfl
  · exact le_refl s.creados
  · exact id
  · exact fun k' hk => hk

theorem Final.create (hs : Final visible ref st xs s) (x : Datos) :
    Final visible ref st xs (s.create x) := by
  apply hs.of_heap (heap_create_of_ne (Nat.ne_of_lt hs.creado) x)
  · rfl
  · exact Nat.le_succ s.creados
  · intro hr
    rcases List.mem_append.mp hr with hr | hr
    · exact hr
    · exact absurd (List.mem_singleton.mp hr) (Nat.ne_of_lt hs.creado)
  · exact fun k' hk => hk

theorem Final.complete (hs : Final visible ref st xs s) {w : WaiterId} {granted : Bool}
    (h : s.complete w granted = some s') : Final visible ref st xs s' := by
  obtain ⟨-, rfl⟩ := complete_eq_some h
  exact hs.of_heap rfl rfl (le_refl s.creados) id fun k' hk => hk

theorem Final.answer (hs : Final visible ref st xs s) {granted : Bool}
    (h : s.answer ref' granted = some s') : Final visible ref st xs s' := by
  unfold AgentManager.answer at h
  split at h
  · exact Option.some.inj h ▸ hs
  · exact hs.complete h

theorem Final.stopAgent (hs : Final visible ref st xs s) {id : String}
    (hid : s.byId id = some ref') : Final visible ref st xs (s.stopAgent ref').1 := by
  have hflag : Final visible ref st xs (s.raiseFlag ref') := by
    by_cases hne : ref = ref'
    · subst hne
      exact hs.modify_self rfl fun _ => rfl
    · exact hs.modify_of_ne hne _
  unfold AgentManager.stopAgent
  split
  · exact hflag
  · rename_i s' hanswer
    have hs' := hflag.answer hanswer
    by_cases hne : ref = ref'
    · subst hne
      have hstopped : (s'.heap ref).status = .stopped :=
        hs'.status.trans (hs.listado (byId_mem hid)).2
      have hset : Final visible ref st xs (s'.setStopped ref) :=
        hs'.modify_self hstopped.symm fun h => h
      exact hset
    · have hset : Final visible ref st xs (s'.setStopped ref') := hs'.modify_of_ne hne _
      exact hset

theorem Final.resolvePermission (hs : Final visible ref st xs s) (id : String) (granted : Bool) :
    Final visible ref st xs (s.resolvePermission id granted) := by
  unfold AgentManager.resolvePermission
  split
  · exact hs
  · split
    · exact hs
    · split
      · exact hs
      · rename_i h
        obtain ⟨-, rfl⟩ := complete_eq_some h
        exact hs.of_heap rfl rfl (le_refl s.creados) (fun h => h) fun k' hk => hk

theorem Final.handleAnswer (d : Dart) (hs : Final visible ref st xs s) {w : WaiterId}
    {name : String} {args : Args} {resto : List Json} (granted : Bool)
    (hk : s.loops k = some ⟨ref', .permiso w name args resto⟩) :
    Final visible ref st xs (s.handleAnswer d k ref' w name args resto granted) := by
  unfold AgentManager.handleAnswer
  dsimp only
  by_cases hne : ref = ref'
  · subst hne
    have hclear : Final visible ref st xs (s.clearPending ref) := hs.modify_self rfl id
    obtain ⟨hflag, hstatus⟩ := hclear.flag ⟨_, hk⟩
    rw [if_pos hflag, iterate_of_stopFlag d k hflag hstatus]
    exact hclear.marco_self ⟨_, hk⟩ (marco_finish k ref _) rfl
  · have hclear : Final visible ref st xs (s.clearPending ref') := hs.modify_of_ne hne _
    split
    · exact (avance_iterate d _ k ref').final_of_ne hclear hne
    · split
      · exact ((marco_addLog k ref' _ _).avance (runCalls_avance d _ k ref' resto)).final_of_ne
          hclear hne
      · exact hclear.execute_of_ne hne name args (some w) resto

theorem Cambio.final {d : Dart} {e : Evento} (h : Cambio d s e s')
    (hs : Final visible ref st xs s) (he : SinFinal d s e) (hajeno : visible → Ajeno ref s e) :
    Final visible ref st xs s' := by
  have hown {k : LoopId} {ref' : Ref} {pc : Pc} {s' : AgentManager}
      (hk : s.loops k = some ⟨ref', pc⟩) (h : Avance k ref' s s')
      (hstatus : ref = ref' → (s.heap ref').stopFlag = true →
        (s.heap ref').status ≠ .running → (s'.heap ref').status = (s.heap ref').status) :
      Final visible ref st xs s' := by
    by_cases hne : ref = ref'
    · subst hne
      obtain ⟨hflag, hrunning⟩ := hs.flag ⟨pc, hk⟩
      exact hs.marco_self ⟨pc, hk⟩ (h.marco_of_stopFlag hflag) (hstatus rfl hflag hrunning)
    · exact h.final_of_ne hs hne
  cases h with
  | nada => exact hs
  | create x => exact hs.create x
  | remove id =>
    exact hs.of_heap rfl rfl (le_refl s.creados) List.mem_of_mem_filter fun k hk => hk
  | stop id ref' hid => exact hs.stopAgent hid
  | revive id ref' hid =>
    have hne : ref ≠ ref' := by
      rintro rfl
      exact hajeno (hs.listado (byId_mem hid)).1 hid
    have hidle : Final visible ref st xs (s.setIdle ref') := hs.modify_of_ne hne _
    exact hidle.marco_of_ne (marco_vault 0 ref' _ _) hne
  | resolvePermission id granted => exact hs.resolvePermission id granted
  | talk id task ref' hid _ =>
    have hne : ref ≠ ref' := by
      rintro rfl
      exact hajeno (hs.listado (byId_mem hid)).1 hid
    have hlanzado : Final visible ref st xs { s with lanzados := s.lanzados + 1 } :=
      hs.of_heap rfl rfl (le_refl s.creados) (fun h => h) fun k hk => hk
    have hreceive : Final visible ref st xs (s.receive ref' task) := hlanzado.modify_of_ne hne _
    exact (avance_iterate d _ s.lanzados ref').final_of_ne hreceive hne
  | setHistMode ref' modo =>
    by_cases hne : ref = ref'
    · subst hne
      have hmode : Final visible ref st xs (s.setHistMode ref modo) := hs.modify_self rfl id
      exact hmode
    · have hmode : Final visible ref st xs (s.setHistMode ref' modo) := hs.modify_of_ne hne _
      exact hmode
  | resumen k ref' _ _ _ _ _ hk =>
    apply hown hk (handleSummary_avance s k ref' _ _ _ _)
    intro _ _ _
    exact status_handleSummary k _ _ _ _
  | envio k ref' key mensajes hk =>
    apply hown hk (send_avance s k ref' _ _)
    intro _ hflag _
    obtain ⟨p, hp⟩ := he ref' key mensajes hk hflag
    rw [send, hp]
    rfl
  | respuesta k ref' key res hk =>
    apply hown hk (handleReply_avance d s k ref' res)
    intro _ hflag hstatus
    exact status_handleReply d k hflag hstatus (he ref' key hk hflag)
  | permiso k ref' _ _ _ _ _ hk _ => exact hs.handleAnswer d _ hk
  | herramienta k ref' _ _ out hk =>
    apply hown hk (handleOutput_avance d s k ref' _ _ out)
    intro _ hflag hstatus
    rw [handleOutput, runCalls_of_stopFlag d k (by simpa using hflag) (by simpa using hstatus)]
    exact heap_addLog_status s _ _

theorem final_stop {id : String} (ha : Asignados s) (hid : s.byId id = some ref)
    (hreturns : (s.stopAgent ref).2 = true) :
    Final True ref .stopped (s.ejecuciones ref) (s.stop id) := by
  have hcreado : ref < s.creados := ha.listados ref (byId_mem hid)
  cases hanswer : (s.raiseFlag ref).answer ref false with
  | none => simp [stopAgent, hanswer] at hreturns
  | some s' =>
    have hstop : s.stop id = s'.setStopped ref := by
      simp only [stop, hid, stopAgent, hanswer]
    have hfields : s'.heap = (s.raiseFlag ref).heap ∧ s'.historia = s.historia ∧
        s'.creados = s.creados := by
      unfold answer at hanswer
      split at hanswer
      · obtain rfl := Option.some.inj hanswer
        exact ⟨rfl, rfl, rfl⟩
      · obtain ⟨-, rfl⟩ := complete_eq_some hanswer
        exact ⟨rfl, rfl, rfl⟩
    obtain ⟨hheap, hhistoria, hcreados⟩ := hfields
    rw [hstop]
    refine ⟨hcreados ▸ hcreado, ?_, congrArg (List.filter _) hhistoria, Or.inl ⟨?_, by simp⟩,
      fun _ => ⟨trivial, rfl⟩⟩
    · exact congrArg Agent.status (heap_modify_self s' ref _)
    · rw [setStopped, heap_modify_self, hheap, raiseFlag, heap_modify_self]

theorem final_remove {id : String} (ha : Asignados s) (hmem : ref ∈ s.agents)
    (hid : (s.heap ref).id = id) (d : Dart) (hsin : SinFinal d s (.remove id)) :
    Final False ref (s.heap ref).status (s.ejecuciones ref) (s.remove id) where
  creado := ha.listados ref hmem
  status := rfl
  calls := rfl
  quieto := hsin ref hmem hid
  listado := by
    intro h
    simpa [hid] using (List.mem_filter.mp h).2

theorem correr_final (d : Dart) (hs : Final visible ref st xs s) {es : List Evento}
    (hes : Run.AllSteps (paso d) (fun s e => SinFinal d s e ∧ (visible → Ajeno ref s e)) s es) :
    Final visible ref st xs (correr d s es) :=
  Run.invariant_of_allSteps (fun s e hs he => (paso_cambio d s e).final hs he.1 he.2) hs hes

/-- In every run, a stop that returned stays in force while nothing speaks to the agent, and a
removal for ever, as long as the steps meanwhile meet the condition. -/
theorem stop_remove_final (d : Dart) (vault : KeyVault) (cargados : List Agent)
    (antes : List Evento) :
    (∀ id ref es, (correr d (inicial vault cargados) antes).byId id = some ref →
      ((correr d (inicial vault cargados) antes).stopAgent ref).2 = true →
      Run.AllSteps (paso d) (fun s e => SinFinal d s e ∧ Ajeno ref s e)
        ((correr d (inicial vault cargados) antes).stop id) es →
      let s := correr d (inicial vault cargados) antes
      let s' := correr d (s.stop id) es
      (s'.heap ref).status = .stopped ∧ s'.ejecuciones ref = s.ejecuciones ref) ∧
    (∀ id ref es, ref ∈ (correr d (inicial vault cargados) antes).agents →
      ((correr d (inicial vault cargados) antes).heap ref).id = id →
      Run.AllSteps (paso d) (SinFinal d) (correr d (inicial vault cargados) antes)
        (.remove id :: es) →
      let s := correr d (inicial vault cargados) antes
      let s' := correr d (s.remove id) es
      (s'.heap ref).status = (s.heap ref).status ∧ s'.ejecuciones ref = s.ejecuciones ref) := by
  have ha : Asignados (correr d (inicial vault cargados) antes) :=
    Run.invariant (paso_asignados d) (inicial_asignados vault cargados) antes
  constructor
  · intro id ref es hid hreturns hes
    have hfinal := correr_final d (final_stop ha hid hreturns)
      (hes.imp fun s e h => ⟨h.1, fun _ => h.2⟩)
    exact ⟨hfinal.status, hfinal.calls⟩
  · intro id ref es hmem hid hes
    have hfinal := correr_final d (final_remove ha hmem hid d hes.1)
      (hes.2.imp fun s e h => ⟨h, False.elim⟩)
    exact ⟨hfinal.status, hfinal.calls⟩

theorem stop_remove_espera :
    (let s := correr ejemplo (inicial unaClave [sinPermisos])
        [.talk "a" "hola", .envio 0, .respuesta 0 (.http 200 (some "leer"))]
      let s' := correr ejemplo (s.stop "a") [.permiso 0]
      (s'.heap 0).status = .stopped ∧ s'.ejecuciones 0 = s.ejecuciones 0) ∧
    (let s := correr ejemplo (inicial unaClave [sinPermisos])
        [.talk "a" "hola", .envio 0, .respuesta 0 (.http 200 (some "leer")), .stop "a"]
      let s' := correr ejemplo (s.remove "a") [.permiso 0]
      (s'.heap 0).status = (s.heap 0).status ∧ s'.ejecuciones 0 = s.ejecuciones 0) := by
  constructor
  · exact (stop_remove_final ejemplo unaClave [sinPermisos] _).1 "a" 0 [.permiso 0] rfl rfl
      ⟨⟨trivial, trivial⟩, trivial⟩
  · refine (stop_remove_final ejemplo unaClave [sinPermisos] _).2 "a" 0 [.permiso 0] (by decide)
      rfl ⟨?_, trivial, trivial⟩
    intro ref hmem _
    obtain rfl := List.mem_singleton.mp hmem
    exact Or.inl ⟨rfl, by decide⟩

/-- A final answer that was on its way when the agent was stopped makes it idle. -/
theorem stop_respuesta_idle : ¬ ∀ (d : Dart) (vault : KeyVault) (cargados : List Agent)
    (antes : List Evento) (id : String) (ref : Ref) (es : List Evento),
    (correr d (inicial vault cargados) antes).byId id = some ref →
    ((correr d (inicial vault cargados) antes).stopAgent ref).2 = true →
    Run.AllSteps (paso d) (Ajeno ref) ((correr d (inicial vault cargados) antes).stop id) es →
    let s := correr d (inicial vault cargados) antes
    let s' := correr d (s.stop id) es
    (s'.heap ref).status = .stopped ∧ s'.ejecuciones ref = s.ejecuciones ref := by
  intro h
  have hidle := (h ejemplo unaClave [sinPermisos] [.talk "a" "hola", .envio 0] "a" 0
    [.respuesta 0 (.http 200 (some "fin"))] rfl rfl ⟨trivial, trivial⟩).1
  exact absurd hidle (by decide)

end AgentManager
end Nerea.Agents
