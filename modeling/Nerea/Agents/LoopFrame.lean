import Nerea.Agents.Manager

/-!
# What one activation can do

Between two waits an activation changes its own agent's working fields, its own place and
the vault, and it ends in one of three ways: quietly, calling a tool the agent is allowed,
or asking the user. The other calls leave the activations where they are.
-/

set_option autoImplicit false

namespace Nerea.Agents

/-- The fields of an agent that its loops leave alone between two waits. -/
def Agent.fijo (a : Agent) : String × List AgentPermission × Bool × Option WaiterId ×
    String × Option Args :=
  (a.id, a.permissions, a.stopFlag, a.permissionWaiter, a.pendingToolName, a.pendingToolArgs)

def Pc.isPermiso : Pc → Bool
  | permiso _ _ _ _ => true
  | _ => false

def Suceso.isEnviado : Suceso → Bool
  | enviado _ _ _ => true
  | _ => false

def Suceso.isEjecutado : Suceso → Bool
  | ejecutado _ _ _ _ _ => true
  | _ => false

theorem Suceso.isEjecutado_of_isEnviado {x : Suceso} (h : x.isEnviado = true) :
    x.isEjecutado = false := by
  cases x with
  | enviado ref key mensajes => rfl
  | resuelto ref w granted name args => rfl
  | ejecutado ref name args permissions waiter => cases h

namespace AgentManager

/-- From `s` to `s'` the activation `k` of the agent `ref` neither called a tool nor asked. -/
structure Marco (k : LoopId) (ref : Ref) (s s' : AgentManager) : Prop where
  completers : s'.completers = s.completers
  waiters : s'.waiters = s.waiters
  agents : s'.agents = s.agents
  lanzados : s'.lanzados = s.lanzados
  creados : s'.creados = s.creados
  historia : ∃ envios, s'.historia = envios ++ s.historia ∧ ∀ x ∈ envios, x.isEnviado = true
  heap_other : ∀ r, r ≠ ref → s'.heap r = s.heap r
  fijo : (s'.heap ref).fijo = (s.heap ref).fijo
  loops_other : ∀ k', k' ≠ k → s'.loops k' = s.loops k'
  loops_self : s'.loops k = s.loops k ∨ s'.loops k = none ∨
    ∃ pc, pc.isPermiso = false ∧ s'.loops k = some ⟨ref, pc⟩

variable {k : LoopId} {ref : Ref} {s s' s'' : AgentManager}

theorem Marco.refl (k : LoopId) (ref : Ref) (s : AgentManager) : Marco k ref s s where
  completers := rfl
  waiters := rfl
  agents := rfl
  lanzados := rfl
  creados := rfl
  historia := ⟨[], rfl, by simp⟩
  heap_other := fun _ _ => rfl
  fijo := rfl
  loops_other := fun _ _ => rfl
  loops_self := Or.inl rfl

theorem Marco.trans (h : Marco k ref s s') (h' : Marco k ref s' s'') : Marco k ref s s'' where
  completers := h'.completers.trans h.completers
  waiters := h'.waiters.trans h.waiters
  agents := h'.agents.trans h.agents
  lanzados := h'.lanzados.trans h.lanzados
  creados := h'.creados.trans h.creados
  historia := by
    obtain ⟨l, hl, hall⟩ := h.historia
    obtain ⟨l', hl', hall'⟩ := h'.historia
    refine ⟨l' ++ l, by rw [hl', hl, List.append_assoc], ?_⟩
    intro x hx
    rcases List.mem_append.mp hx with hx | hx
    · exact hall' x hx
    · exact hall x hx
  heap_other := fun r hr => (h'.heap_other r hr).trans (h.heap_other r hr)
  fijo := h'.fijo.trans h.fijo
  loops_other := fun k' hk => (h'.loops_other k' hk).trans (h.loops_other k' hk)
  loops_self := by
    rcases h'.loops_self with hself | hself
    · rw [hself]
      exact h.loops_self
    · exact Or.inr hself

theorem Marco.fijo_all (h : Marco k ref s s') (r : Ref) :
    (s'.heap r).fijo = (s.heap r).fijo := by
  by_cases hr : r = ref
  · rw [hr, h.fijo]
  · rw [h.heap_other r hr]

@[simp] theorem heap_modify_self (s : AgentManager) (ref : Ref) (f : Agent → Agent) :
    (s.modify ref f).heap ref = f (s.heap ref) :=
  Function.update_self ref _ s.heap

theorem heap_modify_of_ne {r ref : Ref} (h : r ≠ ref) (s : AgentManager) (f : Agent → Agent) :
    (s.modify ref f).heap r = s.heap r :=
  Function.update_of_ne h _ s.heap

@[simp] theorem loops_await_self (s : AgentManager) (k : LoopId) (ref : Ref) (pc : Pc) :
    (s.await k ref pc).loops k = some ⟨ref, pc⟩ :=
  Function.update_self k _ s.loops

theorem loops_await_of_ne {k k' : LoopId} (h : k' ≠ k) (s : AgentManager) (ref : Ref) (pc : Pc) :
    (s.await k ref pc).loops k' = s.loops k' :=
  Function.update_of_ne h _ s.loops

@[simp] theorem loops_finish_self (s : AgentManager) (k : LoopId) :
    (s.finish k).loops k = none :=
  Function.update_self k _ s.loops

theorem loops_finish_of_ne {k k' : LoopId} (h : k' ≠ k) (s : AgentManager) :
    (s.finish k).loops k' = s.loops k' :=
  Function.update_of_ne h _ s.loops

theorem heap_askPermission_self (s : AgentManager) (k : LoopId) (ref : Ref) (name : String)
    (args : Args) (resto : List Json) :
    (s.askPermission k ref name args resto).heap ref =
      { s.heap ref with
        pendingToolName := name
        pendingToolArgs := some args
        status := .waitingPermission
        permissionWaiter := some s.waiters } :=
  Function.update_self ref _ s.heap

theorem heap_askPermission_of_ne {r ref : Ref} (h : r ≠ ref) (s : AgentManager) (k : LoopId)
    (name : String) (args : Args) (resto : List Json) :
    (s.askPermission k ref name args resto).heap r = s.heap r :=
  Function.update_of_ne h _ s.heap

theorem heap_create_self (s : AgentManager) (x : Datos) :
    (s.create x).heap s.creados = x.agent :=
  Function.update_self s.creados _ s.heap

theorem heap_create_of_ne {r : Ref} {s : AgentManager} (h : r ≠ s.creados) (x : Datos) :
    (s.create x).heap r = s.heap r :=
  Function.update_of_ne h _ s.heap

theorem marco_modify (k : LoopId) {f : Agent → Agent}
    (hf : (f (s.heap ref)).fijo = (s.heap ref).fijo) : Marco k ref s (s.modify ref f) :=
  { Marco.refl k ref s with
    heap_other := fun _ hr => heap_modify_of_ne hr s f
    fijo := by rw [heap_modify_self, hf] }

theorem marco_await (k : LoopId) (ref : Ref) (s : AgentManager) {pc : Pc}
    (hpc : pc.isPermiso = false) : Marco k ref s (s.await k ref pc) :=
  { Marco.refl k ref s with
    loops_other := fun _ hk => loops_await_of_ne hk s ref pc
    loops_self := Or.inr (Or.inr ⟨pc, hpc, loops_await_self s k ref pc⟩) }

theorem marco_finish (k : LoopId) (ref : Ref) (s : AgentManager) : Marco k ref s (s.finish k) :=
  { Marco.refl k ref s with
    loops_other := fun _ hk => loops_finish_of_ne hk s
    loops_self := Or.inr (Or.inl (loops_finish_self s k)) }

theorem marco_vault (k : LoopId) (ref : Ref) (s : AgentManager) (vault : KeyVault) :
    Marco k ref s { s with vault := vault } :=
  { Marco.refl k ref s with }

theorem marco_addLog (k : LoopId) (ref : Ref) (s : AgentManager) (m : AgentMsg) :
    Marco k ref s (s.addLog ref m) := marco_modify k rfl

theorem marco_setError (k : LoopId) (ref : Ref) (s : AgentManager) (e : String) :
    Marco k ref s (s.setError ref e) := marco_modify k rfl

theorem marco_prepare (d : Dart) (s : AgentManager) (k : LoopId) (ref : Ref) (key : String) :
    Marco k ref s (s.prepare d k ref key) := by
  unfold prepare
  dsimp only
  split
  · exact marco_await k ref s rfl
  · split
    · exact marco_await k ref s rfl
    · exact (marco_vault k ref s _).trans (marco_await k ref _ rfl)

theorem marco_iterate (d : Dart) (s : AgentManager) (k : LoopId) (ref : Ref) :
    Marco k ref s (s.iterate d k ref) := by
  unfold iterate
  split
  · have hcount : Marco k ref s (s.countIteration ref) := marco_modify k rfl
    apply hcount.trans
    dsimp only
    split
    · exact (marco_setError k ref _ _).trans (marco_finish k ref _)
    · exact (marco_vault k ref _ _).trans (marco_prepare d _ k ref _)
  · split
    · exact (marco_setError k ref s _).trans (marco_finish k ref _)
    · exact marco_finish k ref s

/-- The activation has returned or waits for something else than an answer. -/
def Cerrado (k : LoopId) (ref : Ref) (s : AgentManager) : Prop :=
  s.loops k = none ∨ ∃ pc, pc.isPermiso = false ∧ s.loops k = some ⟨ref, pc⟩

theorem cerrado_await (k : LoopId) (ref : Ref) (s : AgentManager) {pc : Pc}
    (hpc : pc.isPermiso = false) : Cerrado k ref (s.await k ref pc) :=
  Or.inr ⟨pc, hpc, loops_await_self s k ref pc⟩

theorem cerrado_finish (k : LoopId) (ref : Ref) (s : AgentManager) :
    Cerrado k ref (s.finish k) :=
  Or.inl (loops_finish_self s k)

theorem cerrado_iterate (d : Dart) (s : AgentManager) (k : LoopId) (ref : Ref) :
    Cerrado k ref (s.iterate d k ref) := by
  have hprepare (s : AgentManager) (key : String) : Cerrado k ref (s.prepare d k ref key) := by
    unfold prepare
    dsimp only
    split
    · exact cerrado_await k ref _ rfl
    · split <;> exact cerrado_await k ref _ rfl
  unfold iterate
  split
  · dsimp only
    split
    · exact cerrado_finish k ref _
    · exact hprepare _ _
  · split <;> exact cerrado_finish k ref _

/-- How an activation gets from `s` to its next wait or its end. -/
inductive Avance (k : LoopId) (ref : Ref) (s : AgentManager) : AgentManager → Prop
  | calla {s' : AgentManager} (h : Marco k ref s s') (hend : Cerrado k ref s') :
      Avance k ref s s'
  | ejecuta {s' : AgentManager} {name : String} {tool : ToolDef} (args : Args)
      (resto : List Json) (h : Marco k ref s s') (htool : toolByName name = some tool)
      (hperm : tool.permission ∈ (s'.heap ref).permissions)
      (hstop : (s.heap ref).stopFlag = false) :
      Avance k ref s (s'.execute k ref name args none resto)
  | pide {s' : AgentManager} {name : String} {tool : ToolDef} (args : Args)
      (resto : List Json) (h : Marco k ref s s') (htool : toolByName name = some tool)
      (hstop : (s.heap ref).stopFlag = false) :
      Avance k ref s (s'.askPermission k ref name args resto)

theorem Marco.stopFlag (h : Marco k ref s s') : (s'.heap ref).stopFlag = (s.heap ref).stopFlag :=
  congrArg (·.2.2.1) h.fijo

theorem Marco.permissions (h : Marco k ref s s') :
    (s'.heap ref).permissions = (s.heap ref).permissions :=
  congrArg (·.2.1) h.fijo

theorem Marco.avance (h : Marco k ref s s') (h' : Avance k ref s' s'') : Avance k ref s s'' := by
  cases h' with
  | calla h' hend => exact .calla (h.trans h') hend
  | ejecuta args resto h' htool hperm hstop =>
    exact .ejecuta args resto (h.trans h') htool hperm (h.stopFlag ▸ hstop)
  | pide args resto h' htool hstop =>
    exact .pide args resto (h.trans h') htool (h.stopFlag ▸ hstop)

theorem avance_iterate (d : Dart) (s : AgentManager) (k : LoopId) (ref : Ref) :
    Avance k ref s (s.iterate d k ref) :=
  .calla (marco_iterate d s k ref) (cerrado_iterate d s k ref)

theorem avance_finish (k : LoopId) (ref : Ref) (s : AgentManager) :
    Avance k ref s (s.finish k) :=
  .calla (marco_finish k ref s) (cerrado_finish k ref s)

theorem runCalls_avance (d : Dart) (s : AgentManager) (k : LoopId) (ref : Ref)
    (calls : List Json) : Avance k ref s (s.runCalls d k ref calls) := by
  induction calls generalizing s with
  | nil => exact avance_iterate d s k ref
  | cons tc resto ih =>
    unfold runCalls
    split
    · exact avance_iterate d s k ref
    · rename_i hstop
      have hstop := Bool.not_eq_true _ ▸ hstop
      split
      · exact avance_finish k ref s
      · split
        · exact (marco_addLog k ref s _).avance (ih _)
        · rename_i htool
          split
          · rename_i hperm
            exact .ejecuta _ resto (marco_addLog k ref s _) htool
              ((marco_addLog k ref s _).permissions ▸ hperm) hstop
          · exact .pide _ resto (Marco.refl k ref s) htool hstop

theorem handleMessage_avance (d : Dart) (s : AgentManager) (k : LoopId) (ref : Ref)
    (msg : Json) : Avance k ref s (s.handleMessage d k ref msg) := by
  unfold handleMessage
  split
  · dsimp only
    split
    · exact runCalls_avance d s k ref _
    · exact (marco_addLog k ref s _).avance (runCalls_avance d _ k ref _)
  · exact (marco_addLog k ref s _).avance ((marco_modify k rfl).avance (avance_finish k ref _))
  · exact avance_finish k ref s

theorem handleReply_avance (d : Dart) (s : AgentManager) (k : LoopId) (ref : Ref)
    (res : Respuesta) : Avance k ref s (s.handleReply d k ref res) := by
  unfold handleReply
  split
  · exact (marco_setError k ref s _).avance (avance_finish k ref _)
  · split
    · exact (marco_vault k ref s _).avance (avance_iterate d _ k ref)
    · split
      · split
        · exact (marco_modify k rfl).avance (avance_finish k ref _)
        · exact (marco_setError k ref s _).avance (avance_finish k ref _)
      · split
        · exact (marco_setError k ref s _).avance (avance_finish k ref _)
        · exact handleMessage_avance d s k ref _

theorem handleOutput_avance (d : Dart) (s : AgentManager) (k : LoopId) (ref : Ref)
    (name : String) (resto : List Json) (out : String) :
    Avance k ref s (s.handleOutput d k ref name resto out) :=
  (marco_addLog k ref s _).avance (runCalls_avance d _ k ref resto)

theorem avance_await (k : LoopId) (ref : Ref) (s : AgentManager) {pc : Pc}
    (hpc : pc.isPermiso = false) : Avance k ref s (s.await k ref pc) :=
  .calla (marco_await k ref s hpc) (cerrado_await k ref s hpc)

theorem handleSummary_avance (s : AgentManager) (k : LoopId) (ref : Ref) (key : String)
    (sistema : Json) (poda : Poda) (resumen : Option String) :
    Avance k ref s (s.handleSummary k ref key sistema poda resumen) := by
  unfold handleSummary
  split
  · have hstore : Marco k ref s (s.storeResumen ref poda resumen) := by
      cases resumen with
      | none => exact Marco.refl k ref s
      | some r =>
        rw [storeResumen]
        exact marco_modify k rfl
    exact hstore.avance (avance_await k ref _ rfl)
  · exact avance_await k ref s rfl

theorem send_avance (s : AgentManager) (k : LoopId) (ref : Ref) (key : String)
    (mensajes : List Json) : Avance k ref s (s.send k ref key mensajes) := by
  unfold send
  split
  · exact (marco_setError k ref s _).avance (avance_finish k ref _)
  · have henviado : Marco k ref s
        { s with historia := .enviado ref key mensajes :: s.historia } :=
      { Marco.refl k ref s with historia := ⟨[.enviado ref key mensajes], rfl, by
          intro x hx
          rw [List.mem_singleton.mp hx]
          rfl⟩ }
    exact henviado.avance (avance_await k ref _ rfl)

/-- The call neither starts nor continues an activation: nobody's place, prompt or name
changes. -/
structure Sereno (s s' : AgentManager) : Prop where
  loops : s'.loops = s.loops
  agents : s'.agents = s.agents
  creados : s'.creados = s.creados
  waiter : ∀ r, (s'.heap r).permissionWaiter = (s.heap r).permissionWaiter
  id : ∀ r, (s'.heap r).id = (s.heap r).id

theorem Sereno.refl (s : AgentManager) : Sereno s s :=
  ⟨rfl, rfl, rfl, fun _ => rfl, fun _ => rfl⟩

theorem Sereno.trans (h : Sereno s s') (h' : Sereno s' s'') : Sereno s s'' where
  loops := h'.loops.trans h.loops
  agents := h'.agents.trans h.agents
  creados := h'.creados.trans h.creados
  waiter := fun r => (h'.waiter r).trans (h.waiter r)
  id := fun r => (h'.id r).trans (h.id r)

theorem sereno_modify (s : AgentManager) (ref : Ref) {f : Agent → Agent}
    (hwaiter : (f (s.heap ref)).permissionWaiter = (s.heap ref).permissionWaiter)
    (hid : (f (s.heap ref)).id = (s.heap ref).id) : Sereno s (s.modify ref f) :=
  { Sereno.refl s with
    waiter := by
      intro r
      by_cases hr : r = ref
      · rw [hr, heap_modify_self, hwaiter]
      · rw [heap_modify_of_ne hr]
    id := by
      intro r
      by_cases hr : r = ref
      · rw [hr, heap_modify_self, hid]
      · rw [heap_modify_of_ne hr] }

theorem complete_eq_some {w : WaiterId} {granted : Bool}
    (h : s.complete w granted = some s') : s.completers w = none ∧
      s' = { s with completers := Function.update s.completers w (some granted) } := by
  unfold complete at h
  cases hnone : s.completers w with
  | some b => simp [hnone] at h
  | none =>
    rw [hnone] at h
    exact ⟨rfl, (Option.some.inj h).symm⟩

theorem sereno_answer {granted : Bool} (h : s.answer ref granted = some s') : Sereno s s' := by
  unfold answer at h
  split at h
  · rw [Option.some.inj h]
    exact Sereno.refl s'
  · obtain ⟨-, rfl⟩ := complete_eq_some h
    exact { Sereno.refl s with }

theorem sereno_stopAgent (s : AgentManager) (ref : Ref) : Sereno s (s.stopAgent ref).1 := by
  have hflag : Sereno s (s.raiseFlag ref) := sereno_modify s ref rfl rfl
  unfold stopAgent
  split
  · exact hflag
  · rename_i s' h
    have hstopped : Sereno s' (s'.setStopped ref) := sereno_modify s' ref rfl rfl
    exact hflag.trans ((sereno_answer h).trans hstopped)

theorem sereno_revive (s : AgentManager) (ref : Ref) : Sereno s
    { s.setIdle ref with vault := (s.vault.reviveKeys (s.heap ref).providerId).1 } := by
  have hidle : Sereno s (s.setIdle ref) := sereno_modify s ref rfl rfl
  exact { hidle with }

theorem sereno_setHistMode (s : AgentManager) (ref : Ref) (modo : HistModo) :
    Sereno s (s.setHistMode ref modo) :=
  sereno_modify s ref rfl rfl

theorem sereno_resolvePermission (s : AgentManager) (id : String) (granted : Bool) :
    Sereno s (s.resolvePermission id granted) := by
  unfold resolvePermission
  split
  · exact Sereno.refl s
  · split
    · exact Sereno.refl s
    · split
      · exact Sereno.refl s
      · rename_i h
        obtain ⟨-, rfl⟩ := complete_eq_some h
        exact { Sereno.refl s with }

theorem byId_mem {id : String} (h : s.byId id = some ref) : ref ∈ s.agents :=
  List.mem_of_find?_eq_some h

/-- The activation `k` of the agent `ref` was started and has not returned. -/
def Viva (s : AgentManager) (k : LoopId) (ref : Ref) : Prop := ∃ pc, s.loops k = some ⟨ref, pc⟩

structure Asignados (s : AgentManager) : Prop where
  vivas : ∀ k ref, s.Viva k ref → ref < s.creados
  listados : ∀ ref ∈ s.agents, ref < s.creados

theorem Sereno.asignados (h : Sereno s s') (hs : Asignados s) : Asignados s' := by
  constructor
  · intro k r hpc
    rcases hpc with ⟨pc, hpc⟩
    rw [h.loops] at hpc
    rw [h.creados]
    exact hs.vivas k r ⟨pc, hpc⟩
  · intro r hr
    rw [h.agents] at hr
    rw [h.creados]
    exact hs.listados r hr

theorem Asignados.of_frame (hs : Asignados s) (hlt : ref < s.creados)
    (hagents : s'.agents = s.agents) (hcreados : s'.creados = s.creados)
    (hloops : ∀ k', k' ≠ k → s'.loops k' = s.loops k')
    (hself : s'.loops k = s.loops k ∨ s'.loops k = none ∨ ∃ pc, s'.loops k = some ⟨ref, pc⟩) :
    Asignados s' := by
  constructor
  · intro k' r hpc
    rcases hpc with ⟨pc, hpc⟩
    rw [hcreados]
    by_cases hk : k' = k
    · rw [hk] at hpc
      rcases hself with hself | hself | ⟨pc', hself⟩
      · exact hs.vivas k r ⟨pc, hself ▸ hpc⟩
      · rw [hself] at hpc
        cases hpc
      · rw [hself] at hpc
        cases hpc
        exact hlt
    · exact hs.vivas k' r ⟨pc, hloops k' hk ▸ hpc⟩
  · intro r hr
    rw [hagents] at hr
    rw [hcreados]
    exact hs.listados r hr

theorem Marco.asignados (h : Marco k ref s s') (hs : Asignados s) (hlt : ref < s.creados) :
    Asignados s' := by
  refine hs.of_frame hlt h.agents h.creados h.loops_other ?_
  rcases h.loops_self with hself | hself | ⟨pc, -, hself⟩
  · exact Or.inl hself
  · exact Or.inr (Or.inl hself)
  · exact Or.inr (Or.inr ⟨pc, hself⟩)

theorem Avance.asignados (h : Avance k ref s s') (hs : Asignados s) (hlt : ref < s.creados) :
    Asignados s' := by
  cases h with
  | calla h _ => exact h.asignados hs hlt
  | ejecuta args resto h _ _ _ =>
    exact (h.asignados hs hlt).of_frame (h.creados ▸ hlt) rfl rfl
      (fun _ hk => loops_await_of_ne hk _ ref _) (Or.inr (Or.inr ⟨_, loops_await_self _ k ref _⟩))
  | pide args resto h _ _ =>
    exact (h.asignados hs hlt).of_frame (h.creados ▸ hlt) rfl rfl
      (fun _ hk => loops_await_of_ne hk _ ref _) (Or.inr (Or.inr ⟨_, loops_await_self _ k ref _⟩))

theorem Asignados.handleAnswer (d : Dart) (hs : Asignados s) (hlt : ref < s.creados)
    (w : WaiterId) (name : String) (args : Args) (resto : List Json) (granted : Bool) :
    Asignados (s.handleAnswer d k ref w name args resto granted) := by
  have hclear : Asignados (s.clearPending ref) := ⟨hs.vivas, hs.listados⟩
  unfold AgentManager.handleAnswer
  dsimp only
  split
  · exact (avance_iterate d _ k ref).asignados hclear hlt
  · split
    · exact ((marco_addLog k ref _ _).avance (runCalls_avance d _ k ref resto)).asignados hclear
        hlt
    · exact hclear.of_frame hlt rfl rfl (fun _ hk => loops_await_of_ne hk _ ref _)
        (Or.inr (Or.inr ⟨_, loops_await_self _ k ref _⟩))

/-- The events, with what they need to happen. -/
inductive Cambio (d : Dart) (s : AgentManager) : Evento → AgentManager → Prop
  | nada (e : Evento) : Cambio d s e s
  | create (x : Datos) : Cambio d s (.create x) (s.create x)
  | remove (id : String) : Cambio d s (.remove id) (s.remove id)
  | stop (id : String) (ref : Ref) (hid : s.byId id = some ref) :
      Cambio d s (.stop id) (s.stopAgent ref).1
  | revive (id : String) (ref : Ref) (hid : s.byId id = some ref) :
      Cambio d s (.revive id)
        { s.setIdle ref with vault := (s.vault.reviveKeys (s.heap ref).providerId).1 }
  | resolvePermission (id : String) (granted : Bool) :
      Cambio d s (.resolvePermission id granted) (s.resolvePermission id granted)
  | talk (id task : String) (ref : Ref) (hid : s.byId id = some ref)
      (hstatus : (s.heap ref).status ≠ .running) :
      Cambio d s (.talk id task) ((s.receive ref task).iterate d s.lanzados ref)
  | setHistMode (ref : Ref) (modo : HistModo) :
      Cambio d s (.setHistMode ref modo) (s.setHistMode ref modo)
  | resumen (k : LoopId) (ref : Ref) (key : String) (sistema : Json) (enVuelo : Bool)
      (poda : Poda) (res : Respuesta)
      (hk : s.loops k = some ⟨ref, .resumiendo key sistema enVuelo poda⟩) :
      Cambio d s (.resumen k res)
        (s.handleSummary k ref key sistema poda (if enVuelo then resumenDe d res else none))
  | envio (k : LoopId) (ref : Ref) (key : String) (mensajes : List Json)
      (hk : s.loops k = some ⟨ref, .mensajes key mensajes⟩) :
      Cambio d s (.envio k) (s.send k ref key mensajes)
  | respuesta (k : LoopId) (ref : Ref) (key : String) (res : Respuesta)
      (hk : s.loops k = some ⟨ref, .respuesta key⟩) :
      Cambio d s (.respuesta k res) (s.handleReply d k ref res)
  | permiso (k : LoopId) (ref : Ref) (w : WaiterId) (name : String) (args : Args)
      (resto : List Json) (granted : Bool)
      (hk : s.loops k = some ⟨ref, .permiso w name args resto⟩)
      (hw : s.completers w = some granted) :
      Cambio d s (.permiso k) (s.handleAnswer d k ref w name args resto granted)
  | herramienta (k : LoopId) (ref : Ref) (name : String) (resto : List Json) (out : String)
      (hk : s.loops k = some ⟨ref, .herramienta name resto⟩) :
      Cambio d s (.herramienta k out) (s.handleOutput d k ref name resto out)

theorem paso_cambio (d : Dart) (s : AgentManager) (e : Evento) :
    Cambio d s e (paso d s e) := by
  cases e with
  | create x => exact .create x
  | remove id => exact .remove id
  | stop id =>
    simp only [paso, stop]
    split
    · exact .nada _
    · exact .stop id _ ‹_›
  | revive id =>
    simp only [paso, revive]
    split
    · exact .nada _
    · exact .revive id _ ‹_›
  | resolvePermission id granted => exact .resolvePermission id granted
  | talk id task =>
    simp only [paso, talk]
    split
    · exact .nada _
    · split
      · exact .nada _
      · exact .talk id task _ ‹_› ‹_›
  | setHistMode ref modo => exact .setHistMode ref modo
  | resumen k res =>
    simp only [paso]
    split
    · exact .resumen k _ _ _ _ _ res ‹_›
    · exact .nada _
  | envio k =>
    simp only [paso]
    split
    · exact .envio k _ _ _ ‹_›
    · exact .nada _
  | respuesta k res =>
    simp only [paso]
    split
    · exact .respuesta k _ _ res ‹_›
    · exact .nada _
  | permiso k =>
    simp only [paso]
    split
    · split
      · exact .nada _
      · exact .permiso k _ _ _ _ _ _ ‹_› ‹_›
    · exact .nada _
  | herramienta k out =>
    simp only [paso]
    split
    · exact .herramienta k _ _ _ out ‹_›
    · exact .nada _

theorem Cambio.asignados {d : Dart} {e : Evento} (h : Cambio d s e s') (hs : Asignados s) :
    Asignados s' := by
  have havance {k : LoopId} {ref : Ref} {pc : Pc} {s' : AgentManager}
      (hk : s.loops k = some ⟨ref, pc⟩) (h : Avance k ref s s') : Asignados s' :=
    h.asignados hs (hs.vivas k ref ⟨pc, hk⟩)
  cases h with
  | nada => exact hs
  | create x =>
    refine ⟨fun k r hk => Nat.lt_succ_of_lt (hs.vivas k r hk), ?_⟩
    intro r hr
    rcases List.mem_append.mp hr with hr | hr
    · exact Nat.lt_succ_of_lt (hs.listados r hr)
    · rw [List.mem_singleton.mp hr]
      exact Nat.lt_succ_self _
  | remove id => exact ⟨hs.vivas, fun r hr => hs.listados r (List.mem_of_mem_filter hr)⟩
  | stop id ref _ => exact (sereno_stopAgent s ref).asignados hs
  | revive id ref _ => exact (sereno_revive s ref).asignados hs
  | resolvePermission id granted => exact (sereno_resolvePermission s id granted).asignados hs
  | talk id task ref hid _ =>
    have hreceive : Asignados (s.receive ref task) := ⟨hs.vivas, hs.listados⟩
    exact (avance_iterate d _ s.lanzados ref).asignados hreceive (hs.listados ref (byId_mem hid))
  | setHistMode ref modo => exact (sereno_setHistMode s ref modo).asignados hs
  | resumen k ref _ _ _ _ _ hk => exact havance hk (handleSummary_avance s k ref _ _ _ _)
  | envio k ref _ _ hk => exact havance hk (send_avance s k ref _ _)
  | respuesta k ref _ res hk => exact havance hk (handleReply_avance d s k ref res)
  | permiso k ref _ _ _ _ _ hk _ => exact hs.handleAnswer d (hs.vivas k ref ⟨_, hk⟩) _ _ _ _ _
  | herramienta k ref _ _ out hk => exact havance hk (handleOutput_avance d s k ref _ _ out)

theorem paso_asignados (d : Dart) (s : AgentManager) (e : Evento) (hs : Asignados s) :
    Asignados (paso d s e) :=
  (paso_cambio d s e).asignados hs

theorem inicial_asignados (vault : KeyVault) (cargados : List Agent) :
    Asignados (inicial vault cargados) := by
  constructor
  · intro k ref h
    rcases h with ⟨pc, h⟩
    cases h
  · exact fun ref h => List.mem_range.mp h

end AgentManager
end Nerea.Agents
