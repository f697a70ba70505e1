import Nerea.Agents.PermissionSafety

/-!
# One activation for each agent

`talk` only looks at the status. If it is called while an activation of the agent is alive
under another status, a second one starts, and a waiter stored before is lost. As long as
no effective `talk` finds an activation alive, there is one at most, and the waiter it
awaits is the stored one.
-/

set_option autoImplicit false

namespace Nerea.Agents
namespace AgentManager

theorem Espera.viva {s : AgentManager} {k : LoopId} {ref : Ref} {w : WaiterId} {name : String}
    {args : Args} (h : s.Espera k ref w name args) : s.Viva k ref := by
  obtain ⟨resto, h⟩ := h
  exact ⟨_, h⟩

structure UnSoloLoop (s : AgentManager) : Prop where
  unico : ∀ k k' ref, s.Viva k ref → s.Viva k' ref → k = k'
  guardado : ∀ k ref w name args, s.Espera k ref w name args →
    (s.heap ref).permissionWaiter = some w

/-- For the other agents as in `UnSoloLoop`, for `ref` only `k` may be alive. -/
structure SalvoUno (k : LoopId) (ref : Ref) (s : AgentManager) : Prop where
  sola : ∀ k', s.Viva k' ref → k' = k
  unico : ∀ k₁ k₂ r, r ≠ ref → s.Viva k₁ r → s.Viva k₂ r → k₁ = k₂
  guardado : ∀ k' r w name args, r ≠ ref → s.Espera k' r w name args →
    (s.heap r).permissionWaiter = some w

variable {k : LoopId} {ref : Ref} {s s' : AgentManager}

theorem UnSoloLoop.salvoUno (h : UnSoloLoop s) (hsola : ∀ k', s.Viva k' ref → k' = k) :
    SalvoUno k ref s where
  sola := hsola
  unico := fun k₁ k₂ r _ => h.unico k₁ k₂ r
  guardado := fun k' r w name args _ => h.guardado k' r w name args

theorem SalvoUno.of_frame (h : SalvoUno k ref s)
    (hheap : ∀ r, r ≠ ref → s'.heap r = s.heap r)
    (hloops : ∀ k', k' ≠ k → s'.loops k' = s.loops k')
    (hself : s'.loops k = s.loops k ∨ s'.loops k = none ∨ ∃ pc, s'.loops k = some ⟨ref, pc⟩) :
    SalvoUno k ref s' := by
  have hviva {k' : LoopId} {a : Activacion} (hk : s'.loops k' = some a) :
      s.loops k' = some a ∨ k' = k ∧ a.ref = ref := by
    by_cases heq : k' = k
    · rw [heq] at hk ⊢
      rcases hself with hself | hself | ⟨pc, hself⟩
      · exact Or.inl (hself ▸ hk)
      · rw [hself] at hk
        cases hk
      · rw [hself] at hk
        cases hk
        exact Or.inr ⟨rfl, rfl⟩
    · exact Or.inl (hloops k' heq ▸ hk)
  have hother {k' : LoopId} {r : Ref} {pc : Pc} (hr : r ≠ ref)
      (hk : s'.loops k' = some ⟨r, pc⟩) : s.loops k' = some ⟨r, pc⟩ := by
    rcases hviva hk with hk | ⟨-, hk⟩
    · exact hk
    · exact absurd hk hr
  refine ⟨?_, ?_, ?_⟩
  · intro k' hpc
    rcases hpc with ⟨pc, hpc⟩
    rcases hviva hpc with hpc | ⟨hk, -⟩
    · exact h.sola k' ⟨pc, hpc⟩
    · exact hk
  · intro k₁ k₂ r hr h₁ h₂
    rcases h₁ with ⟨pc₁, h₁⟩
    rcases h₂ with ⟨pc₂, h₂⟩
    exact h.unico k₁ k₂ r hr ⟨pc₁, hother hr h₁⟩ ⟨pc₂, hother hr h₂⟩
  · intro k' r w name args hr hresto
    rcases hresto with ⟨resto, hresto⟩
    rw [hheap r hr]
    exact h.guardado k' r w name args hr ⟨resto, hother hr hresto⟩

theorem SalvoUno.marco (h : SalvoUno k ref s) (hm : Marco k ref s s') : SalvoUno k ref s' := by
  refine h.of_frame hm.heap_other hm.loops_other ?_
  rcases hm.loops_self with hself | hself | ⟨pc, -, hself⟩
  · exact Or.inl hself
  · exact Or.inr (Or.inl hself)
  · exact Or.inr (Or.inr ⟨pc, hself⟩)

theorem SalvoUno.modify (h : SalvoUno k ref s) (f : Agent → Agent) :
    SalvoUno k ref (s.modify ref f) :=
  h.of_frame (fun _ hr => heap_modify_of_ne hr s f) (fun _ _ => rfl) (Or.inl rfl)

theorem SalvoUno.unSoloLoop (h : SalvoUno k ref s)
    (hguardado : ∀ w name args, s.Espera k ref w name args →
      (s.heap ref).permissionWaiter = some w) : UnSoloLoop s := by
  constructor
  · intro k₁ k₂ r h₁ h₂
    by_cases hr : r = ref
    · rw [hr] at h₁ h₂
      rw [h.sola k₁ h₁, h.sola k₂ h₂]
    · exact h.unico k₁ k₂ r hr h₁ h₂
  · intro k' r w name args he
    by_cases hr : r = ref
    · rw [hr] at he ⊢
      rw [h.sola k' he.viva] at he
      exact hguardado w name args he
    · exact h.guardado k' r w name args hr he

theorem Cerrado.not_espera (h : Cerrado k ref s) {r : Ref} {w : WaiterId} {name : String}
    {args : Args} : ¬ s.Espera k r w name args := by
  intro hresto
  rcases hresto with ⟨resto, hresto⟩
  rcases h with h | ⟨pc, hpc, h⟩
  · rw [h] at hresto
    cases hresto
  · rw [h] at hresto
    cases hresto
    cases hpc

theorem SalvoUno.execute (h : SalvoUno k ref s) (name : String) (args : Args)
    (waiter : Option WaiterId) (resto : List Json) :
    UnSoloLoop (s.execute k ref name args waiter resto) := by
  have hsalvo : SalvoUno k ref (s.execute k ref name args waiter resto) :=
    h.of_frame (fun _ _ => rfl) (fun _ hk => loops_await_of_ne hk _ ref _)
      (Or.inr (Or.inr ⟨_, loops_await_self _ k ref _⟩))
  apply hsalvo.unSoloLoop
  intro w name' args' he
  exact absurd he (cerrado_await k ref _ rfl).not_espera

theorem SalvoUno.askPermission (h : SalvoUno k ref s) (name : String) (args : Args)
    (resto : List Json) : UnSoloLoop (s.askPermission k ref name args resto) := by
  have hsalvo : SalvoUno k ref (s.askPermission k ref name args resto) :=
    h.of_frame (fun _ hr => heap_askPermission_of_ne hr s k name args resto)
      (fun _ hk => loops_await_of_ne hk _ ref _) (Or.inr (Or.inr ⟨_, loops_await_self _ k ref _⟩))
  apply hsalvo.unSoloLoop
  intro w name' args' hresto
  rcases hresto with ⟨resto', hresto⟩
  rw [AgentManager.askPermission, loops_await_self] at hresto
  cases hresto
  rw [heap_askPermission_self]

theorem Avance.unSoloLoop (h : Avance k ref s s') (hs : SalvoUno k ref s) : UnSoloLoop s' := by
  cases h with
  | calla h hend =>
    apply (hs.marco h).unSoloLoop
    intro w name args he
    exact absurd he hend.not_espera
  | ejecuta args resto h _ _ _ => exact (hs.marco h).execute _ args none resto
  | pide args resto h _ _ => exact (hs.marco h).askPermission _ args resto

theorem Sereno.unSoloLoop (h : Sereno s s') (hs : UnSoloLoop s) : UnSoloLoop s' := by
  constructor
  · intro k₁ k₂ r h₁ h₂
    rcases h₁ with ⟨pc₁, h₁⟩
    rcases h₂ with ⟨pc₂, h₂⟩
    rw [h.loops] at h₁ h₂
    exact hs.unico k₁ k₂ r ⟨pc₁, h₁⟩ ⟨pc₂, h₂⟩
  · intro k r w name args hresto
    rcases hresto with ⟨resto, hresto⟩
    rw [h.loops] at hresto
    rw [h.waiter]
    exact hs.guardado k r w name args ⟨resto, hresto⟩

/-- An effective `talk` finds no activation of its agent alive. -/
def TalkSinLoop (s : AgentManager) : Evento → Prop
  | .talk id _ => ∀ ref, s.byId id = some ref → (s.heap ref).status ≠ .running →
      ∀ k, ¬ s.Viva k ref
  | _ => True

theorem UnSoloLoop.create (hs : UnSoloLoop s) (ha : Asignados s) (x : Datos) :
    UnSoloLoop (s.create x) := by
  refine ⟨hs.unico, ?_⟩
  intro k r w name args he
  have hlt : r < s.creados := ha.vivas k r (Espera.viva he)
  rw [heap_create_of_ne (Nat.ne_of_lt hlt)]
  exact hs.guardado k r w name args he

theorem SalvoUno.handleAnswer (d : Dart) (h : SalvoUno k ref s) (w : WaiterId) (name : String)
    (args : Args) (resto : List Json) (granted : Bool) :
    UnSoloLoop (s.handleAnswer d k ref w name args resto granted) := by
  have hclear : SalvoUno k ref (s.clearPending ref) := h.modify _
  unfold AgentManager.handleAnswer
  dsimp only
  split
  · exact (avance_iterate d _ k ref).unSoloLoop hclear
  · split
    · exact ((marco_addLog k ref _ _).avance (runCalls_avance d _ k ref resto)).unSoloLoop hclear
    · exact hclear.execute name args (some w) resto

theorem Cambio.unSoloLoop {d : Dart} {e : Evento} (h : Cambio d s e s') (hs : UnSoloLoop s)
    (ha : Asignados s) (he : TalkSinLoop s e) : UnSoloLoop s' := by
  have hsalvo {k : LoopId} {ref : Ref} {pc : Pc} (hk : s.loops k = some ⟨ref, pc⟩) :
      SalvoUno k ref s :=
    hs.salvoUno fun k' hk' => hs.unico k' k ref hk' ⟨pc, hk⟩
  cases h with
  | nada => exact hs
  | create x => exact hs.create ha x
  | remove id => exact ⟨hs.unico, hs.guardado⟩
  | stop id ref _ => exact (sereno_stopAgent s ref).unSoloLoop hs
  | revive id ref _ => exact (sereno_revive s ref).unSoloLoop hs
  | resolvePermission id granted => exact (sereno_resolvePermission s id granted).unSoloLoop hs
  | talk id task ref hid hstatus =>
    have hnone := he ref hid hstatus
    have hfirst : SalvoUno s.lanzados ref s :=
      hs.salvoUno fun k' hk' => absurd hk' (hnone k')
    have hlanzado : SalvoUno s.lanzados ref { s with lanzados := s.lanzados + 1 } :=
      ⟨hfirst.sola, hfirst.unico, hfirst.guardado⟩
    have hreceive : SalvoUno s.lanzados ref (s.receive ref task) := hlanzado.modify _
    exact (avance_iterate d (s.receive ref task) s.lanzados ref).unSoloLoop hreceive
  | setHistMode ref modo => exact (sereno_setHistMode s ref modo).unSoloLoop hs
  | resumen k ref _ _ _ _ _ hk =>
    exact (handleSummary_avance s k ref _ _ _ _).unSoloLoop (hsalvo hk)
  | envio k ref _ _ hk => exact (send_avance s k ref _ _).unSoloLoop (hsalvo hk)
  | respuesta k ref _ res hk => exact (handleReply_avance d s k ref res).unSoloLoop (hsalvo hk)
  | permiso k ref _ _ _ _ _ hk _ => exact (hsalvo hk).handleAnswer d _ _ _ _ _
  | herramienta k ref _ _ out hk =>
    exact (handleOutput_avance d s k ref _ _ out).unSoloLoop (hsalvo hk)

theorem inicial_unSoloLoop (vault : KeyVault) (cargados : List Agent) :
    UnSoloLoop (inicial vault cargados) := by
  constructor
  · intro k k' ref h
    rcases h with ⟨pc, h⟩
    cases h
  · intro k ref w name args h
    rcases h with ⟨resto, h⟩
    cases h

theorem completers_resolvePermission {id : String} {w : WaiterId} (hid : s.byId id = some ref)
    (hw : (s.heap ref).permissionWaiter = some w) (hnone : s.completers w = none)
    (granted : Bool) : (s.resolvePermission id granted).completers w = some granted := by
  simp only [resolvePermission, hid, hw, complete, hnone, Function.update_self]

theorem completers_stop {id : String} {w : WaiterId} (hid : s.byId id = some ref)
    (hw : (s.heap ref).permissionWaiter = some w) (hnone : s.completers w = none) :
    (s.stop id).completers w = some false := by
  have hwaiter : ((s.raiseFlag ref).heap ref).permissionWaiter = some w := by
    rw [raiseFlag, heap_modify_self, hw]
  have hpending : (s.raiseFlag ref).completers w = none := hnone
  simp only [stop, hid, stopAgent, answer, hwaiter, complete, hpending]
  exact Function.update_self w _ _

/-- At most one activation of an agent is alive, and the waiter it awaits is the stored one:
an answer or a stop completes it. -/
def LoopsAtendidos (s : AgentManager) : Prop :=
  (∀ k k' ref, s.Viva k ref → s.Viva k' ref → k = k') ∧
  ∀ k ref w name args, s.Espera k ref w name args → (s.heap ref).permissionWaiter = some w ∧
    ∀ id, s.byId id = some ref → s.completers w = none →
      (∀ granted, (s.resolvePermission id granted).completers w = some granted) ∧
        (s.stop id).completers w = some false

/-- In every run in which no effective `talk` finds an activation of its agent alive. -/
theorem loopsAtendidos_correr (d : Dart) (vault : KeyVault) (cargados : List Agent)
    (es : List Evento)
    (hes : Run.AllSteps (paso d) TalkSinLoop (inicial vault cargados) es) :
    LoopsAtendidos (correr d (inicial vault cargados) es) := by
  have hstep (s : AgentManager) (e : Evento) (hs : UnSoloLoop s ∧ Asignados s)
      (he : TalkSinLoop s e) : UnSoloLoop (paso d s e) ∧ Asignados (paso d s e) :=
    ⟨(paso_cambio d s e).unSoloLoop hs.1 hs.2 he, paso_asignados d s e hs.2⟩
  obtain ⟨hloops, -⟩ := Run.invariant_of_allSteps hstep
    ⟨inicial_unSoloLoop vault cargados, inicial_asignados vault cargados⟩ hes
  refine ⟨hloops.unico, ?_⟩
  intro k ref w name args he
  have hw := hloops.guardado k ref w name args he
  exact ⟨hw, fun id hid hnone => ⟨completers_resolvePermission hid hw hnone,
    completers_stop hid hw hnone⟩⟩

theorem loopsAtendidos_espera : LoopsAtendidos (correr ejemplo (inicial unaClave [sinPermisos])
    [.talk "a" "hola", .envio 0, .respuesta 0 (.http 200 (some "leer"))]) := by
  refine loopsAtendidos_correr ejemplo _ _ _ ⟨?_, trivial, trivial, trivial⟩
  intro ref _ _ k h
  rcases h with ⟨pc, h⟩
  cases h

/-- A second task while the first one waits for permission: two activations wait, and the
waiter of the first is no longer stored. -/
theorem talk_waitingPermission : ¬ ∀ (d : Dart) (vault : KeyVault) (cargados : List Agent)
    (es : List Evento), LoopsAtendidos (correr d (inicial vault cargados) es) := by
  intro h
  have hdos := h ejemplo unaClave [sinPermisos] [.talk "a" "hola", .envio 0,
    .respuesta 0 (.http 200 (some "leer")), .talk "a" "otra", .envio 1,
    .respuesta 1 (.http 200 (some "leer"))]
  have heq : 0 = 1 := hdos.1 0 1 0 ⟨_, rfl⟩ ⟨_, rfl⟩
  exact absurd heq (by decide)

end AgentManager
end Nerea.Agents
