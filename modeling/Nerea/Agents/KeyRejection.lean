import Nerea.Agents.LoopFrame
import Nerea.Agents.DeadMarks

/-!
# Rejected keys

A request is sent with the key `nextKey` returned, and when its reply is 401 or 403 the loop
marks the position the rotation of the provider holds then. Meanwhile other activations of
agents with that provider may have moved the rotation, so that the mark is for the rejected key
only where the rotation still stands on it, or on a key rejected before.
-/

set_option autoImplicit false

namespace Nerea.Agents.AgentManager

variable {k : LoopId} {ref : Ref} {s s' s'' : AgentManager}

def esRechazo : Respuesta → Bool
  | .http statusCode _ => statusCode == 401 || statusCode == 403
  | .fallo _ => false

/-- The provider and the key of the request that the event answers with 401 or 403. A summary
is asked for with the key of its activation, on which the rotation stands. -/
def rechazo (s : AgentManager) : Evento → Option (String × String)
  | .respuesta k res =>
    match s.loops k with
    | some ⟨ref, .respuesta key⟩ =>
      if esRechazo res then some ((s.heap ref).providerId, key) else none
    | _ => none
  | .resumen k res =>
    match s.loops k with
    | some ⟨ref, .resumiendo key _ true _⟩ =>
      if esRechazo res then some ((s.heap ref).providerId, key) else none
    | _ => none
  | _ => none

/-- The vault keeps its keys and its marks. -/
def Guarda (s s' : AgentManager) : Prop :=
  s'.vault.keys = s.vault.keys ∧ s'.vault.deadKeys = s.vault.deadKeys

theorem Guarda.refl (s : AgentManager) : Guarda s s := ⟨rfl, rfl⟩

theorem Guarda.trans (h : Guarda s s') (h' : Guarda s' s'') : Guarda s s'' :=
  ⟨h'.1.trans h.1, h'.2.trans h.2⟩

theorem guarda_nextKey {p key : String} {vault : KeyVault}
    (h : s.vault.nextKey p = some (key, vault)) : Guarda s { s with vault := vault } := by
  obtain ⟨idx, -, -, rfl⟩ := KeyVault.nextKey_eq_some h
  exact ⟨rfl, rfl⟩

theorem guarda_prepare (d : Dart) (s : AgentManager) (k : LoopId) (ref : Ref) (key : String) :
    Guarda s (s.prepare d k ref key) := by
  unfold prepare
  dsimp only
  split
  · exact Guarda.refl s
  · split
    · exact Guarda.refl s
    · rename_i hresumen
      unfold startResumen at hresumen
      split at hresumen
      · cases hresumen
      · exact guarda_nextKey hresumen

theorem guarda_iterate (d : Dart) (s : AgentManager) (k : LoopId) (ref : Ref) :
    Guarda s (s.iterate d k ref) := by
  unfold iterate
  split
  · dsimp only
    split
    · exact Guarda.refl s
    · rename_i hkey
      have hnext : Guarda (s.countIteration ref) _ := guarda_nextKey hkey
      exact hnext.trans (guarda_prepare d _ k ref _)
  · split <;> exact Guarda.refl s

theorem guarda_runCalls (d : Dart) (s : AgentManager) (k : LoopId) (ref : Ref)
    (calls : List Json) : Guarda s (s.runCalls d k ref calls) := by
  induction calls generalizing s with
  | nil => exact guarda_iterate d s k ref
  | cons tc resto ih =>
    unfold runCalls
    split
    · exact guarda_iterate d s k ref
    · split
      · exact Guarda.refl s
      · split
        · exact ih (s.addLog ref _)
        · split
          · exact Guarda.refl s
          · exact Guarda.refl s

theorem guarda_handleMessage (d : Dart) (s : AgentManager) (k : LoopId) (ref : Ref)
    (msg : Json) : Guarda s (s.handleMessage d k ref msg) := by
  unfold handleMessage
  split
  · dsimp only
    split
    · exact guarda_runCalls d s k ref _
    · exact guarda_runCalls d (s.addLog ref _) k ref _
  · exact Guarda.refl s
  · exact Guarda.refl s

theorem guarda_handleReply (d : Dart) (s : AgentManager) (k : LoopId) (ref : Ref)
    {res : Respuesta} (h : esRechazo res = false) : Guarda s (s.handleReply d k ref res) := by
  unfold handleReply
  split
  · exact Guarda.refl s
  · split
    · rename_i hcode
      rcases hcode with rfl | rfl <;> cases h
    · split
      · split <;> exact Guarda.refl s
      · split
        · exact Guarda.refl s
        · exact guarda_handleMessage d s k ref _

theorem guarda_handleSummary (s : AgentManager) (k : LoopId) (ref : Ref) (key : String)
    (sistema : Json) (poda : Poda) (resumen : Option String) :
    Guarda s (s.handleSummary k ref key sistema poda resumen) := by
  unfold handleSummary storeResumen
  split
  · cases resumen <;> exact Guarda.refl s
  · exact Guarda.refl s

theorem guarda_send (s : AgentManager) (k : LoopId) (ref : Ref) (key : String)
    (mensajes : List Json) : Guarda s (s.send k ref key mensajes) := by
  unfold send
  split <;> exact Guarda.refl s

theorem guarda_handleAnswer (d : Dart) (s : AgentManager) (k : LoopId) (ref : Ref)
    (w : WaiterId) (name : String) (args : Args) (resto : List Json) (granted : Bool) :
    Guarda s (s.handleAnswer d k ref w name args resto granted) := by
  unfold handleAnswer
  dsimp only
  split
  · exact guarda_iterate d (s.clearPending ref) k ref
  · split
    · exact guarda_runCalls d ((s.clearPending ref).addLog ref _) k ref resto
    · exact Guarda.refl s

theorem guarda_complete {w : WaiterId} {granted : Bool} (h : s.complete w granted = some s') :
    Guarda s s' := by
  obtain ⟨-, rfl⟩ := complete_eq_some h
  exact Guarda.refl s

theorem guarda_stopAgent (s : AgentManager) (ref : Ref) : Guarda s (s.stopAgent ref).1 := by
  unfold stopAgent answer
  split
  · exact Guarda.refl s
  · rename_i h
    split at h
    · cases h
      exact Guarda.refl s
    · have hcomplete : Guarda (s.raiseFlag ref) _ := guarda_complete h
      exact hcomplete

theorem guarda_resolvePermission (s : AgentManager) (id : String) (granted : Bool) :
    Guarda s (s.resolvePermission id granted) := by
  unfold resolvePermission
  split
  · exact Guarda.refl s
  · split
    · exact Guarda.refl s
    · split
      · exact Guarda.refl s
      · rename_i h
        have hcomplete : Guarda s _ := guarda_complete h
        exact hcomplete

theorem Cambio.merma {d : Dart} {e : Evento} (h : Cambio d s e s')
    (hres : ∀ k res ref key, e = .respuesta k res → s.loops k = some ⟨ref, .respuesta key⟩ →
      esRechazo res = false) :
    s'.vault.keys = s.vault.keys ∧ ∀ m ∈ s'.vault.deadKeys, m ∈ s.vault.deadKeys := by
  have hguarda {s' : AgentManager} (h : Guarda s s') :
      s'.vault.keys = s.vault.keys ∧ ∀ m ∈ s'.vault.deadKeys, m ∈ s.vault.deadKeys :=
    ⟨h.1, fun m hm => h.2 ▸ hm⟩
  cases h with
  | nada => exact hguarda (Guarda.refl s)
  | create x => exact hguarda (Guarda.refl s)
  | remove id => exact hguarda (Guarda.refl s)
  | stop id ref _ => exact hguarda (guarda_stopAgent s ref)
  | revive id ref _ =>
    refine ⟨KeyVault.keys_reviveKeys, fun m hm => ?_⟩
    exact KeyVault.deadKeys_reviveKeys_subset hm
  | resolvePermission id granted => exact hguarda (guarda_resolvePermission s id granted)
  | talk id task ref _ _ =>
    have hreceive : Guarda s (s.receive ref task) := Guarda.refl s
    exact hguarda (hreceive.trans (guarda_iterate d _ s.lanzados ref))
  | setHistMode ref modo => exact hguarda (Guarda.refl s)
  | resumen k ref key sistema enVuelo poda res _ =>
    exact hguarda (guarda_handleSummary s k ref key sistema poda _)
  | envio k ref key mensajes _ => exact hguarda (guarda_send s k ref key mensajes)
  | respuesta k ref key res hk =>
    exact hguarda (guarda_handleReply d s k ref (hres k res ref key rfl hk))
  | permiso k ref w name args resto granted _ _ =>
    exact hguarda (guarda_handleAnswer d s k ref w name args resto granted)
  | herramienta k ref name resto out _ =>
    exact hguarda (guarda_runCalls d (s.addLog ref _) k ref resto)

/-- Beside the manager a ledger of the rejected keys, with their providers. -/
structure Vigilado where
  manager : AgentManager
  rechazadas : List (String × String)

namespace Vigilado

def paso (d : Dart) (s : Vigilado) (e : Evento) : Vigilado where
  manager := s.manager.paso d e
  rechazadas := (s.manager.rechazo e).toList ++ s.rechazadas

def inicial (keys : String → List String) (cargados : List Agent) : Vigilado where
  manager := AgentManager.inicial ⟨keys, fun _ => none, []⟩ cargados
  rechazadas := []

/-- The stored keys that are marked dead were rejected. -/
def SoloRechazadas (s : Vigilado) : Prop :=
  ∀ p idx key, KeyVault.mark p idx ∈ s.manager.vault.deadKeys →
    (s.manager.vault.keys p)[idx]? = some key → (p, key) ∈ s.rechazadas

/-- When the reply is a rejection, the rotation of the provider is past the keys, on the
rejected one, or on one rejected before. -/
def MarcaLaSuya (s : Vigilado) : Evento → Prop
  | .respuesta k res => ∀ ref key idx key', s.manager.loops k = some ⟨ref, .respuesta key⟩ →
      esRechazo res = true →
      s.manager.vault.rotation (s.manager.heap ref).providerId = some idx →
      (s.manager.vault.keys (s.manager.heap ref).providerId)[idx]? = some key' →
      key' = key ∨ ((s.manager.heap ref).providerId, key') ∈ s.rechazadas
  | _ => True

variable {s s' : Vigilado}

theorem SoloRechazadas.of_guarda (hs : SoloRechazadas s)
    (hkeys : s'.manager.vault.keys = s.manager.vault.keys)
    (hdead : ∀ m ∈ s'.manager.vault.deadKeys, m ∈ s.manager.vault.deadKeys)
    (hrechazadas : ∀ x ∈ s.rechazadas, x ∈ s'.rechazadas) : SoloRechazadas s' := by
  intro p idx key hmark hkey
  rw [hkeys] at hkey
  exact hrechazadas _ (hs p idx key (hdead _ hmark) hkey)

theorem handleReply_rechazo (d : Dart) (s : AgentManager) (k : LoopId) (ref : Ref)
    {res : Respuesta} (h : esRechazo res = true) :
    s.handleReply d k ref res =
      { s with vault := s.vault.markDeadAndRotate (s.heap ref).providerId }.iterate d k ref := by
  cases res with
  | fallo e => cases h
  | http statusCode body =>
    have hcode : statusCode = 401 ∨ statusCode = 403 := by simpa [esRechazo] using h
    exact if_pos hcode

theorem SoloRechazadas.rechazo_iff (d : Dart) (hs : SoloRechazadas s) {k : LoopId} {ref : Ref}
    {key : String} {res : Respuesta} (hk : s.manager.loops k = some ⟨ref, .respuesta key⟩)
    (hres : esRechazo res = true) :
    SoloRechazadas (s.paso d (.respuesta k res)) ↔ s.MarcaLaSuya (.respuesta k res) := by
  have hmanager : (s.paso d (.respuesta k res)).manager =
      s.manager.handleReply d k ref res := by
    simp only [paso, AgentManager.paso, hk]
  have hrechazadas : (s.paso d (.respuesta k res)).rechazadas =
      ((s.manager.heap ref).providerId, key) :: s.rechazadas := by
    simp [paso, rechazo, hk, hres]
  rw [handleReply_rechazo d _ k ref hres] at hmanager
  obtain ⟨hkeys, hdead⟩ := guarda_iterate d
    { s.manager with vault := s.manager.vault.markDeadAndRotate (s.manager.heap ref).providerId }
    k ref
  rw [← hmanager] at hkeys hdead
  dsimp only at hkeys hdead
  rw [KeyVault.keys_markDeadAndRotate] at hkeys
  constructor
  · intro h ref' key' idx key'' hk' _ hrotation hkey
    rw [hk] at hk'
    cases hk'
    have hmark := (KeyVault.mem_markDeadAndRotate hrotation _).mpr (Or.inl rfl)
    have hnew := h _ idx key'' (hdead ▸ hmark) (hkeys ▸ hkey)
    rw [hrechazadas, List.mem_cons, Prod.mk.injEq] at hnew
    rcases hnew with ⟨-, hnew⟩ | hnew
    · exact Or.inl hnew
    · exact Or.inr hnew
  · intro h p idx key' hmark hkey
    rw [hdead] at hmark
    rw [hkeys] at hkey
    rw [hrechazadas]
    cases hrotation : s.manager.vault.rotation (s.manager.heap ref).providerId with
    | none =>
      rw [KeyVault.markDeadAndRotate, hrotation] at hmark
      exact List.mem_cons_of_mem _ (hs p idx key' hmark hkey)
    | some cur =>
      rcases (KeyVault.mem_markDeadAndRotate hrotation _).mp hmark with hnew | hold
      · obtain ⟨rfl, rfl⟩ := KeyVault.mark_inj.mp hnew
        rcases h ref key idx key' hk hres hrotation hkey with rfl | hbefore
        · exact List.mem_cons_self
        · exact List.mem_cons_of_mem _ hbefore
      · exact List.mem_cons_of_mem _ (hs p idx key' hold hkey)

theorem rechazadas_paso (d : Dart) (s : Vigilado) (e : Evento) :
    ∀ x ∈ s.rechazadas, x ∈ (s.paso d e).rechazadas :=
  fun _ hx => List.mem_append_right _ hx

theorem SoloRechazadas.paso_iff (d : Dart) (hs : SoloRechazadas s) (e : Evento) :
    SoloRechazadas (s.paso d e) ↔ s.MarcaLaSuya e := by
  by_cases he : ∃ k res ref key, e = .respuesta k res ∧
      s.manager.loops k = some ⟨ref, .respuesta key⟩ ∧ esRechazo res = true
  · obtain ⟨k, res, ref, key, rfl, hk, hres⟩ := he
    exact hs.rechazo_iff d hk hres
  · obtain ⟨hkeys, hdead⟩ := (paso_cambio d s.manager e).merma (by
      intro k res ref key heq hk
      exact Bool.eq_false_iff.mpr fun hres => he ⟨k, res, ref, key, heq, hk, hres⟩)
    refine iff_of_true (hs.of_guarda hkeys hdead (rechazadas_paso d s e)) ?_
    cases e with
    | respuesta k res =>
      intro ref key idx key' hk hres
      exact absurd ⟨k, res, ref, key, rfl, hk, hres⟩ he
    | _ => trivial

theorem inicial_soloRechazadas (keys : String → List String) (cargados : List Agent) :
    SoloRechazadas (inicial keys cargados) := by
  intro p idx key hmark
  cases hmark

/-- Only rejected keys are marked in every state of a run exactly when no rejection of the run
finds the rotation on a key that was not. -/
theorem soloRechazadas_iff (d : Dart) (keys : String → List String) (cargados : List Agent)
    (es : List Evento) :
    Run.Always (paso d) SoloRechazadas (inicial keys cargados) es ↔
      Run.AllSteps (paso d) MarcaLaSuya (inicial keys cargados) es := by
  apply Run.always_iff
  · intro s e hs
    exact hs.paso_iff d e
  · exact inicial_soloRechazadas keys cargados

def dosClaves (p : String) : List String := if p = "grok" then ["primera", "segunda"] else []

/-- Both agents ask with the first key and both are refused: the second refusal marks the key
the first one rotated to. -/
def dosRechazos : List Evento :=
  [.talk "a" "hola", .talk "b" "hola", .envio 0, .envio 1, .respuesta 0 (.http 401 none),
    .respuesta 1 (.http 401 none)]

theorem dosRechazos_segunda : ¬ ∀ (d : Dart) (keys : String → List String)
    (cargados : List Agent) (es : List Evento),
    Run.Always (paso d) SoloRechazadas (inicial keys cargados) es := by
  intro h
  have hsolo := h ejemplo dosClaves [sinPermisos, { sinPermisos with id := "b" }] dosRechazos
  have hsegunda := hsolo.2.2.2.2.2.2 "grok" 1 "segunda" (by decide) (by decide)
  exact absurd hsegunda (by decide)

end Vigilado
end Nerea.Agents.AgentManager
