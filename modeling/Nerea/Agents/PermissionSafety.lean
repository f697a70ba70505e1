import Nerea.Agents.LoopFrame

/-!
# No tool runs without permission

The waiter stored in an agent, the call pending there and the call of the activation that
awaits that waiter are one: an answer completes the waiter while exactly that call is
pending. This survives every interleaving, also when two activations of one agent wait.
-/

set_option autoImplicit false

namespace Nerea.Agents
namespace AgentManager

/-- The call was of a known tool the agent had the permission for, or the user had granted
exactly this call. -/
def Autorizado (h : List Suceso) (ref : Ref) (name : String) (args : Args)
    (permissions : List AgentPermission) (waiter : Option WaiterId) : Prop :=
  ∃ tool, toolByName name = some tool ∧
    match waiter with
    | none => tool.permission ∈ permissions
    | some w => .resuelto ref w true name (some args) ∈ h

def Justificada : List Suceso → Prop
  | [] => True
  | .ejecutado ref name args permissions waiter :: h =>
    Autorizado h ref name args permissions waiter ∧ Justificada h
  | _ :: h => Justificada h

theorem justificada_append {nuevos h : List Suceso}
    (hnuevos : ∀ x ∈ nuevos, x.isEjecutado = false) (hh : Justificada h) :
    Justificada (nuevos ++ h) := by
  induction nuevos with
  | nil => exact hh
  | cons x nuevos ih =>
    have hx := hnuevos x List.mem_cons_self
    have hrest := ih fun y hy => hnuevos y (List.mem_cons_of_mem _ hy)
    cases x with
    | enviado ref key mensajes => exact hrest
    | resuelto ref w granted name args => exact hrest
    | ejecutado ref name args permissions waiter => cases hx

theorem Justificada.autorizado {h₁ h₂ : List Suceso} {ref : Ref} {name : String} {args : Args}
    {permissions : List AgentPermission} {waiter : Option WaiterId}
    (h : Justificada (h₁ ++ .ejecutado ref name args permissions waiter :: h₂)) :
    Autorizado h₂ ref name args permissions waiter := by
  induction h₁ with
  | nil => exact h.1
  | cons x h₁ ih =>
    cases x with
    | enviado ref key mensajes => exact ih h
    | resuelto ref w granted name args => exact ih h
    | ejecutado ref name args permissions waiter => exact ih h.2

def Espera (s : AgentManager) (k : LoopId) (ref : Ref) (w : WaiterId) (name : String)
    (args : Args) : Prop :=
  ∃ resto, s.loops k = some ⟨ref, .permiso w name args resto⟩

structure Permisos (s : AgentManager) : Prop where
  conocido : ∀ k ref w name args, s.Espera k ref w name args → ∃ tool, toolByName name = some tool
  acotado : ∀ k ref w name args, s.Espera k ref w name args → w < s.waiters
  otorgado : ∀ k ref w name args, s.Espera k ref w name args → s.completers w = some true →
    .resuelto ref w true name (some args) ∈ s.historia
  pendiente : ∀ ref w, (s.heap ref).permissionWaiter = some w → w < s.waiters ∧
    ∀ k ref' name args, s.Espera k ref' w name args → ref' = ref ∧
      (s.heap ref).pendingToolName = name ∧ (s.heap ref).pendingToolArgs = some args
  frescos : ∀ w, s.waiters ≤ w → s.completers w = none
  resueltos : ∀ ref w granted name args, .resuelto ref w granted name args ∈ s.historia →
    s.completers w = some granted
  ejecutados : ∀ ref name args permissions w,
    .ejecutado ref name args permissions (some w) ∈ s.historia → s.completers w = some true
  justificada : Justificada s.historia

/-- Nothing new is awaited, pending, answered or called. -/
structure Callado (s s' : AgentManager) : Prop where
  completers : s'.completers = s.completers
  waiters : s'.waiters = s.waiters
  historia : ∃ envios, s'.historia = envios ++ s.historia ∧ ∀ x ∈ envios, x.isEnviado = true
  espera : ∀ k ref w name args, s'.Espera k ref w name args → s.Espera k ref w name args
  prompt : ∀ ref w, (s'.heap ref).permissionWaiter = some w →
    (s.heap ref).permissionWaiter = some w ∧
      (s'.heap ref).pendingToolName = (s.heap ref).pendingToolName ∧
      (s'.heap ref).pendingToolArgs = (s.heap ref).pendingToolArgs

variable {k : LoopId} {ref : Ref} {s s' s'' : AgentManager}

theorem Callado.refl (s : AgentManager) : Callado s s where
  completers := rfl
  waiters := rfl
  historia := ⟨[], rfl, by simp⟩
  espera := fun _ _ _ _ _ h => h
  prompt := fun _ _ h => ⟨h, rfl, rfl⟩

theorem Callado.permisos (h : Callado s s') (hs : Permisos s) : Permisos s' := by
  obtain ⟨envios, hhist, henvios⟩ := h.historia
  have hmem {x : Suceso} (hx : x ∈ s'.historia) (hno : x.isEnviado = false) :
      x ∈ s.historia := by
    rw [hhist] at hx
    rcases List.mem_append.mp hx with hx | hx
    · exact absurd (henvios x hx) (by simp [hno])
    · exact hx
  refine ⟨?_, ?_, ?_, ?_, ?_, ?_, ?_, ?_⟩
  · exact fun k ref w name args he => hs.conocido k ref w name args (h.espera _ _ _ _ _ he)
  · intro k ref w name args he
    rw [h.waiters]
    exact hs.acotado k ref w name args (h.espera _ _ _ _ _ he)
  · intro k ref w name args he hw
    rw [h.completers] at hw
    rw [hhist]
    exact List.mem_append_right _ (hs.otorgado k ref w name args (h.espera _ _ _ _ _ he) hw)
  · intro ref w hw
    obtain ⟨hw, hname, hargs⟩ := h.prompt ref w hw
    obtain ⟨hlt, hpend⟩ := hs.pendiente ref w hw
    rw [h.waiters, hname, hargs]
    exact ⟨hlt, fun k ref' name args he => hpend k ref' name args (h.espera _ _ _ _ _ he)⟩
  · intro w hw
    rw [h.completers]
    exact hs.frescos w (h.waiters ▸ hw)
  · intro ref w granted name args hx
    rw [h.completers]
    exact hs.resueltos ref w granted name args (hmem hx rfl)
  · intro ref name args permissions w hx
    rw [h.completers]
    exact hs.ejecutados ref name args permissions w (hmem hx rfl)
  · rw [hhist]
    exact justificada_append (fun x hx => Suceso.isEjecutado_of_isEnviado (henvios x hx))
      hs.justificada

theorem Marco.callado (h : Marco k ref s s') : Callado s s' where
  completers := h.completers
  waiters := h.waiters
  historia := h.historia
  espera := by
    intro k' ref' w name args hresto
    rcases hresto with ⟨resto, hresto⟩
    by_cases hk : k' = k
    · rw [hk] at hresto ⊢
      rcases h.loops_self with hself | hself | ⟨pc, hpc, hself⟩
      · exact ⟨resto, hself ▸ hresto⟩
      · rw [hself] at hresto
        cases hresto
      · rw [hself] at hresto
        cases hresto
        cases hpc
    · exact ⟨resto, h.loops_other k' hk ▸ hresto⟩
  prompt := by
    intro r w hw
    have hfijo := h.fijo_all r
    simp only [Agent.fijo, Prod.mk.injEq] at hfijo
    exact ⟨hfijo.2.2.2.1 ▸ hw, hfijo.2.2.2.2⟩

theorem callado_modify (s : AgentManager) (ref : Ref) {f : Agent → Agent}
    (hf : (f (s.heap ref)).permissionWaiter = none ∨
      (f (s.heap ref)).permissionWaiter = (s.heap ref).permissionWaiter ∧
        (f (s.heap ref)).pendingToolName = (s.heap ref).pendingToolName ∧
        (f (s.heap ref)).pendingToolArgs = (s.heap ref).pendingToolArgs) :
    Callado s (s.modify ref f) :=
  { Callado.refl s with
    prompt := by
      intro r w hw
      by_cases hr : r = ref
      · rw [hr, heap_modify_self] at hw ⊢
        rcases hf with hf | ⟨hwaiter, hrest⟩
        · rw [hf] at hw
          cases hw
        · exact ⟨hwaiter ▸ hw, hrest⟩
      · rw [heap_modify_of_ne hr] at hw ⊢
        exact ⟨hw, rfl, rfl⟩ }

theorem Permisos.execute (hs : Permisos s) {name : String} {args : Args}
    {waiter : Option WaiterId} (resto : List Json)
    (hauth : Autorizado s.historia ref name args (s.heap ref).permissions waiter)
    (hwaiter : ∀ w, waiter = some w → s.completers w = some true) :
    Permisos (s.execute k ref name args waiter resto) := by
  have hregistro : Permisos { s with
      historia := .ejecutado ref name args (s.heap ref).permissions waiter :: s.historia } := by
    refine ⟨hs.conocido, hs.acotado, ?_, hs.pendiente, hs.frescos, ?_, ?_, ⟨hauth, hs.justificada⟩⟩
    · exact fun k ref w name args he hw =>
        List.mem_cons_of_mem _ (hs.otorgado k ref w name args he hw)
    · intro r w granted n a hx
      rcases List.mem_cons.mp hx with hx | hx
      · cases hx
      · exact hs.resueltos r w granted n a hx
    · intro r n a p w hx
      rcases List.mem_cons.mp hx with hx | hx
      · cases hx
        exact hwaiter w rfl
      · exact hs.ejecutados r n a p w hx
  exact (marco_await k ref _ rfl).callado.permisos hregistro

theorem espera_askPermission {name : String} {args : Args} {resto : List Json} {k' : LoopId}
    {ref' : Ref} {w : WaiterId} {name' : String} {args' : Args}
    (h : (s.askPermission k ref name args resto).Espera k' ref' w name' args') :
    (ref' = ref ∧ w = s.waiters ∧ name' = name ∧ args' = args) ∨
      s.Espera k' ref' w name' args' := by
  obtain ⟨resto', hresto⟩ := h
  by_cases hk : k' = k
  · rw [hk, askPermission, loops_await_self] at hresto
    cases hresto
    exact Or.inl ⟨rfl, rfl, rfl, rfl⟩
  · rw [askPermission, loops_await_of_ne hk] at hresto
    exact Or.inr ⟨resto', hresto⟩

theorem Permisos.askPermission (hs : Permisos s) {name : String} {tool : ToolDef}
    (htool : toolByName name = some tool) (args : Args) (resto : List Json) :
    Permisos (s.askPermission k ref name args resto) := by
  have hwaiters : (s.askPermission k ref name args resto).waiters = s.waiters + 1 := rfl
  refine ⟨?_, ?_, ?_, ?_, ?_, hs.resueltos, hs.ejecutados, hs.justificada⟩
  · intro k' ref' w name' args' he
    rcases espera_askPermission he with ⟨-, -, rfl, -⟩ | he
    · exact ⟨tool, htool⟩
    · exact hs.conocido k' ref' w name' args' he
  · intro k' ref' w name' args' he
    rw [hwaiters]
    rcases espera_askPermission he with ⟨-, rfl, -, -⟩ | he
    · exact Nat.lt_succ_self _
    · exact Nat.lt_succ_of_lt (hs.acotado k' ref' w name' args' he)
  · intro k' ref' w name' args' he hw
    rcases espera_askPermission he with ⟨-, rfl, -, -⟩ | he
    · have hfresco := hs.frescos s.waiters (le_refl _)
      exact absurd (hfresco.symm.trans hw) (by simp)
    · exact hs.otorgado k' ref' w name' args' he hw
  · intro r w hw
    by_cases hr : r = ref
    · rw [hr, heap_askPermission_self] at hw ⊢
      obtain rfl := Option.some.inj hw
      refine ⟨Nat.lt_succ_self _, ?_⟩
      intro k' ref' name' args' he
      rcases espera_askPermission he with ⟨rfl, -, rfl, rfl⟩ | he
      · exact ⟨rfl, rfl, rfl⟩
      · exact absurd (hs.acotado _ _ _ _ _ he) (lt_irrefl _)
    · rw [heap_askPermission_of_ne hr] at hw ⊢
      obtain ⟨hlt, hpend⟩ := hs.pendiente r w hw
      refine ⟨Nat.lt_succ_of_lt hlt, ?_⟩
      intro k' ref' name' args' he
      rcases espera_askPermission he with ⟨-, rfl, -, -⟩ | he
      · exact absurd hlt (lt_irrefl _)
      · exact hpend k' ref' name' args' he
  · intro w hw
    exact hs.frescos w (Nat.le_of_succ_le hw)

theorem Avance.permisos (h : Avance k ref s s') (hs : Permisos s) : Permisos s' := by
  cases h with
  | calla h _ => exact h.callado.permisos hs
  | ejecuta args resto h htool hperm _ =>
    exact (h.callado.permisos hs).execute resto ⟨_, htool, hperm⟩ (by simp)
  | pide args resto h htool _ => exact (h.callado.permisos hs).askPermission htool args resto

theorem Permisos.complete (hs : Permisos s) {w : WaiterId} (granted : Bool)
    (nuevos : List Suceso) (hnone : s.completers w = none) (hlt : w < s.waiters)
    (hnuevos : ∀ x ∈ nuevos, ∃ ref name args, x = .resuelto ref w granted name args)
    (hotorga : granted = true → ∀ k ref name args, s.Espera k ref w name args →
      .resuelto ref w true name (some args) ∈ nuevos) :
    Permisos { s with
      completers := Function.update s.completers w (some granted)
      historia := nuevos ++ s.historia } := by
  have hne {w' : WaiterId} (h : s.completers w' ≠ none) : w' ≠ w := fun he => h (he ▸ hnone)
  have hold {w' : WaiterId} {b : Bool} (h : s.completers w' = some b) :
      Function.update s.completers w (some granted) w' = some b := by
    rw [Function.update_of_ne (hne (by simp [h])), h]
  refine ⟨hs.conocido, hs.acotado, ?_, hs.pendiente, ?_, ?_, ?_, ?_⟩
  · intro k ref w' name args he hw'
    change Function.update s.completers w (some granted) w' = some true at hw'
    by_cases hw : w' = w
    · rw [hw, Function.update_self, Option.some.injEq] at hw'
      rw [hw] at he ⊢
      exact List.mem_append_left _ (hotorga hw' k ref name args he)
    · rw [Function.update_of_ne hw] at hw'
      exact List.mem_append_right _ (hs.otorgado k ref w' name args he hw')
  · intro w' hw'
    change s.waiters ≤ w' at hw'
    change Function.update s.completers w (some granted) w' = none
    rw [Function.update_of_ne (Nat.ne_of_gt (Nat.lt_of_lt_of_le hlt hw'))]
    exact hs.frescos w' hw'
  · intro ref w' g name args hx
    rcases List.mem_append.mp hx with hx | hx
    · obtain ⟨ref', name', args', hx⟩ := hnuevos _ hx
      cases hx
      exact Function.update_self _ _ _
    · exact hold (hs.resueltos ref w' g name args hx)
  · intro ref name args permissions w' hx
    rcases List.mem_append.mp hx with hx | hx
    · obtain ⟨ref', name', args', hx⟩ := hnuevos _ hx
      cases hx
    · exact hold (hs.ejecutados ref name args permissions w' hx)
  · apply justificada_append _ hs.justificada
    intro x hx
    obtain ⟨ref, name, args, rfl⟩ := hnuevos x hx
    rfl

theorem Permisos.create (hs : Permisos s) (x : Datos) : Permisos (s.create x) := by
  apply Callado.permisos _ hs
  exact { Callado.refl s with
    prompt := by
      intro r w hw
      by_cases hr : r = s.creados
      · rw [hr, heap_create_self] at hw
        cases hw
      · rw [heap_create_of_ne hr] at hw ⊢
        exact ⟨hw, rfl, rfl⟩ }

theorem Permisos.stopAgent (hs : Permisos s) (ref : Ref) : Permisos (s.stopAgent ref).1 := by
  have hflag : Permisos (s.raiseFlag ref) :=
    (callado_modify s ref (Or.inr ⟨rfl, rfl, rfl⟩)).permisos hs
  have hstopped {s' : AgentManager} (hs' : Permisos s') : Permisos (s'.setStopped ref) :=
    (callado_modify s' ref (Or.inr ⟨rfl, rfl, rfl⟩)).permisos hs'
  unfold AgentManager.stopAgent answer AgentManager.complete
  cases hwaiter : ((s.raiseFlag ref).heap ref).permissionWaiter with
  | none => exact hstopped hflag
  | some w =>
    dsimp only
    cases hnone : (s.raiseFlag ref).completers w with
    | some b => exact hflag
    | none =>
      have hlt := (hflag.pendiente ref w hwaiter).1
      have hcomplete := hflag.complete false [] hnone hlt (by simp) (by simp)
      exact hstopped hcomplete

theorem Permisos.resolvePermission (hs : Permisos s) (id : String) (granted : Bool) :
    Permisos (s.resolvePermission id granted) := by
  unfold AgentManager.resolvePermission
  split
  · exact hs
  · rename_i ref hid
    split
    · exact hs
    · rename_i w hw
      obtain ⟨hlt, hpend⟩ := hs.pendiente ref w hw
      unfold AgentManager.complete
      cases hnone : s.completers w with
      | some b => exact hs
      | none =>
        apply hs.complete granted [.resuelto ref w granted (s.heap ref).pendingToolName
          (s.heap ref).pendingToolArgs] hnone hlt
        · intro x hx
          exact ⟨ref, _, _, List.mem_singleton.mp hx⟩
        · rintro rfl k ref' name args he
          obtain ⟨rfl, hname, hargs⟩ := hpend k ref' name args he
          rw [hname, hargs]
          exact List.mem_singleton_self _

theorem Permisos.handleAnswer (d : Dart) (hs : Permisos s) {w : WaiterId} {name : String}
    {args : Args} {resto : List Json} {granted : Bool}
    (hloop : s.loops k = some ⟨ref, .permiso w name args resto⟩)
    (hw : s.completers w = some granted) :
    Permisos (s.handleAnswer d k ref w name args resto granted) := by
  have hespera : s.Espera k ref w name args := ⟨resto, hloop⟩
  have hclear : Permisos (s.clearPending ref) :=
    (callado_modify s ref (Or.inl rfl)).permisos hs
  unfold AgentManager.handleAnswer
  dsimp only
  split
  · exact (marco_iterate d _ k ref).callado.permisos hclear
  · split
    · exact ((marco_addLog k ref _ _).avance (runCalls_avance d _ k ref resto)).permisos hclear
    · rename_i hgranted
      obtain rfl : granted = true := Bool.not_eq_false _ ▸ hgranted
      obtain ⟨tool, htool⟩ := hs.conocido k ref w name args hespera
      apply hclear.execute
      · exact ⟨tool, htool, hs.otorgado k ref w name args hespera hw⟩
      · intro w' hw'
        cases hw'
        exact hw

theorem Cambio.permisos {d : Dart} {e : Evento} (h : Cambio d s e s') (hs : Permisos s) :
    Permisos s' := by
  cases h with
  | nada => exact hs
  | create x => exact hs.create x
  | remove id => exact Callado.permisos { Callado.refl s with } hs
  | stop id ref _ => exact hs.stopAgent ref
  | revive id ref _ =>
    have hidle : Callado s (s.setIdle ref) := callado_modify s ref (Or.inr ⟨rfl, rfl, rfl⟩)
    exact (marco_vault 0 0 _ _).callado.permisos (hidle.permisos hs)
  | resolvePermission id granted => exact hs.resolvePermission id granted
  | talk id task ref _ _ =>
    have hlanzado : Callado s { s with lanzados := s.lanzados + 1 } := { Callado.refl s with }
    have hreceive : Permisos (s.receive ref task) :=
      (callado_modify _ ref (Or.inr ⟨rfl, rfl, rfl⟩)).permisos (hlanzado.permisos hs)
    exact (marco_iterate d _ s.lanzados ref).callado.permisos hreceive
  | setHistMode ref modo =>
    have hmode : Callado s (s.setHistMode ref modo) :=
      callado_modify s ref (Or.inr ⟨rfl, rfl, rfl⟩)
    exact hmode.permisos hs
  | resumen k ref _ _ _ _ _ _ => exact (handleSummary_avance s k ref _ _ _ _).permisos hs
  | envio k ref _ _ _ => exact (send_avance s k ref _ _).permisos hs
  | respuesta k ref _ res _ => exact (handleReply_avance d s k ref res).permisos hs
  | permiso k ref _ _ _ _ _ hk hw => exact hs.handleAnswer d hk hw
  | herramienta k ref _ _ out _ => exact (handleOutput_avance d s k ref _ _ out).permisos hs

theorem inicial_permisos (vault : KeyVault) (cargados : List Agent) :
    Permisos (inicial vault cargados) where
  conocido := by
    intro k ref w name args h
    rcases h with ⟨resto, h⟩
    cases h
  acotado := by
    intro k ref w name args h
    rcases h with ⟨resto, h⟩
    cases h
  otorgado := by
    intro k ref w name args h
    rcases h with ⟨resto, h⟩
    cases h
  pendiente := by
    intro ref w h
    cases h
  frescos := fun _ _ => rfl
  resueltos := by
    intro ref w granted name args h
    cases h
  ejecutados := by
    intro ref name args permissions w h
    cases h
  justificada := trivial

/-- In every run, a call of `executeTool` is of a known tool which the agent has the
permission for at that moment or for which the user, before, answered yes while exactly this
call was pending; and no call follows from an answer that was no. -/
theorem ejecutado_autorizado (d : Dart) (vault : KeyVault) (cargados : List Agent)
    (es : List Evento) (h₁ h₂ : List Suceso) (ref : Ref) (name : String) (args : Args)
    (permissions : List AgentPermission) (waiter : Option WaiterId)
    (h : (correr d (inicial vault cargados) es).historia =
      h₁ ++ .ejecutado ref name args permissions waiter :: h₂) :
    (∃ tool, toolByName name = some tool ∧ (tool.permission ∈ permissions ∨
      ∃ w, waiter = some w ∧ .resuelto ref w true name (some args) ∈ h₂)) ∧
    ∀ w, waiter = some w → ∀ ref' name' args',
      .resuelto ref' w false name' args' ∉ (correr d (inicial vault cargados) es).historia := by
  have hpermisos : Permisos (correr d (inicial vault cargados) es) :=
    Run.invariant (fun s e => (paso_cambio d s e).permisos) (inicial_permisos vault cargados) es
  constructor
  · have hjustificada := hpermisos.justificada
    rw [h] at hjustificada
    obtain ⟨tool, htool, hauth⟩ := hjustificada.autorizado
    refine ⟨tool, htool, ?_⟩
    cases waiter with
    | none => exact Or.inl hauth
    | some w => exact Or.inr ⟨w, rfl, hauth⟩
  · rintro w rfl ref' name' args' hno
    have htrue := hpermisos.ejecutados ref name args permissions w
      (h ▸ List.mem_append_right h₁ List.mem_cons_self)
    have hfalse := hpermisos.resueltos ref' w false name' args' hno
    exact absurd (htrue.symm.trans hfalse) (by simp)

theorem ejecutado_otorgado :
    (∃ tool, toolByName "read_file" = some tool ∧
      (tool.permission ∈ ([] : List AgentPermission) ∨ ∃ w, some 0 = some w ∧
        .resuelto 0 w true "read_file" (some []) ∈
          (correr ejemplo (inicial unaClave [sinPermisos]) [.talk "a" "hola", .envio 0,
            .respuesta 0 (.http 200 (some "leer")), .resolvePermission "a" true]).historia)) ∧
    ∀ w, some 0 = some w → ∀ ref' name' args', .resuelto ref' w false name' args' ∉
      (correr ejemplo (inicial unaClave [sinPermisos]) [.talk "a" "hola", .envio 0,
        .respuesta 0 (.http 200 (some "leer")), .resolvePermission "a" true,
        .permiso 0]).historia :=
  ejecutado_autorizado ejemplo unaClave [sinPermisos] _ [] _ 0 "read_file" [] [] (some 0) rfl

end AgentManager
end Nerea.Agents
