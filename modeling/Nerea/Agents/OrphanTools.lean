import Nerea.Agents.HistoryWindow
import Nerea.Agents.LoopFrame

/-!
# The results of tools and the turns that called them

A result is logged without a turn of the assistant when the tool does not exist, was
refused, or was granted for once, and the reply had no text. As long as this does not
happen every result in a log follows its turn, no window starts between them, and no
request has a result without one.
-/

set_option autoImplicit false

namespace Nerea.Agents

/-- The role of the last message that is not the result of a tool. -/
def turno (log : List AgentMsg) : Option String :=
  (log.reverse.find? (·.role != "tool")).map (·.role)

def Enlazado (log : List AgentMsg) : Prop :=
  ∀ antes m despues, log = antes ++ m :: despues → m.role = "tool" →
    turno antes = some "assistant"

theorem turno_concat_tool (log : List AgentMsg) {m : AgentMsg} (hm : m.role = "tool") :
    turno (log ++ [m]) = turno log := by
  simp [turno, hm]

theorem turno_concat (log : List AgentMsg) {m : AgentMsg} (hm : m.role ≠ "tool") :
    turno (log ++ [m]) = some m.role := by
  simp [turno, hm]

theorem turno_append {v : List AgentMsg} (antes : List AgentMsg) (hv : turno v ≠ none) :
    turno (antes ++ v) = turno v := by
  unfold turno at hv ⊢
  rw [List.reverse_append, List.find?_append]
  cases h : v.reverse.find? (·.role != "tool") with
  | none => simp [h] at hv
  | some m => rfl

theorem turno_cons_ne_none {m : AgentMsg} (hm : m.role ≠ "tool") (v : List AgentMsg) :
    turno (m :: v) ≠ none := by
  simp only [turno, Ne, Option.map_eq_none_iff, List.find?_eq_none, List.mem_reverse]
  intro h
  exact h m List.mem_cons_self (by simpa using hm)

theorem split_of_turno {log : List AgentMsg} {role : String} (h : turno log = some role) :
    ∃ antes t tools, log = antes ++ t :: tools ∧ t.role = role ∧
      ∀ x ∈ tools, x.role = "tool" := by
  obtain ⟨t, ht, hrole⟩ := Option.map_eq_some_iff.mp h
  obtain ⟨-, tools, antes, hsplit, htools⟩ := List.find?_eq_some_iff_append.mp ht
  refine ⟨antes.reverse, t, tools.reverse, ?_, hrole, ?_⟩
  · have h := congrArg List.reverse hsplit
    simpa using h
  · intro x hx
    simpa using htools x (List.mem_reverse.mp hx)

theorem enlazado_nil : Enlazado [] := by
  intro antes m despues h
  simp at h

theorem enlazado_concat_iff (log : List AgentMsg) (m : AgentMsg) :
    Enlazado (log ++ [m]) ↔
      Enlazado log ∧ (m.role = "tool" → turno log = some "assistant") := by
  constructor
  · intro h
    refine ⟨?_, h log m [] rfl⟩
    rintro antes x despues rfl
    exact h antes x (despues ++ [m]) (by simp)
  · intro hm antes x despues heq hx
    rcases hm with ⟨h, hm⟩
    rcases List.eq_nil_or_concat despues with rfl | ⟨despues, y, rfl⟩
    · obtain ⟨rfl, hsingle⟩ := List.append_inj' heq rfl
      obtain rfl := List.singleton_inj.mp hsingle
      exact hm hx
    · have hsplit : log ++ [m] = (antes ++ x :: despues) ++ [y] := by rw [heq]; simp
      exact h antes x despues (List.append_inj_left' hsplit rfl) hx

theorem Enlazado.mono {log log' : List AgentMsg} (h : Enlazado log') (hpre : log <+: log') :
    Enlazado log := by
  rintro antes m despues rfl
  obtain ⟨resto, rfl⟩ := hpre
  exact h antes m (despues ++ resto) (by simp)

/-- A last part that does not start with a result. -/
theorem Enlazado.of_suffix {antes v : List AgentMsg} (h : Enlazado (antes ++ v))
    (hv : ∀ m ∈ v.head?, m.role ≠ "tool") : Enlazado v := by
  rintro previas m despues rfl hm
  cases previas with
  | nil => exact absurd hm (hv m rfl)
  | cons x previas =>
    have hx : turno (x :: previas) ≠ none := turno_cons_ne_none (hv x rfl) previas
    rw [← turno_append antes hx]
    exact h (antes ++ x :: previas) m despues (by simp) hm

theorem ventana_enlazado {log : List AgentMsg} (h : Enlazado log) : Enlazado (ventana log) := by
  unfold ventana
  split
  · exact h
  · have hsplit : Enlazado (log.take (inicioVentana log) ++ log.drop (inicioVentana log)) := by
      rwa [List.take_append_drop]
    apply hsplit.of_suffix
    intro m hm htool
    rw [drop_inicioVentana] at hm
    have hhead := List.head?_dropWhile_not (·.role == "tool") (log.drop (inicioPresupuesto log))
    rw [Option.mem_def.mp hm] at hhead
    simp [htool] at hhead

/-- In a list of messages for the model. -/
def SinHuerfanos (mensajes : List Json) : Prop :=
  ∀ antes m despues, mensajes = antes ++ m :: despues → m.get "role" = some (.str "tool") →
    ∃ previas t tools, antes = previas ++ t :: tools ∧
      t.get "role" = some (.str "assistant") ∧
      ∀ x ∈ tools, x.get "role" = some (.str "tool")

theorem role_mapMsg (d : Dart) (m : AgentMsg) :
    (mapMsg d m).get "role" = some (.str m.role) := by
  unfold mapMsg
  split
  · rename_i h
    rw [h]
    rfl
  · rfl

theorem sinHuerfanos_map {d : Dart} {v : List AgentMsg} (hv : Enlazado v) :
    SinHuerfanos (v.map (mapMsg d)) := by
  intro antes m despues heq hm
  obtain ⟨w, w', rfl, rfl, hw'⟩ := List.map_eq_append_iff.mp heq
  obtain ⟨x, despues', rfl, rfl, -⟩ := List.map_eq_cons_iff.mp hw'
  have hx : x.role = "tool" := by
    rw [role_mapMsg] at hm
    injection hm with hm
    injection hm
  obtain ⟨previas, t, tools, rfl, ht, htools⟩ := split_of_turno (hv w x despues' rfl hx)
  refine ⟨previas.map (mapMsg d), mapMsg d t, tools.map (mapMsg d), by simp,
    by rw [role_mapMsg, ht], ?_⟩
  intro y hy
  obtain ⟨z, hz, rfl⟩ := List.mem_map.mp hy
  rw [role_mapMsg, htools z hz]

theorem SinHuerfanos.systemMsg {mensajes : List Json} (h : SinHuerfanos mensajes)
    (content : String) : SinHuerfanos (systemMsg content :: mensajes) := by
  intro antes m despues heq hm
  cases antes with
  | nil =>
    obtain ⟨rfl, -⟩ := List.cons_eq_cons.mp heq
    simp [Agents.systemMsg, Json.get, Json.field] at hm
  | cons x antes =>
    obtain ⟨rfl, hrest⟩ := List.cons_eq_cons.mp heq
    obtain ⟨previas, t, tools, rfl, ht, htools⟩ := h antes m despues hrest hm
    exact ⟨Agents.systemMsg content :: previas, t, tools, rfl, ht, htools⟩

theorem sinHuerfanos_avisos {mensajes : List Json} (h : SinHuerfanos mensajes)
    (avisos : List String) : SinHuerfanos (avisos.map systemMsg ++ mensajes) := by
  induction avisos with
  | nil => exact h
  | cons aviso avisos ih => exact ih.systemMsg aviso

/-- In every mode, however a summary ends. -/
theorem sinHuerfanos_enviados (d : Dart) {log : List AgentMsg} (h : Enlazado log)
    (histModo : HistModo) (histResumenCache : String) (histCubiertoChars : ℤ)
    (resumen : Option String) :
    SinHuerfanos ((mensajesParaEnviar d log histModo histResumenCache
      histCubiertoChars).enviados resumen) := by
  obtain ⟨avisos, -, heq⟩ :=
    enviados_eq d log histModo histResumenCache histCubiertoChars resumen
  rw [heq]
  exact sinHuerfanos_avisos (sinHuerfanos_map (ventana_enlazado h)) avisos

def Pc.Ordenado : Pc → Prop
  | .resumiendo _ sistema _ poda => ∀ resumen, SinHuerfanos (sistema :: poda.mensajes resumen)
  | .mensajes _ listos => SinHuerfanos listos
  | _ => True

namespace AgentManager

/-- The logs, the messages that are ready and those that were sent. -/
structure Ordenado (s : AgentManager) : Prop where
  logs : ∀ ref, Enlazado (s.heap ref).log
  listos : ∀ k ref pc, s.loops k = some ⟨ref, pc⟩ → pc.Ordenado
  enviados : ∀ ref key mensajes, .enviado ref key mensajes ∈ s.historia → SinHuerfanos mensajes

/-- The `for` has come to a call of a tool that does not exist. -/
def Desconocida (d : Dart) (a : Agent) : List Json → Prop
  | [] => False
  | tc :: _ => a.stopFlag = false ∧
      ∃ name args, parseCall d tc = some (name, args) ∧ toolByName name = none

/-- A result is only logged when the last turn is the assistant's: a tool that ended, a
refusal, and a tool that does not exist in a reply without a text. -/
def ConTurno (d : Dart) (s : AgentManager) : Evento → Prop
  | .respuesta k res => ∀ ref key body msg calls content,
      s.loops k = some ⟨ref, .respuesta key⟩ → res = .http 200 body →
      mensajeDe d body = some msg → msg.get "tool_calls" = some (.arr calls) →
      msg.get "content" = some content → d.textOf content = "" →
      Desconocida d (s.heap ref) calls → turno (s.heap ref).log = some "assistant"
  | .permiso k => ∀ ref w name args resto, s.loops k = some ⟨ref, .permiso w name args resto⟩ →
      s.completers w = some false → (s.heap ref).stopFlag = false →
      turno (s.heap ref).log = some "assistant"
  | .herramienta k _ => ∀ ref name resto, s.loops k = some ⟨ref, .herramienta name resto⟩ →
      turno (s.heap ref).log = some "assistant"
  | _ => True

variable {k : LoopId} {ref : Ref} {s s' : AgentManager}

theorem Ordenado.modify (h : Ordenado s) {f : Agent → Agent}
    (hf : Enlazado (f (s.heap ref)).log) : Ordenado (s.modify ref f) where
  logs := by
    intro r
    by_cases hr : r = ref
    · rw [hr, heap_modify_self]
      exact hf
    · rw [heap_modify_of_ne hr]
      exact h.logs r
  listos := h.listos
  enviados := h.enviados

theorem Ordenado.await (h : Ordenado s) (k : LoopId) (ref : Ref) {pc : Pc}
    (hpc : pc.Ordenado) : Ordenado (s.await k ref pc) where
  logs := h.logs
  listos := by
    intro k' r pc' hk'
    by_cases hk : k' = k
    · rw [hk, loops_await_self] at hk'
      cases hk'
      exact hpc
    · rw [loops_await_of_ne hk] at hk'
      exact h.listos k' r pc' hk'
  enviados := h.enviados

theorem Ordenado.finish (h : Ordenado s) (k : LoopId) : Ordenado (s.finish k) where
  logs := h.logs
  listos := by
    intro k' r pc hk'
    by_cases hk : k' = k
    · rw [hk, loops_finish_self] at hk'
      cases hk'
    · rw [loops_finish_of_ne hk] at hk'
      exact h.listos k' r pc hk'
  enviados := h.enviados

theorem Ordenado.vault (h : Ordenado s) (vault : KeyVault) :
    Ordenado { s with vault := vault } :=
  ⟨h.logs, h.listos, h.enviados⟩

theorem Ordenado.setError (h : Ordenado s) (ref : Ref) (e : String) :
    Ordenado (s.setError ref e) :=
  h.modify (h.logs ref)

theorem Ordenado.addLog (h : Ordenado s) {m : AgentMsg}
    (hm : m.role = "tool" → turno (s.heap ref).log = some "assistant") :
    Ordenado (s.addLog ref m) :=
  h.modify ((enlazado_concat_iff _ m).mpr ⟨h.logs ref, hm⟩)

theorem Ordenado.prepare (h : Ordenado s) (d : Dart) (k : LoopId) (ref : Ref) (key : String) :
    Ordenado (s.prepare d k ref key) := by
  have henviados := sinHuerfanos_enviados d (h.logs ref) (s.heap ref).histModo
    (s.heap ref).histResumenCache (s.heap ref).histCubiertoChars
  unfold AgentManager.prepare
  dsimp only
  split
  · rename_i mensajes hlista
    rw [hlista] at henviados
    exact h.await k ref ((henviados none).systemMsg _)
  · rename_i poda hpoda
    rw [hpoda] at henviados
    have hsistema : ∀ resumen, SinHuerfanos
        (systemMsg (s.heap ref).mission :: poda.mensajes resumen) :=
      fun resumen => (henviados resumen).systemMsg _
    split
    · exact h.await k ref hsistema
    · exact (h.vault _).await k ref hsistema

theorem Ordenado.iterate (h : Ordenado s) (d : Dart) (k : LoopId) (ref : Ref) :
    Ordenado (s.iterate d k ref) := by
  unfold AgentManager.iterate
  split
  · have hcount : Ordenado (s.countIteration ref) := h.modify (h.logs ref)
    dsimp only
    split
    · exact (hcount.setError ref _).finish k
    · exact (hcount.vault _).prepare d k ref _
  · split
    · exact (h.setError ref _).finish k
    · exact h.finish k

theorem Ordenado.execute (h : Ordenado s) (k : LoopId) (ref : Ref) (name : String)
    (args : Args) (waiter : Option WaiterId) (resto : List Json) :
    Ordenado (s.execute k ref name args waiter resto) := by
  have hcall : Ordenado { s with
      historia := .ejecutado ref name args (s.heap ref).permissions waiter :: s.historia } := by
    refine ⟨h.logs, h.listos, ?_⟩
    intro r key mensajes hmem
    rcases List.mem_cons.mp hmem with heq | hmem
    · cases heq
    · exact h.enviados r key mensajes hmem
  exact hcall.await k ref trivial

theorem Ordenado.askPermission (h : Ordenado s) (k : LoopId) (ref : Ref) (name : String)
    (args : Args) (resto : List Json) : Ordenado (s.askPermission k ref name args resto) := by
  have hcount : Ordenado { s with waiters := s.waiters + 1 } := ⟨h.logs, h.listos, h.enviados⟩
  unfold AgentManager.askPermission
  refine Ordenado.await ?_ k ref ?_
  · exact hcount.modify (h.logs ref)
  · exact trivial

theorem heap_addLog_log (s : AgentManager) (ref : Ref) (m : AgentMsg) :
    ((s.addLog ref m).heap ref).log = (s.heap ref).log ++ [m] := by
  rw [addLog, heap_modify_self]

theorem Ordenado.runCalls (h : Ordenado s) (d : Dart) (k : LoopId) (calls : List Json)
    (hturno : Desconocida d (s.heap ref) calls → turno (s.heap ref).log = some "assistant") :
    Ordenado (s.runCalls d k ref calls) := by
  induction calls generalizing s with
  | nil => exact h.iterate d k ref
  | cons tc resto ih =>
    unfold AgentManager.runCalls
    split
    · exact h.iterate d k ref
    · rename_i hstop
      split
      · exact h.finish k
      · rename_i name args hparse
        split
        · rename_i hnone
          have hlast := hturno ⟨Bool.not_eq_true _ ▸ hstop, name, args, hparse, hnone⟩
          apply ih (h.addLog fun _ => hlast)
          intro _
          rw [heap_addLog_log, turno_concat_tool _ rfl]
          exact hlast
        · split
          · have hlogged : Ordenado (s.addLog ref ⟨"assistant", "🔧 " ++ name ++ " " ++
                d.jsonEncode (.obj args), some name⟩) := h.addLog fun h => by simp at h
            exact hlogged.execute k ref name args none resto
          · exact h.askPermission k ref name args resto

theorem Ordenado.handleMessage (h : Ordenado s) (d : Dart) (k : LoopId) {msg : Json}
    (hturno : ∀ calls content, msg.get "tool_calls" = some (.arr calls) →
      msg.get "content" = some content → d.textOf content = "" →
      Desconocida d (s.heap ref) calls → turno (s.heap ref).log = some "assistant") :
    Ordenado (s.handleMessage d k ref msg) := by
  unfold AgentManager.handleMessage
  split
  · rename_i tc calls content hcalls hcontent
    dsimp only
    split
    · rename_i htext
      exact h.runCalls d k _ (hturno _ content hcalls hcontent htext)
    · have hlogged : Ordenado (s.addLog ref ⟨"assistant", d.textOf content, none⟩) :=
        h.addLog fun h => by simp at h
      apply hlogged.runCalls d k
      intro _
      rw [heap_addLog_log]
      exact turno_concat _ (by simp)
  · rename_i content _ _ _
    have hlogged : Ordenado (s.addLog ref ⟨"assistant", d.textOf content, none⟩) :=
      h.addLog fun h => by simp at h
    exact (hlogged.modify (hlogged.logs ref)).finish k
  · exact h.finish k

theorem Ordenado.handleReply (h : Ordenado s) (d : Dart) (k : LoopId) {res : Respuesta}
    (hturno : ∀ body msg calls content, res = .http 200 body → mensajeDe d body = some msg →
      msg.get "tool_calls" = some (.arr calls) → msg.get "content" = some content →
      d.textOf content = "" → Desconocida d (s.heap ref) calls →
      turno (s.heap ref).log = some "assistant") :
    Ordenado (s.handleReply d k ref res) := by
  unfold AgentManager.handleReply
  split
  · exact (h.setError ref _).finish k
  · rename_i statusCode body
    split
    · exact (h.vault _).iterate d k ref
    · split
      · split
        · exact (h.modify (h.logs ref)).finish k
        · exact (h.setError ref _).finish k
      · rename_i h200
        split
        · exact (h.setError ref _).finish k
        · rename_i msg hmsg
          have hstatus : statusCode = 200 := not_not.mp h200
          apply h.handleMessage d k
          intro calls content hcalls hcontent
          exact hturno body msg calls content (by rw [hstatus]) hmsg hcalls hcontent

theorem Ordenado.handleSummary (h : Ordenado s) (k : LoopId) (ref : Ref) (key : String)
    {sistema : Json} {poda : Poda}
    (hpoda : ∀ resumen, SinHuerfanos (sistema :: poda.mensajes resumen))
    (resumen : Option String) : Ordenado (s.handleSummary k ref key sistema poda resumen) := by
  unfold AgentManager.handleSummary
  split
  · have hstore : Ordenado (s.storeResumen ref poda resumen) := by
      cases resumen with
      | none => exact h
      | some r =>
        rw [storeResumen]
        exact h.modify (h.logs ref)
    exact hstore.await k ref (hpoda _)
  · exact h.await k ref (hpoda resumen)

theorem Ordenado.send (h : Ordenado s) (k : LoopId) (ref : Ref) (key : String)
    {mensajes : List Json} (hm : SinHuerfanos mensajes) : Ordenado (s.send k ref key mensajes) := by
  unfold AgentManager.send
  split
  · exact (h.setError ref _).finish k
  · have hsent : Ordenado { s with historia := .enviado ref key mensajes :: s.historia } := by
      refine ⟨h.logs, h.listos, ?_⟩
      intro r key' mensajes' hmem
      rcases List.mem_cons.mp hmem with heq | hmem
      · cases heq
        exact hm
      · exact h.enviados r key' mensajes' hmem
    exact hsent.await k ref trivial

theorem Ordenado.handleAnswer (h : Ordenado s) (d : Dart) (k : LoopId) (w : WaiterId)
    (name : String) (args : Args) (resto : List Json) {granted : Bool}
    (hturno : granted = false → (s.heap ref).stopFlag = false →
      turno (s.heap ref).log = some "assistant") :
    Ordenado (s.handleAnswer d k ref w name args resto granted) := by
  have hclear : Ordenado (s.clearPending ref) := h.modify (h.logs ref)
  have hlog : ((s.clearPending ref).heap ref).log = (s.heap ref).log := by
    rw [clearPending, heap_modify_self]
  have hflag : ((s.clearPending ref).heap ref).stopFlag = (s.heap ref).stopFlag := by
    rw [clearPending, heap_modify_self]
  unfold AgentManager.handleAnswer
  dsimp only
  split
  · exact hclear.iterate d k ref
  · rename_i hstop
    split
    · rename_i hdenied
      have hlast : turno ((s.clearPending ref).heap ref).log = some "assistant" := by
        rw [hlog]
        exact hturno hdenied (hflag ▸ Bool.not_eq_true _ ▸ hstop)
      apply (hclear.addLog fun _ => hlast).runCalls d k
      intro _
      rw [heap_addLog_log, turno_concat_tool _ rfl]
      exact hlast
    · exact hclear.execute k ref name args (some w) resto

theorem Ordenado.handleOutput (h : Ordenado s) (d : Dart) (k : LoopId) (name : String)
    (resto : List Json) (out : String) (hturno : turno (s.heap ref).log = some "assistant") :
    Ordenado (s.handleOutput d k ref name resto out) := by
  apply (h.addLog fun _ => hturno).runCalls d k
  intro _
  rw [heap_addLog_log, turno_concat_tool _ rfl]
  exact hturno

theorem Ordenado.sereno (h : Ordenado s) (hs : Sereno s s')
    (hlog : ∀ r, (s'.heap r).log = (s.heap r).log) (hhist : ∀ ref key mensajes,
      .enviado ref key mensajes ∈ s'.historia → .enviado ref key mensajes ∈ s.historia) :
    Ordenado s' where
  logs := fun r => by
    rw [hlog]
    exact h.logs r
  listos := fun k r pc hk => h.listos k r pc (hs.loops ▸ hk)
  enviados := fun ref key mensajes hmem => h.enviados ref key mensajes (hhist _ _ _ hmem)

theorem log_modify {f : Agent → Agent} (hf : (f (s.heap ref)).log = (s.heap ref).log) (r : Ref) :
    ((s.modify ref f).heap r).log = (s.heap r).log := by
  by_cases hr : r = ref
  · rw [hr, heap_modify_self, hf]
  · rw [heap_modify_of_ne hr]

theorem answer_frame {granted : Bool} (h : s.answer ref granted = some s') :
    s'.heap = s.heap ∧ s'.historia = s.historia := by
  unfold answer at h
  split at h
  · rw [Option.some.inj h]
    exact ⟨rfl, rfl⟩
  · obtain ⟨-, rfl⟩ := complete_eq_some h
    exact ⟨rfl, rfl⟩

theorem Ordenado.stopAgent (h : Ordenado s) (ref : Ref) : Ordenado (s.stopAgent ref).1 := by
  have hflag : Ordenado (s.raiseFlag ref) := h.modify (h.logs ref)
  unfold AgentManager.stopAgent
  split
  · exact hflag
  · rename_i s' hanswer
    obtain ⟨hheap, hhist⟩ := answer_frame hanswer
    have hs' : Ordenado s' := hflag.sereno (sereno_answer hanswer)
      (fun r => by rw [hheap]) (fun _ _ _ hmem => hhist ▸ hmem)
    have hset : Ordenado (s'.setStopped ref) := hs'.modify (hs'.logs ref)
    exact hset

theorem resolvePermission_frame (s : AgentManager) (id : String) (granted : Bool) :
    (s.resolvePermission id granted).heap = s.heap ∧
    ∃ xs, (s.resolvePermission id granted).historia = xs ++ s.historia ∧
      ∀ x ∈ xs, x.isEnviado = false := by
  have hsame : ∃ xs, s.historia = xs ++ s.historia ∧ ∀ x ∈ xs, x.isEnviado = false :=
    ⟨[], rfl, by simp⟩
  unfold AgentManager.resolvePermission
  split
  · exact ⟨rfl, hsame⟩
  · split
    · exact ⟨rfl, hsame⟩
    · split
      · exact ⟨rfl, hsame⟩
      · rename_i h
        obtain ⟨-, rfl⟩ := complete_eq_some h
        exact ⟨rfl, [_], rfl, by simp [Suceso.isEnviado]⟩

theorem Ordenado.resolvePermission (h : Ordenado s) (id : String) (granted : Bool) :
    Ordenado (s.resolvePermission id granted) := by
  obtain ⟨hheap, xs, hhist, hxs⟩ := resolvePermission_frame s id granted
  apply h.sereno (sereno_resolvePermission s id granted)
  · intro r
    rw [hheap]
  · intro ref key mensajes hmem
    rw [hhist] at hmem
    rcases List.mem_append.mp hmem with hmem | hmem
    · exact absurd (hxs _ hmem) (by simp [Suceso.isEnviado])
    · exact hmem

theorem Ordenado.create (h : Ordenado s) (x : Datos) : Ordenado (s.create x) where
  logs := by
    intro r
    by_cases hr : r = s.creados
    · rw [hr, heap_create_self]
      exact enlazado_nil
    · rw [heap_create_of_ne hr]
      exact h.logs r
  listos := h.listos
  enviados := h.enviados

theorem Cambio.ordenado {d : Dart} {e : Evento} (h : Cambio d s e s') (hs : Ordenado s)
    (he : ConTurno d s e) : Ordenado s' := by
  cases h with
  | nada => exact hs
  | create x => exact hs.create x
  | remove id => exact ⟨hs.logs, hs.listos, hs.enviados⟩
  | stop id ref _ => exact hs.stopAgent ref
  | revive id ref _ =>
    have hidle : Ordenado (s.setIdle ref) := hs.modify (hs.logs ref)
    exact hidle.vault _
  | resolvePermission id granted => exact hs.resolvePermission id granted
  | talk id task ref _ _ =>
    have hcount : Ordenado { s with lanzados := s.lanzados + 1 } :=
      ⟨hs.logs, hs.listos, hs.enviados⟩
    have hreceive : Ordenado (s.receive ref task) :=
      hcount.modify ((enlazado_concat_iff _ _).mpr ⟨hs.logs ref, fun h => by simp at h⟩)
    exact hreceive.iterate d s.lanzados ref
  | setHistMode ref modo => exact hs.modify (hs.logs ref)
  | resumen k ref key _ _ _ _ hk =>
    exact hs.handleSummary k ref key (hs.listos k ref _ hk) _
  | envio k ref key _ hk => exact hs.send k ref key (hs.listos k ref _ hk)
  | respuesta k ref key res hk =>
    exact hs.handleReply d k fun body msg calls content => he ref key body msg calls content hk
  | permiso k ref w name args resto granted hk hw =>
    apply hs.handleAnswer d k w name args resto
    rintro rfl
    exact he ref w name args resto hk hw
  | herramienta k ref name resto out hk =>
    exact hs.handleOutput d k name resto out (he ref name resto hk)

/-! The other direction: a log only grows, so a result without a turn stays in it. -/

theorem log_prepare (d : Dart) (s : AgentManager) (k : LoopId) (ref : Ref) (key : String)
    (r : Ref) : ((s.prepare d k ref key).heap r).log = (s.heap r).log := by
  unfold prepare
  dsimp only
  split
  · rfl
  · split <;> rfl

theorem log_setError (s : AgentManager) (ref : Ref) (e : String) (r : Ref) :
    ((s.setError ref e).heap r).log = (s.heap r).log :=
  log_modify rfl r

theorem log_iterate (d : Dart) (s : AgentManager) (k : LoopId) (ref r : Ref) :
    ((s.iterate d k ref).heap r).log = (s.heap r).log := by
  have hcount : ((s.countIteration ref).heap r).log = (s.heap r).log := log_modify rfl r
  unfold iterate
  split
  · dsimp only
    split
    · exact (log_setError _ ref _ r).trans hcount
    · rw [log_prepare]
      exact hcount
  · split
    · exact log_setError s ref _ r
    · rfl

theorem prefix_log_runCalls (d : Dart) (s : AgentManager) (k : LoopId) (ref : Ref)
    (calls : List Json) : (s.heap ref).log <+: ((s.runCalls d k ref calls).heap ref).log := by
  induction calls generalizing s with
  | nil =>
    unfold runCalls
    exact ⟨[], by rw [List.append_nil, log_iterate]⟩
  | cons tc resto ih =>
    unfold runCalls
    split
    · exact ⟨[], by rw [List.append_nil, log_iterate]⟩
    · split
      · exact List.prefix_refl _
      · split
        · apply List.IsPrefix.trans _ (ih _)
          rw [heap_addLog_log]
          exact List.prefix_append _ _
        · split
          · change _ <+: ((s.addLog ref _).heap ref).log
            rw [heap_addLog_log]
            exact List.prefix_append _ _
          · exact ⟨[], by rw [List.append_nil, heap_askPermission_self]⟩

theorem turno_of_addLog_runCalls {d : Dart} {m : AgentMsg} {calls : List Json}
    (hm : m.role = "tool") (h : Enlazado (((s.addLog ref m).runCalls d k ref calls).heap ref).log) :
    turno (s.heap ref).log = some "assistant" := by
  have hpre := h.mono (prefix_log_runCalls d (s.addLog ref m) k ref calls)
  rw [heap_addLog_log] at hpre
  exact ((enlazado_concat_iff _ m).mp hpre).2 hm

theorem turno_of_desconocida {d : Dart} {calls : List Json}
    (hcalls : Desconocida d (s.heap ref) calls)
    (h : Enlazado ((s.runCalls d k ref calls).heap ref).log) :
    turno (s.heap ref).log = some "assistant" := by
  cases calls with
  | nil => exact absurd hcalls id
  | cons tc resto =>
    obtain ⟨hstop, name, args, hparse, hnone⟩ := hcalls
    rw [runCalls, hstop, hparse] at h
    simp only [Bool.false_eq_true, if_false, hnone] at h
    exact turno_of_addLog_runCalls rfl h

theorem conTurno_of_enlazado {d : Dart} {e : Evento}
    (h : ∀ ref, Enlazado ((paso d s e).heap ref).log) : ConTurno d s e := by
  cases e with
  | respuesta k res =>
    rintro ref key body msg calls content hk rfl hmsg hcalls hcontent htext hunknown
    have hlog := h ref
    obtain ⟨tc, resto, rfl⟩ : ∃ tc resto, calls = tc :: resto := by
      cases calls with
      | nil => exact absurd hunknown id
      | cons tc resto => exact ⟨tc, resto, rfl⟩
    simp only [paso, hk, handleReply, hmsg, handleMessage, hcalls, hcontent, htext] at hlog
    exact turno_of_desconocida hunknown hlog
  | permiso k =>
    intro ref w name args resto hk hw hstop
    have hlog := h ref
    have hflag : ((s.clearPending ref).heap ref).stopFlag = false := by
      rw [clearPending, heap_modify_self]
      exact hstop
    simp only [paso, hk, hw, handleAnswer, hflag, Bool.false_eq_true, if_false, if_true] at hlog
    have hlast := turno_of_addLog_runCalls rfl hlog
    rw [clearPending, heap_modify_self] at hlast
    exact hlast
  | herramienta k out =>
    intro ref name resto hk
    have hlog := h ref
    simp only [paso, hk, handleOutput] at hlog
    exact turno_of_addLog_runCalls rfl hlog
  | _ => exact trivial

/-- In every mode and however a summary ends, and among the requests that were sent. -/
def SinHuerfanas (d : Dart) (s : AgentManager) : Prop :=
  (∀ ref histModo histResumenCache histCubiertoChars resumen, SinHuerfanos
    (systemMsg (s.heap ref).mission ::
      (mensajesParaEnviar d (s.heap ref).log histModo histResumenCache
        histCubiertoChars).enviados resumen)) ∧
  ∀ ref key mensajes, .enviado ref key mensajes ∈ s.historia → SinHuerfanos mensajes

theorem Ordenado.sinHuerfanas (d : Dart) (h : Ordenado s) : SinHuerfanas d s :=
  ⟨fun ref _ _ _ _ => (sinHuerfanos_enviados d (h.logs ref) _ _ _ _).systemMsg _, h.enviados⟩

theorem inicial_ordenado {vault : KeyVault} {cargados : List Agent}
    (hc : ∀ a ∈ cargados, Enlazado a.log) : Ordenado (inicial vault cargados) where
  logs := by
    intro ref
    change Enlazado (cargados.getD ref _).log
    rw [List.getD_eq_getElem?_getD]
    cases h : cargados[ref]? with
    | none => exact enlazado_nil
    | some a => exact hc a (List.mem_of_getElem? h)
  listos := fun _ _ _ hk => by cases hk
  enviados := fun _ _ _ hmem => by cases hmem

/-- The results in the logs follow their turns throughout a run exactly when every step that
logs one finds its turn, and then so do those in the messages for the model. -/
theorem orphan_free_iff (d : Dart) (vault : KeyVault) (cargados : List Agent)
    (hc : ∀ a ∈ cargados, Enlazado a.log) (es : List Evento) :
    (Run.Always (paso d) (fun s => ∀ ref, Enlazado (s.heap ref).log) (inicial vault cargados) es ↔
      Run.AllSteps (paso d) (ConTurno d) (inicial vault cargados) es) ∧
    (Run.AllSteps (paso d) (ConTurno d) (inicial vault cargados) es →
      Run.Always (paso d) (SinHuerfanas d) (inicial vault cargados) es) := by
  have hordenado : Run.AllSteps (paso d) (ConTurno d) (inicial vault cargados) es →
      Run.Always (paso d) Ordenado (inicial vault cargados) es :=
    Run.always_of_allSteps (fun s e hs he => (paso_cambio d s e).ordenado hs he)
      (inicial_ordenado hc)
  refine ⟨⟨?_, fun hes => (hordenado hes).imp fun s hs => hs.logs⟩,
    fun hes => (hordenado hes).imp fun s hs => hs.sinHuerfanas d⟩
  exact Run.allSteps_of_always fun s e => conTurno_of_enlazado

/-- A call the agent is allowed, up to the request with its result. -/
theorem orphan_free_leer :
    let lector := { sinPermisos with permissions := [.readFiles] }
    let es : List Evento := [.talk "a" "hola", .envio 0, .respuesta 0 (.http 200 (some "leer")),
      .herramienta 0 "datos", .envio 0]
    Run.Always (paso ejemplo) (SinHuerfanas ejemplo) (inicial unaClave [lector]) es := by
  intro lector es
  have hc : ∀ a ∈ [lector], Enlazado a.log := by
    intro a ha
    rw [List.mem_singleton.mp ha]
    exact enlazado_nil
  apply (orphan_free_iff ejemplo unaClave [lector] hc es).2
  refine ⟨trivial, trivial, ?_, ?_, trivial, trivial⟩
  · intro ref key body msg calls content hk hbody hmsg hcalls _ _ hunknown
    cases hk
    cases hbody
    cases hmsg
    cases hcalls
    obtain ⟨-, name, args, hparse, hnone⟩ := hunknown
    cases hparse
    cases hnone
  · intro ref name resto hk
    cases hk
    rfl

/-- A call granted for once, in a reply without a text: its result is sent after the user's
message. -/
theorem orphan_sent : ¬ ∀ (d : Dart) (vault : KeyVault) (cargados : List Agent)
    (es : List Evento), (∀ a ∈ cargados, Enlazado a.log) →
    Run.Always (paso d) (SinHuerfanas d) (inicial vault cargados) es := by
  intro h
  have hrun := h ejemplo unaClave [sinPermisos] [.talk "a" "hola", .envio 0,
    .respuesta 0 (.http 200 (some "leer")), .resolvePermission "a" true, .permiso 0,
    .herramienta 0 "datos", .envio 0] (by
      intro a ha
      rw [List.mem_singleton.mp ha]
      exact enlazado_nil)
  have hsent := hrun.last.2 0 "clave" _ (List.mem_cons_self)
  obtain ⟨previas, t, tools, heq, ht, -⟩ := hsent
    [systemMsg "", mapMsg ejemplo ⟨"user", "hola", none⟩]
    (mapMsg ejemplo ⟨"tool", "datos", some "read_file"⟩) [] rfl rfl
  have hmem : t ∈ [systemMsg "", mapMsg ejemplo ⟨"user", "hola", none⟩] := by
    rw [heq]
    exact List.mem_append_right _ List.mem_cons_self
  rcases List.mem_cons.mp hmem with rfl | hmem
  · simp [systemMsg, Json.get, Json.field] at ht
  · rw [List.mem_singleton.mp hmem, role_mapMsg] at ht
    simp at ht

end AgentManager
end Nerea.Agents
