import Nerea.Agents.History
import Nerea.Agents.KeyVault
import Nerea.Agents.Tools
import Nerea.Shared.Run

/-!
# The agent manager

Agents live in a heap; the manager lists some of them and each activation of `_loop` runs
on one. An activation stands where it awaits something, and an event continues it up to
the next such place: any order of calls and completions is a run. The trace keeps the
answers the user gave, the calls of `executeTool` and the requests sent.
-/

set_option autoImplicit false

namespace Nerea.Agents

abbrev Ref := ℕ
abbrev WaiterId := ℕ
abbrev LoopId := ℕ

inductive AgentStatus where
  | idle | running | waitingPermission | stopped | error
deriving DecidableEq

structure Agent where
  id : String
  name : String
  mission : String
  providerId : String
  model : String
  permissions : List AgentPermission
  status : AgentStatus := .idle
  lastError : String := ""
  pendingToolName : String := ""
  pendingToolArgs : Option Args := none
  iterations : ℕ := 0
  stopFlag : Bool := false
  histModo : HistModo := .ventana
  histResumenCache : String := ""
  histCubiertoChars : ℤ := 0
  permissionWaiter : Option WaiterId := none
  log : List AgentMsg := []

def maxIterations : ℕ := 15

/-- What an activation awaits: a summary (`enVuelo` when it was really asked for), the
messages, the reply, the user's answer, or the result of a tool. -/
inductive Pc where
  | resumiendo (key : String) (sistema : Json) (enVuelo : Bool) (poda : Poda)
  | mensajes (key : String) (mensajes : List Json)
  | respuesta (key : String)
  | permiso (waiter : WaiterId) (name : String) (args : Args) (resto : List Json)
  | herramienta (name : String) (resto : List Json)

structure Activacion where
  ref : Ref
  pc : Pc

inductive Suceso where
  /-- `resolvePermission` completed the waiter while these were pending. -/
  | resuelto (ref : Ref) (waiter : WaiterId) (granted : Bool) (name : String)
      (args : Option Args)
  /-- `executeTool` was called with the agent's permissions then, after a wait or not. -/
  | ejecutado (ref : Ref) (name : String) (args : Args) (permissions : List AgentPermission)
      (waiter : Option WaiterId)
  | enviado (ref : Ref) (key : String) (mensajes : List Json)

structure AgentManager where
  vault : KeyVault
  heap : Ref → Agent
  creados : Ref
  agents : List Ref
  loops : LoopId → Option Activacion
  lanzados : LoopId
  completers : WaiterId → Option Bool
  waiters : WaiterId
  historia : List Suceso

namespace AgentManager

def modify (s : AgentManager) (ref : Ref) (f : Agent → Agent) : AgentManager :=
  { s with heap := Function.update s.heap ref (f (s.heap ref)) }

def await (s : AgentManager) (k : LoopId) (ref : Ref) (pc : Pc) : AgentManager :=
  { s with loops := Function.update s.loops k (some ⟨ref, pc⟩) }

def finish (s : AgentManager) (k : LoopId) : AgentManager :=
  { s with loops := Function.update s.loops k none }

def addLog (s : AgentManager) (ref : Ref) (m : AgentMsg) : AgentManager :=
  s.modify ref fun a => { a with log := a.log ++ [m] }

def setError (s : AgentManager) (ref : Ref) (lastError : String) : AgentManager :=
  s.modify ref fun a => { a with status := .error, lastError := lastError }

def execute (s : AgentManager) (k : LoopId) (ref : Ref) (name : String) (args : Args)
    (waiter : Option WaiterId) (resto : List Json) : AgentManager :=
  { s with historia := .ejecutado ref name args (s.heap ref).permissions waiter :: s.historia
    }.await k ref (.herramienta name resto)

/-- The call is pending, and a new completer for it is awaited. -/
def askPermission (s : AgentManager) (k : LoopId) (ref : Ref) (name : String) (args : Args)
    (resto : List Json) : AgentManager :=
  ({ s with waiters := s.waiters + 1 }.modify ref fun a => { a with
    pendingToolName := name
    pendingToolArgs := some args
    status := .waitingPermission
    permissionWaiter := some s.waiters }).await k ref (.permiso s.waiters name args resto)

/-- `_resumir` up to its request: whether there is one, and the key it took. -/
def startResumen (s : AgentManager) (ref : Ref) : Option (String × KeyVault) :=
  match providerById (s.heap ref).providerId with
  | none => none
  | some _ => s.vault.nextKey (s.heap ref).providerId

/-- `_mensajesParaEnviar` up to its own wait. -/
def prepare (d : Dart) (s : AgentManager) (k : LoopId) (ref : Ref) (key : String) :
    AgentManager :=
  let a := s.heap ref
  let sistema := systemMsg a.mission
  match mensajesParaEnviar d a.log a.histModo a.histResumenCache a.histCubiertoChars with
  | .lista mensajes => s.await k ref (.mensajes key (sistema :: mensajes))
  | .resumir poda =>
    match s.startResumen ref with
    | none => s.await k ref (.resumiendo key sistema false poda)
    | some (_, vault) =>
      { s with vault := vault }.await k ref (.resumiendo key sistema true poda)

def countIteration (s : AgentManager) (ref : Ref) : AgentManager :=
  s.modify ref fun a =>
    { a with iterations := a.iterations + 1, status := .running, lastError := "" }

/-- The head of the `while`: the next iteration up to its first wait, or the end. -/
def iterate (d : Dart) (s : AgentManager) (k : LoopId) (ref : Ref) : AgentManager :=
  if (s.heap ref).stopFlag = false ∧ (s.heap ref).iterations < maxIterations then
    let s := s.countIteration ref
    match s.vault.nextKey (s.heap ref).providerId with
    | none =>
      (s.setError ref ("sin API key válida para " ++ (s.heap ref).providerId)).finish k
    | some (key, vault) => { s with vault := vault }.prepare d k ref key
  else if maxIterations ≤ (s.heap ref).iterations ∧ (s.heap ref).status = .running then
    (s.setError ref ("límite de " ++ toString maxIterations ++
      " iteraciones de herramientas")).finish k
  else s.finish k

def parseToolArgs (d : Dart) (raw : String) : Args :=
  match d.jsonDecode (if raw = "" then "{}" else raw) with
  | some (.obj fields) => fields
  | _ => []

/-- `fn['name']` and the parsed arguments of a tool call, or an exception. -/
def parseCall (d : Dart) (tc : Json) : Option (String × Args) := do
  let fn := (← tc.get "function").orElse (.obj [])
  let name ← fn.get "name"
  let arguments ← fn.get "arguments"
  return (d.textOf name, parseToolArgs d (d.textOf arguments))

/-- The `for` over the tool calls, up to the first wait. -/
def runCalls (d : Dart) (s : AgentManager) (k : LoopId) (ref : Ref) :
    List Json → AgentManager
  | [] => s.iterate d k ref
  | tc :: resto =>
    if (s.heap ref).stopFlag then s.iterate d k ref
    else
      match parseCall d tc with
      | none => s.finish k
      | some (name, args) =>
        match toolByName name with
        | none => runCalls d (s.addLog ref ⟨"tool", "herramienta inexistente", some name⟩) k ref
            resto
        | some tool =>
          if tool.permission ∈ (s.heap ref).permissions then
            (s.addLog ref ⟨"assistant", "🔧 " ++ name ++ " " ++ d.jsonEncode (.obj args),
              some name⟩).execute k ref name args none resto
          else s.askPermission k ref name args resto

/-- What `_loop` does with the decoded message of a reply. -/
def handleMessage (d : Dart) (s : AgentManager) (k : LoopId) (ref : Ref) (msg : Json) :
    AgentManager :=
  match msg.get "tool_calls", msg.get "content" with
  | some (.arr (tc :: calls)), some content =>
    let txt := d.textOf content
    let s := if txt = "" then s else s.addLog ref ⟨"assistant", txt, none⟩
    s.runCalls d k ref (tc :: calls)
  | some _, some content =>
    ((s.addLog ref ⟨"assistant", d.textOf content, none⟩).modify ref fun a =>
      { a with status := .idle }).finish k
  | _, _ => s.finish k

def handleReply (d : Dart) (s : AgentManager) (k : LoopId) (ref : Ref) (res : Respuesta) :
    AgentManager :=
  match res with
  | .fallo e => (s.setError ref e).finish k
  | .http statusCode body =>
    if statusCode = 401 ∨ statusCode = 403 then
      { s with vault := s.vault.markDeadAndRotate (s.heap ref).providerId }.iterate d k ref
    else if statusCode ≠ 200 then
      (match body with
        | none => s.modify ref fun a => { a with status := .error }
        | some body => s.setError ref ("HTTP " ++ toString statusCode ++ ": " ++
            if Utf16.length body ≤ 300 then body
            else Utf16.substring body 300 ++ "…")).finish k
    else
      match mensajeDe d body with
      | none => (s.setError ref "respuesta no parseable").finish k
      | some msg => s.handleMessage d k ref msg

def storeResumen (s : AgentManager) (ref : Ref) (poda : Poda) (resumen : Option String) :
    AgentManager :=
  match resumen with
  | none => s
  | some r => s.modify ref fun a =>
      { a with histResumenCache := r, histCubiertoChars := poda.evictChars }

def handleSummary (s : AgentManager) (k : LoopId) (ref : Ref) (key : String)
    (sistema : Json) (poda : Poda) (resumen : Option String) : AgentManager :=
  if poda.hibrido then
    let s := s.storeResumen ref poda resumen
    s.await k ref (.mensajes key
      (sistema :: poda.mensajes (nonempty (s.heap ref).histResumenCache)))
  else s.await k ref (.mensajes key (sistema :: poda.mensajes resumen))

def send (s : AgentManager) (k : LoopId) (ref : Ref) (key : String) (mensajes : List Json) :
    AgentManager :=
  match providerById (s.heap ref).providerId with
  | none => (s.setError ref "Null check operator used on a null value").finish k
  | some _ =>
    { s with historia := .enviado ref key mensajes :: s.historia }.await k ref (.respuesta key)

def clearPending (s : AgentManager) (ref : Ref) : AgentManager :=
  s.modify ref fun a =>
    { a with permissionWaiter := none, pendingToolName := "", pendingToolArgs := none }

/-- The user answered, or the agent was stopped. -/
def handleAnswer (d : Dart) (s : AgentManager) (k : LoopId) (ref : Ref) (waiter : WaiterId)
    (name : String) (args : Args) (resto : List Json) (granted : Bool) : AgentManager :=
  let s := s.clearPending ref
  if (s.heap ref).stopFlag then s.iterate d k ref
  else if granted = false then
    (s.addLog ref ⟨"tool", "DENEGADO por el usuario", some name⟩).runCalls d k ref resto
  else s.execute k ref name args (some waiter) resto

def handleOutput (d : Dart) (s : AgentManager) (k : LoopId) (ref : Ref) (name : String)
    (resto : List Json) (out : String) : AgentManager :=
  (s.addLog ref ⟨"tool", out, some name⟩).runCalls d k ref resto

def byId (s : AgentManager) (id : String) : Option Ref :=
  s.agents.find? fun ref => (s.heap ref).id == id

/-- Completing a completer twice throws, and nothing after it happens. -/
def complete (s : AgentManager) (waiter : WaiterId) (granted : Bool) : Option AgentManager :=
  match s.completers waiter with
  | none => some { s with completers := Function.update s.completers waiter (some granted) }
  | some _ => none

structure Datos where
  id : String
  name : String
  mission : String
  providerId : String
  model : String
  permissions : List AgentPermission

def trim (s : String) : String := String.ofList (Entorno.trim s.toList)

def Datos.agent (x : Datos) : Agent where
  id := x.id
  name := if trim x.name = "" then "Agente" else trim x.name
  mission := trim x.mission
  providerId := x.providerId
  model := if trim x.model = "" then ((providerById x.providerId).map (·.defaultModel)).getD ""
    else trim x.model
  permissions := x.permissions

def create (s : AgentManager) (x : Datos) : AgentManager :=
  { s with
    heap := Function.update s.heap s.creados x.agent
    creados := s.creados + 1
    agents := s.agents ++ [s.creados] }

def remove (s : AgentManager) (id : String) : AgentManager :=
  { s with agents := s.agents.filter fun ref => (s.heap ref).id != id }

def raiseFlag (s : AgentManager) (ref : Ref) : AgentManager :=
  s.modify ref fun a => { a with stopFlag := true }

/-- `a._permissionWaiter?.complete(granted)` -/
def answer (s : AgentManager) (ref : Ref) (granted : Bool) : Option AgentManager :=
  match (s.heap ref).permissionWaiter with
  | none => some s
  | some waiter => s.complete waiter granted

def setStopped (s : AgentManager) (ref : Ref) : AgentManager :=
  s.modify ref fun a => { a with status := .stopped }

/-- The call of `stop` on an agent, as far as it gets, and whether it returned. -/
def stopAgent (s : AgentManager) (ref : Ref) : AgentManager × Bool :=
  match (s.raiseFlag ref).answer ref false with
  | none => (s.raiseFlag ref, false)
  | some s => (s.setStopped ref, true)

def stop (s : AgentManager) (id : String) : AgentManager :=
  match s.byId id with
  | none => s
  | some ref => (s.stopAgent ref).1

def setIdle (s : AgentManager) (ref : Ref) : AgentManager :=
  s.modify ref fun a => { a with stopFlag := false, status := .idle }

def revive (s : AgentManager) (id : String) : AgentManager :=
  match s.byId id with
  | none => s
  | some ref =>
    { s.setIdle ref with vault := (s.vault.reviveKeys (s.heap ref).providerId).1 }

def resolvePermission (s : AgentManager) (id : String) (granted : Bool) : AgentManager :=
  match s.byId id with
  | none => s
  | some ref =>
    match (s.heap ref).permissionWaiter with
    | none => s
    | some waiter =>
      match s.complete waiter granted with
      | none => s
      | some s' =>
        let name := (s.heap ref).pendingToolName
        let args := (s.heap ref).pendingToolArgs
        { s' with historia := .resuelto ref waiter granted name args :: s.historia }

def receive (s : AgentManager) (ref : Ref) (task : String) : AgentManager :=
  { s with lanzados := s.lanzados + 1 }.modify ref fun a =>
    { a with stopFlag := false, log := a.log ++ [AgentMsg.mk "user" task none], iterations := 0 }

def talk (d : Dart) (s : AgentManager) (id task : String) : AgentManager :=
  match s.byId id with
  | none => s
  | some ref =>
    if (s.heap ref).status = .running then s
    else ((s.receive ref task).iterate d s.lanzados ref)

def setHistMode (s : AgentManager) (ref : Ref) (modo : HistModo) : AgentManager :=
  s.modify ref fun a => { a with histModo := modo }

inductive Evento where
  | create (datos : Datos)
  | remove (id : String)
  | stop (id : String)
  | revive (id : String)
  | resolvePermission (id : String) (granted : Bool)
  | talk (id task : String)
  | setHistMode (ref : Ref) (modo : HistModo)
  /-- The summary request of an activation ends. -/
  | resumen (k : LoopId) (res : Respuesta)
  /-- The messages of an activation are ready and it sends them. -/
  | envio (k : LoopId)
  /-- The request of an activation ends. -/
  | respuesta (k : LoopId) (res : Respuesta)
  /-- An activation whose completer is completed goes on. -/
  | permiso (k : LoopId)
  /-- The tool of an activation ends. -/
  | herramienta (k : LoopId) (out : String)

/-- One call or one completion; a completion nothing waits for changes nothing. -/
def paso (d : Dart) (s : AgentManager) (e : Evento) : AgentManager :=
  match e with
  | .create datos => s.create datos
  | .remove id => s.remove id
  | .stop id => s.stop id
  | .revive id => s.revive id
  | .resolvePermission id granted => s.resolvePermission id granted
  | .talk id task => s.talk d id task
  | .setHistMode ref modo => s.setHistMode ref modo
  | .resumen k res =>
    match s.loops k with
    | some ⟨ref, .resumiendo key sistema enVuelo poda⟩ =>
      s.handleSummary k ref key sistema poda (if enVuelo then resumenDe d res else none)
    | _ => s
  | .envio k =>
    match s.loops k with
    | some ⟨ref, .mensajes key mensajes⟩ => s.send k ref key mensajes
    | _ => s
  | .respuesta k res =>
    match s.loops k with
    | some ⟨ref, .respuesta _⟩ => s.handleReply d k ref res
    | _ => s
  | .permiso k =>
    match s.loops k with
    | some ⟨ref, .permiso waiter name args resto⟩ =>
      match s.completers waiter with
      | none => s
      | some granted => s.handleAnswer d k ref waiter name args resto granted
    | _ => s
  | .herramienta k out =>
    match s.loops k with
    | some ⟨ref, .herramienta name resto⟩ => s.handleOutput d k ref name resto out
    | _ => s

/-- An agent as `fromJson` leaves it: only what is stored is taken over. -/
def cargado (a : Agent) : Agent where
  id := a.id
  name := a.name
  mission := a.mission
  providerId := a.providerId
  model := a.model
  permissions := a.permissions
  histModo := a.histModo
  histResumenCache := a.histResumenCache
  histCubiertoChars := a.histCubiertoChars
  log := a.log

def inicial (vault : KeyVault) (cargados : List Agent) : AgentManager where
  vault := vault
  heap := fun ref => cargado (cargados.getD ref ⟨"", "", "", "", "", [], .idle, "", "", none, 0,
    false, .ventana, "", 0, none, []⟩)
  creados := cargados.length
  agents := List.range cargados.length
  loops := fun _ => none
  lanzados := 0
  completers := fun _ => none
  waiters := 0
  historia := []

abbrev correr (d : Dart) : AgentManager → List Evento → AgentManager := Run.run (paso d)

def cuerpoDe (msg : Json) : Json := .obj [("choices", .arr [.obj [("message", msg)]])]

/-- A model that answers `leer` with a call of a tool and `fin` with a text. -/
def ejemplo : Dart where
  jsonDecode := fun s =>
    if s = "leer" then
      some (cuerpoDe (.obj [("tool_calls", .arr [.obj [("function",
        .obj [("name", .str "read_file"), ("arguments", .str "{}")])]])]))
    else if s = "fin" then some (cuerpoDe (.obj [("content", .str "listo")]))
    else if s = "{}" then some (.obj [])
    else none
  jsonEncode := fun _ => "{}"
  toText := fun j => match j with
    | .str s => s
    | _ => ""
  hashCode := fun _ => 0
  toText_str := fun _ => rfl

def unaClave : KeyVault := ⟨fun p => if p = "grok" then ["clave"] else [], fun _ => none, []⟩

def sinPermisos : Agent where
  id := "a"
  name := "A"
  mission := ""
  providerId := "grok"
  model := "m"
  permissions := []

end AgentManager
end Nerea.Agents
