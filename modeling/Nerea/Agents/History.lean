import Nerea.Shared.Dart
import Nerea.Shared.Utf16

/-!
# The history an agent sends

The log is cut from the back to a budget of characters; what is cut off is left out,
summarised by the model, or summarised only when it has grown enough. Whether a summary
must be asked for is decided at once; the messages are complete when it has arrived.
-/

set_option autoImplicit false

namespace Nerea.Agents

inductive HistModo where
  | ventana | resumen | hibrido
deriving DecidableEq

structure AgentMsg where
  role : String
  content : String
  toolName : Option String

def kHistMaxChars : ℕ := 24000

def chars (log : List AgentMsg) : ℕ := (log.map fun m => Utf16.length m.content).sum

def mapMsg (d : Dart) (m : AgentMsg) : Json :=
  if m.role = "tool" then
    .obj [("role", .str "tool"),
      ("tool_call_id", match m.toolName with
        | some name => .str name
        | none => .num (d.hashCode m.content)),
      ("content", .str m.content)]
  else .obj [("role", .str m.role), ("content", .str m.content)]

def systemMsg (content : String) : Json :=
  .obj [("role", .str "system"), ("content", .str content)]

/-- How many messages fit, newest first, after `acc` characters. -/
def fitting : List AgentMsg → ℕ → ℕ
  | [], _ => 0
  | m :: older, acc =>
    if acc + Utf16.length m.content ≤ kHistMaxChars then
      fitting older (acc + Utf16.length m.content) + 1
    else 0

/-- Índice de arranque de la ventana; nunca sobre un resultado 'tool'. -/
def inicioVentana (log : List AgentMsg) : ℕ :=
  let start := log.length - fitting log.reverse 0
  start + ((log.drop start).takeWhile (·.role == "tool")).length

/-- What the messages still need once a summary is being asked for. -/
structure Poda where
  evictados : List AgentMsg
  evictChars : ℕ
  ventana : List Json
  hibrido : Bool

inductive Preparacion where
  | lista (mensajes : List Json)
  | resumir (poda : Poda)

def Poda.mensajes (p : Poda) (resumen : Option String) : List Json :=
  match resumen with
  | none => systemMsg ("[se omitieron " ++ toString p.evictados.length ++
      " mensajes anteriores por límite de contexto]") :: p.ventana
  | some r => systemMsg ("Resumen de lo anterior: " ++ r) :: p.ventana

def nonempty (s : String) : Option String := if s = "" then none else some s

/-- `_mensajesParaEnviar` up to where it may wait for a summary. -/
def mensajesParaEnviar (d : Dart) (log : List AgentMsg) (histModo : HistModo)
    (histResumenCache : String) (histCubiertoChars : ℤ) : Preparacion :=
  let total := chars log
  if total ≤ kHistMaxChars then .lista (log.map (mapMsg d))
  else
    let start := inicioVentana log
    let evictados := log.take start
    let evictChars := total - chars (log.drop start)
    let ventana := (log.drop start).map (mapMsg d)
    if evictados.isEmpty then .lista ventana
    else
      match histModo with
      | .ventana => .lista (Poda.mensajes ⟨evictados, evictChars, ventana, false⟩ none)
      | .resumen => .resumir ⟨evictados, evictChars, ventana, false⟩
      | .hibrido =>
        let poda : Poda := ⟨evictados, evictChars, ventana, true⟩
        if histResumenCache = "" ∨ evictChars > (histCubiertoChars * 3).tdiv 2 then .resumir poda
        else .lista (poda.mensajes (some histResumenCache))

/-- How a request ends: it fails, or there is a status and a body, which may not decode. -/
inductive Respuesta where
  | fallo (e : String)
  | http (statusCode : ℕ) (body : Option String)

/-- `jsonDecode(res.body)['choices'][0]['message']` -/
def mensajeDe (d : Dart) (body : Option String) : Option Json := do
  let raiz ← d.jsonDecode (← body)
  let choices ← raiz.get "choices"
  let choice ← choices.first
  choice.get "message"

def resumenDe (d : Dart) (res : Respuesta) : Option String :=
  match res with
  | .fallo _ => none
  | .http statusCode body =>
    if statusCode ≠ 200 then none
    else
      match (mensajeDe d body).bind (·.get "content") with
      | none => none
      | some content => nonempty (d.toText (content.orElse (.str "")))

end Nerea.Agents
