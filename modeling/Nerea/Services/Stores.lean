import Nerea.Agents.Manager
import Nerea.Shared.Overwrite
import Nerea.Shared.Run
import Nerea.ToolSec.CryptoVault

/-!
# The stores that are saved to an encrypted file

A save encodes what the store holds, seals it and writes the file. It awaits the directory,
the cipher and each operation on the file, and nothing keeps the next save from starting
meanwhile. Two stores ask for the directory before they look at what they hold, two when
the envelope is ready. A save is known by the number of its snapshot.
-/

set_option autoImplicit false

namespace Nerea.Agents

def AgentPermission.name : AgentPermission → String
  | readFiles => "readFiles"
  | writeFiles => "writeFiles"
  | webAccess => "webAccess"
  | controlGui => "controlGui"
  | gpuRun => "gpuRun"

def HistModo.name : HistModo → String
  | ventana => "ventana"
  | resumen => "resumen"
  | hibrido => "hibrido"

def AgentMsg.toJson (m : AgentMsg) : Json :=
  .obj ([("role", .str m.role), ("content", .str m.content)] ++
    match m.toolName with
    | none => []
    | some tool => [("tool", .str tool)])

def Agent.toJson (a : Agent) : Json :=
  .obj [("id", .str a.id), ("name", .str a.name), ("mission", .str a.mission),
    ("provider", .str a.providerId), ("model", .str a.model),
    ("permissions", .arr (a.permissions.map fun p => .str p.name)),
    ("histModo", .str a.histModo.name), ("histResumen", .str a.histResumenCache),
    ("histCubierto", .num a.histCubiertoChars), ("log", .arr (a.log.map AgentMsg.toJson))]

end Nerea.Agents

namespace Nerea.Services

open ToolSec (Aead Azar Cadena)

/-- What the key vault saves, in the order in which it was added. -/
structure Claves where
  keys : List (String × List String)
  urls : List (String × String)

structure Settings where
  mediaShowUri : Bool := false
  natEnabled : Bool := false
  webDarkMode : Bool := true
  accounts : List (String × Json) := []
  tasks : List (List (String × Json)) := []
  pockets : List (List (String × Json)) := []
  pkarrKeys : List (List (String × Json)) := []
  nostrKeys : List (List (String × Json)) := []

def Settings.masterKey : Cadena := [0x31, 0x32, 0x33, 0x34]

/-- `lua_history` -/
def HistoryStore.key : Cadena :=
  [0x6C, 0x75, 0x61, 0x5F, 0x68, 0x69, 0x73, 0x74, 0x6F, 0x72, 0x79]

/-- How a store saves what it holds. -/
structure Guardado (M : Type) where
  toJson : M → Json
  passphrase : Cadena
  /-- Whether the directory is asked for before the snapshot. -/
  rutaPrimero : Bool

def AgentManager.persist : Guardado (List Agents.Agent) where
  toJson := fun agents => .obj [("agents", .arr (agents.map Agents.Agent.toJson))]
  passphrase := Settings.masterKey
  rutaPrimero := true

def KeyVault.save : Guardado Claves where
  toJson := fun v => .obj [
    ("keys", .obj (v.keys.map fun e => (e.1, .arr (e.2.map .str)))),
    ("urls", .obj (v.urls.map fun e => (e.1, .str e.2)))]
  passphrase := Settings.masterKey
  rutaPrimero := true

def Settings.save : Guardado Settings where
  toJson := fun s => .obj [("mediaShowUri", .bool s.mediaShowUri),
    ("natEnabled", .bool s.natEnabled), ("webDarkMode", .bool s.webDarkMode),
    ("accounts", .obj s.accounts), ("tasks", .arr (s.tasks.map .obj)),
    ("pockets", .arr (s.pockets.map .obj)), ("pkarrKeys", .arr (s.pkarrKeys.map .obj)),
    ("nostrKeys", .arr (s.nostrKeys.map .obj))]
  passphrase := Settings.masterKey
  rutaPrimero := false

def HistoryStore.persist : Guardado (List (List (String × String))) where
  toJson := fun entries =>
    .arr (entries.map fun e => .obj (e.map fun field => (field.1, .str field.2)))
  passphrase := HistoryStore.key
  rutaPrimero := false

inductive Tienda where
  | agentManager | keyVault | settings | historyStore

def Tienda.Memoria : Tienda → Type
  | agentManager => List Agents.Agent
  | keyVault => Claves
  | settings => Settings
  | historyStore => List (List (String × String))

def Tienda.guardado : (t : Tienda) → Guardado t.Memoria
  | agentManager => AgentManager.persist
  | keyVault => KeyVault.save
  | settings => Settings.save
  | historyStore => HistoryStore.persist

/-- What a save that has taken its snapshot awaits, with the bytes it goes on with; the
position is where its descriptor stands. -/
inductive Pc where
  | cifra (plain : List UInt8)
  | ruta (enc : List UInt8)
  | abre (enc : List UInt8)
  | escribe (enc : List UInt8) (off : ℕ)
  | fin

/-- `enRuta` saves have not taken their snapshot yet. What is only recorded: whether the
store has not changed since a save was last called, the snapshots, the saves that opened the
file and those that wrote to it since it was last opened (last first), and how many failed. -/
structure Estado (M : Type) where
  memoria : M
  disco : List UInt8
  enRuta : ℕ
  saves : ℕ → Pc
  fotos : List M
  alDia : Bool
  abiertas : List ℕ
  escritas : List ℕ
  fallidas : ℕ

inductive Evento (M : Type) where
  | cambia (f : M → M)
  | guarda
  /-- The directory is there, before the snapshot. -/
  | entra
  | cifrado (n : ℕ) (azar : Azar)
  /-- The directory is there, after the cipher. -/
  | ruta (n : ℕ)
  | abierto (n : ℕ)
  | escrito (n k : ℕ)
  | cerrado (n : ℕ)
  /-- An exception, before the snapshot and after it. -/
  | fallaRuta
  | falla (n : ℕ)

section Guardado

variable {M : Type} (A : Aead) (d : Dart) (g : Guardado M)

/-- `utf8.encode(jsonEncode(…))` -/
def Guardado.plain (m : M) : List UInt8 :=
  (d.jsonEncode (g.toJson m)).toList.flatMap String.utf8EncodeChar

/-- An envelope of what the store held. -/
def Guardado.sobre (azar : Azar) (m : M) : List UInt8 :=
  ToolSec.CryptoVault.encrypt A azar (g.plain d m) g.passphrase

namespace Estado

def pasa (s : Estado M) (n : ℕ) (pc : Pc) : Estado M :=
  { s with saves := Function.update s.saves n pc }

/-- The snapshot, and the cipher is started. -/
def toma (s : Estado M) : Estado M :=
  { s with fotos := s.fotos ++ [s.memoria] }.pasa s.fotos.length (.cifra (g.plain d s.memoria))

def paso (s : Estado M) : Evento M → Estado M
  | .cambia f => { s with memoria := f s.memoria, alDia := false }
  | .guarda =>
    if g.rutaPrimero then { s with enRuta := s.enRuta + 1, alDia := true }
    else { s with alDia := true }.toma d g
  | .entra => if s.enRuta = 0 then s else { s with enRuta := s.enRuta - 1 }.toma d g
  | .cifrado n azar =>
    match s.saves n with
    | .cifra plain =>
      let enc := ToolSec.CryptoVault.encrypt A azar plain g.passphrase
      if g.rutaPrimero then s.pasa n (.abre enc) else s.pasa n (.ruta enc)
    | _ => s
  | .ruta n =>
    match s.saves n with
    | .ruta enc => s.pasa n (.abre enc)
    | _ => s
  | .abierto n =>
    -- opening for writing empties the file
    match s.saves n with
    | .abre enc =>
      { s with disco := [], abiertas := n :: s.abiertas, escritas := [] }.pasa n (.escribe enc 0)
    | _ => s
  | .escrito n k =>
    match s.saves n with
    | .escribe enc off =>
      let piece := (enc.drop off).take k
      { s with
        disco := Overwrite.overwrite 0 s.disco off piece
        escritas := if piece.isEmpty then s.escritas else n :: s.escritas
      }.pasa n (.escribe enc (off + k))
    | _ => s
  | .cerrado n =>
    match s.saves n with
    | .escribe enc off => if enc.length ≤ off then s.pasa n .fin else s
    | _ => s
  | .fallaRuta =>
    if s.enRuta = 0 then s else { s with enRuta := s.enRuta - 1, fallidas := s.fallidas + 1 }
  | .falla n =>
    match s.saves n with
    | .fin => s
    | _ => { s with fallidas := s.fallidas + 1 }.pasa n .fin

/-- Whatever the file holds at the start. -/
def inicio (m : M) (disco : List UInt8) : Estado M where
  memoria := m
  disco := disco
  enRuta := 0
  saves := fun _ => .fin
  fotos := []
  alDia := false
  abiertas := []
  escritas := []
  fallidas := 0

/-- All saves have completed, and none by an exception. -/
structure Completas (s : Estado M) : Prop where
  enRuta : s.enRuta = 0
  saves : ∀ n, s.saves n = .fin
  fallidas : s.fallidas = 0

end Estado
end Guardado
end Nerea.Services
