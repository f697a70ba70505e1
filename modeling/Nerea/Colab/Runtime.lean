import Nerea.Colab.Frames
import Nerea.Shared.Run

/-!
# The Colab runtime

Each call of `start`, `execute` or `close` is a thread that stands where it awaits
something: an answer over HTTP, the readiness or the closing of a socket, or the end of a
cell. An event is a call or a completion and continues one thread up to its next wait, so
that any order of them is a run; a message goes to all listeners before the next event.
-/

set_option autoImplicit false

namespace Nerea.Colab

abbrev HiloId := ℕ
abbrev IntentoId := ℕ
abbrev SocketId := ℕ

/-- What lies outside: the language, the random identifiers, and what adding to a sink that
is closed throws, if it throws. -/
structure Plataforma extends Dart where
  uuid : ℕ → String
  alAgregarCerrado : Option String

/-- What the listener of the socket adds to `_msgs`. -/
inductive Msg where
  | closed
  | error (text : String)
  | frame (m : Message)

inductive Entrada where
  | frame (m : Message)
  | interrupcion
  | vencimiento
  | cierre
  | errorWs (text : String)

/-- A call of `onTick`, and whether the request was already completed. -/
structure Aviso where
  mensaje : Message
  parcial : String
  tarde : Bool

/-- One call of `_executeWithRetry` whose request was sent. `recibidos`, `avisos` and
`entradas` only record. -/
structure Intento where
  hilo : HiloId
  code : String
  msgId : String
  result : ColabExecResult
  completed : Bool
  vencido : Bool
  subscribed : Bool
  devuelto : Bool
  recibidos : List Message
  avisos : List Aviso
  entradas : List Entrada

namespace Intento

def nuevo (hilo : HiloId) (code msgId : String) : Intento :=
  ⟨hilo, code, msgId, {}, false, false, true, false, [], [], []⟩

def onMessage (d : Dart) (x : Intento) (m : Message) : Intento :=
  { x with
    result := { x.result with toSalida := x.result.toSalida.add d m, gotFrames := true }
    completed := x.completed || m.ends
    subscribed := !m.ends
    recibidos := x.recibidos ++ [m]
    avisos := if m.ticks then
      x.avisos ++ [⟨m, (x.result.toSalida.add d m).output, x.completed⟩] else x.avisos }

def wsError (text : String) : String := "WS error: " ++ text

def listen (d : Dart) (x : Intento) : Msg → Intento
  | .closed =>
    { x with
      result := { x.result with connLost := true }
      completed := true
      subscribed := false
      entradas := x.entradas ++ [.cierre] }
  | .error text =>
    { x with
      result := { x.result with
        toSalida := x.result.toSalida.fail .error (wsError text), connLost := true }
      completed := true
      subscribed := false
      entradas := x.entradas ++ [.errorWs text] }
  | .frame m => x.onMessage d m

def log (x : Intento) (e : Entrada) : Intento := { x with entradas := x.entradas ++ [e] }

/-- A message reaches the requests that listen; a frame is on record for all. -/
def receive (d : Dart) (x : Intento) (msg : Msg) : Intento :=
  let x' := if x.subscribed then x.listen d msg else x
  match msg with
  | .frame m => x'.log (.frame m)
  | _ => x'

def interrumpida : String := "(celda interrumpida por el usuario)"

def interrupt (x : Intento) : Intento :=
  { x with
    result := if x.result.isError then x.result else
      { x.result with toSalida := x.result.toSalida.fail .error interrumpida }
    completed := true
    entradas := x.entradas ++ [.interrupcion] }

def vencida : String := "Timeout: la celda siguió ejecutando"

def expire (x : Intento) : Intento :=
  { x with
    result := { x.result with toSalida := x.result.toSalida.fail .timeout vencida }
    vencido := true
    subscribed := false
    entradas := x.entradas ++ [.vencimiento] }

def giveBack (x : Intento) : Intento := { x with devuelto := true }

def listo (x : Intento) : Bool := x.completed || x.vencido

end Intento

/-- Retried are only the cells that died without a trace. -/
def ColabExecResult.dead (r : ColabExecResult) : Bool :=
  r.output == "" && !r.isError && (r.connLost || !r.gotFrames)

/-- Ends with its stream, or when its handshake fails. `sinkClosed` is the side of the
runtime. -/
inductive SocketState where
  | conectando | abierto | fallido | terminado
deriving DecidableEq

structure Socket where
  gen : ℕ
  kernelId : String
  state : SocketState
  sinkClosed : Bool
deriving DecidableEq

inductive Llamada where
  | start
  | execute (code : String)
  | close

/-- Where a thread awaits something. -/
inductive Pc where
  /-- `start`: the kernel is being created. -/
  | creando (gen : ℕ)
  /-- `start`: the socket is connecting. -/
  | abriendo (gen : ℕ) (socket : SocketId)
  /-- `start` was overtaken and closes a socket. -/
  | cerrandoViejo
  /-- `execute`: the cell runs. -/
  | esperando (intento : IntentoId)
  /-- `_killChannel` closes the socket. -/
  | matando
  /-- `close`: the kernel is being deleted. -/
  | borrando
  /-- `close` closes the socket. -/
  | cerrando
  | fin
deriving DecidableEq

def Pc.enCiclo : Pc → Bool
  | .esperando _ => false
  | .fin => false
  | _ => true

/-- A call, how often `execute` tried again, and the requests it sent. -/
structure Hilo where
  llamada : Llamada
  pc : Pc
  attempt : ℕ
  enviados : List IntentoId

/-- The connection. `creados`, `cierresViejos` and `cerrado` only record: the kernels created
since the last `close` returned, the generation of each overtaken start with the one of the
socket it closed, and whether nothing was called since a `close` returned. -/
structure Conexion where
  channel : Option SocketId := none
  kernelId : Option String := none
  started : Bool := false
  gen : ℕ := 0
  sockets : List Socket := []
  creados : ℕ := 0
  cierresViejos : List (ℕ × ℕ) := []
  cerrado : Bool := false

structure ColabRuntime extends Conexion where
  activo : Option IntentoId := none
  intentos : List Intento := []
  hilos : List Hilo := []

structure Respuesta where
  statusCode : ℕ
  body : String

inductive Creacion where
  | creado (id : String)
  /-- The id is stored although it is empty. -/
  | vacio
  | nulo
  | fallo

def leerKernelId (d : Dart) : Option Respuesta → Creacion
  | none => .fallo
  | some resp =>
    if resp.statusCode ≠ 200 ∧ resp.statusCode ≠ 201 then .fallo
    else
      match (d.jsonDecode resp.body).bind (·.get "id") with
      | some (.str id) => if id = "" then .vacio else .creado id
      | some .null => .nulo
      | _ => .fallo

namespace ColabRuntime

def pcOf (s : ColabRuntime) (h : HiloId) : Option Pc := (s.hilos[h]?).map Hilo.pc

def setPc (s : ColabRuntime) (h : HiloId) (pc : Pc) : ColabRuntime :=
  { s with hilos := s.hilos.modify h fun x => { x with pc := pc } }

def modifySocket (s : ColabRuntime) (k : SocketId) (f : Socket → Socket) : ColabRuntime :=
  { s with sockets := s.sockets.modify k f }

def modifyIntento (s : ColabRuntime) (i : IntentoId) (f : Intento → Intento) : ColabRuntime :=
  { s with intentos := s.intentos.modify i f }

def emit (d : Dart) (s : ColabRuntime) (msg : Msg) : ColabRuntime :=
  { s with intentos := s.intentos.map fun x => x.receive d msg }

def closeSink (s : ColabRuntime) : ColabRuntime :=
  { s with
    sockets := match s.channel with
      | none => s.sockets
      | some k => s.sockets.modify k fun x => { x with sinkClosed := true } }

/-- The exception of `_channel!.sink.add`, if there is one. -/
def sinkError (p : Plataforma) (s : ColabRuntime) : Option String :=
  match s.channel with
  | none => some "Null check operator used on a null value"
  | some k =>
    match s.sockets[k]? with
    | none => none
    | some x =>
      if x.sinkClosed ∨ x.state = .fallido ∨ x.state = .terminado then p.alAgregarCerrado
      else none

/-- `_killChannel` up to its wait. -/
def killChannel (s : ColabRuntime) (h : HiloId) : ColabRuntime :=
  { s with started := false, gen := s.gen + 1 }.closeSink.setPc h .matando

def giveBack (s : ColabRuntime) (h : HiloId) (r : ColabExecResult) : ColabRuntime :=
  if r.dead then s.killChannel h else s.setPc h .fin

/-- The result that stands for an exception of `_executeWithRetry`. -/
def lostResult (text : String) : ColabExecResult :=
  { toSalida := ({} : Salida).fail .error (Intento.wsError text), connLost := true }

def sent (p : Plataforma) (s : ColabRuntime) (h : HiloId) (code : String) : ColabRuntime :=
  { s with
    activo := some s.intentos.length
    intentos := s.intentos ++ [Intento.nuevo h code (p.uuid s.intentos.length)]
    hilos := s.hilos.modify h fun x =>
      { x with
        pc := .esperando s.intentos.length
        enviados := x.enviados ++ [s.intentos.length] } }

/-- `_executeWithRetry` up to the wait for its cell. After an exception the active result is
one that nobody can reach. -/
def send (p : Plataforma) (s : ColabRuntime) (h : HiloId) (code : String) : ColabRuntime :=
  match s.sinkError p with
  | some text => { s with activo := none }.giveBack h (lostResult text)
  | none => s.sent p h code

def resume (p : Plataforma) (s : ColabRuntime) (h : HiloId) : ColabRuntime :=
  match (s.hilos[h]?).map Hilo.llamada with
  | some (.execute code) => s.send p h code
  | _ => s.setPc h .fin

/-- `start` from the connection to the wait for it. -/
def connect (s : ColabRuntime) (h : HiloId) (gen : ℕ) (id : String) : ColabRuntime :=
  { s with
    sockets := s.sockets ++ [Socket.mk gen id .conectando false]
    channel := some s.sockets.length }.setPc h (.abriendo gen s.sockets.length)

def start (p : Plataforma) (s : ColabRuntime) (h : HiloId) : ColabRuntime :=
  if s.started then s.resume p h
  else
    let s := { s with gen := s.gen + 1 }
    match s.kernelId with
    | none => s.setPc h (.creando s.gen)
    | some id => s.connect h s.gen id

/-- The head of the loop of `execute`. -/
def attempt (p : Plataforma) (s : ColabRuntime) (h : HiloId) (code : String) : ColabRuntime :=
  if s.started = false ∨ s.channel = none then s.start p h else s.send p h code

def spawn (s : ColabRuntime) (llamada : Llamada) : ColabRuntime :=
  { s with hilos := s.hilos ++ [Hilo.mk llamada .fin 0 []], cerrado := false }

/-- `start` when the request for a kernel ends. -/
def kernelCreated (p : Plataforma) (s : ColabRuntime) (h : HiloId) (gen : ℕ)
    (resp : Option Respuesta) : ColabRuntime :=
  match leerKernelId p.toDart resp with
  | .creado id => { s with kernelId := some id }.connect h gen id
  | .vacio => { s with kernelId := some "" }.setPc h .fin
  | .nulo => { s with kernelId := none }.setPc h .fin
  | .fallo => s.setPc h .fin

def channelGen (s : ColabRuntime) : Option ℕ :=
  (s.channel.bind fun k => s.sockets[k]?).map Socket.gen

def recordOvertaken (s : ColabRuntime) (gen : ℕ) : ColabRuntime :=
  { s with cierresViejos := s.cierresViejos ++ s.channelGen.toList.map fun g => (gen, g) }

/-- `start` when its socket is ready. -/
def socketReady (p : Plataforma) (s : ColabRuntime) (h : HiloId) (gen : ℕ) (k : SocketId) :
    ColabRuntime :=
  let s := s.modifySocket k fun x => { x with state := .abierto }
  if gen ≠ s.gen then (s.recordOvertaken gen).closeSink.setPc h .cerrandoViejo
  else { s with started := true }.resume p h

/-- `onError` and `onDone` of a socket of the current generation. -/
def lose (d : Dart) (s : ColabRuntime) (gen : ℕ) (msg : Msg) : ColabRuntime :=
  if gen ≠ s.gen then s
  else { s with started := false, channel := none }.emit d msg

def interruptCurrent (s : ColabRuntime) : ColabRuntime :=
  match s.activo with
  | none => s
  | some i => s.modifyIntento i Intento.interrupt

/-- `close` after the request to delete the kernel. -/
def closeSocket (s : ColabRuntime) (h : HiloId) : ColabRuntime :=
  s.closeSink.setPc h .cerrando

def close (s : ColabRuntime) (h : HiloId) : ColabRuntime :=
  let s := { s with gen := s.gen + 1 }
  if s.kernelId ≠ none ∧ s.started = true then s.setPc h .borrando else s.closeSocket h

/-- `_killChannel` returned, and the loop of `execute` counts on. -/
def killed (s : ColabRuntime) (h : HiloId) : ColabRuntime :=
  { s with
    channel := none
    hilos := s.hilos.modify h fun x => { x with attempt := x.attempt + 1 } }

def closed (s : ColabRuntime) : ColabRuntime :=
  { s with
    channel := none
    kernelId := none
    started := false
    creados := 0
    cerrado := true }

/-- The closing of a sink ended, which `_killChannel`, `close` or an overtaken start awaits. -/
def sinkDone (p : Plataforma) (s : ColabRuntime) (h : HiloId) (x : Hilo) : ColabRuntime :=
  match x.pc with
  | .cerrandoViejo => s.resume p h
  | .matando =>
    match x.llamada with
    | .execute code =>
      if x.attempt + 1 < 3 then (s.killed h).attempt p h code else (s.killed h).setPc h .fin
    | _ => (s.killed h).setPc h .fin
  | .cerrando => s.closed.setPc h .fin
  | _ => s

inductive Evento where
  | start
  | execute (code : String)
  | close
  | interruptCurrent
  /-- The request for a kernel ends, and whether the server created one. -/
  | kernelCreado (h : HiloId) (resp : Option Respuesta) (creado : Bool)
  | borrado (h : HiloId)
  | socketListo (h : HiloId)
  | socketFalla (h : HiloId)
  | sinkCerrado (h : HiloId)
  | frame (k : SocketId) (raw : Frame)
  | socketError (k : SocketId) (text : String)
  | socketDone (k : SocketId)
  | timeout (h : HiloId)
  | retorno (h : HiloId)

/-- One call or one completion; a completion nothing waits for changes nothing. -/
def paso (p : Plataforma) (s : ColabRuntime) : Evento → ColabRuntime
  | .start => (s.spawn .start).start p s.hilos.length
  | .execute code => (s.spawn (.execute code)).attempt p s.hilos.length code
  | .close => (s.spawn .close).close s.hilos.length
  | .interruptCurrent => s.interruptCurrent
  | .kernelCreado h resp creado =>
    match s.pcOf h with
    | some (.creando gen) =>
      { s with creados := s.creados + creado.toNat }.kernelCreated p h gen resp
    | _ => s
  | .borrado h =>
    match s.pcOf h with
    | some .borrando => s.closeSocket h
    | _ => s
  | .socketListo h =>
    match s.pcOf h with
    | some (.abriendo gen k) => s.socketReady p h gen k
    | _ => s
  | .socketFalla h =>
    match s.pcOf h with
    | some (.abriendo _ k) => (s.modifySocket k fun x => { x with state := .fallido }).setPc h .fin
    | _ => s
  | .sinkCerrado h =>
    match s.hilos[h]? with
    | some x => s.sinkDone p h x
    | none => s
  | .frame k raw =>
    match s.sockets[k]?, decodeFrame p.toDart raw with
    | some x, some m => if x.state = .abierto then s.emit p.toDart (.frame m) else s
    | _, _ => s
  | .socketError k text =>
    match s.sockets[k]? with
    | some x =>
      if x.state = .abierto ∨ x.state = .fallido then s.lose p.toDart x.gen (.error text) else s
    | none => s
  | .socketDone k =>
    match s.sockets[k]? with
    | some x =>
      if x.state = .abierto ∨ x.state = .fallido then
        (s.modifySocket k fun x => { x with state := .terminado }).lose p.toDart x.gen .closed
      else s
    | none => s
  | .timeout h =>
    match s.pcOf h with
    | some (.esperando i) =>
      match s.intentos[i]? with
      | some x => if x.listo then s else s.modifyIntento i Intento.expire
      | none => s
    | _ => s
  | .retorno h =>
    match s.pcOf h with
    | some (.esperando i) =>
      match s.intentos[i]? with
      | some x =>
        if x.listo then
          { s.modifyIntento i Intento.giveBack with activo := none }.giveBack h x.result
        else s
      | none => s
    | _ => s

abbrev correr (p : Plataforma) : ColabRuntime → List Evento → ColabRuntime := Run.run (paso p)

def respuestaDe (msgType : String) (content : Campos) (msgId : String) : Json :=
  .arr [.obj [("msg_type", .str msgType)], .obj [("msg_id", .str msgId)], .obj [], .obj content]

/-- A platform whose first request is "a" and whose others are "b". -/
def ejemplo : Plataforma where
  jsonDecode := fun s =>
    if s = "kernel" then some (.obj [("id", .str "k")])
    else if s = "salida de a" then
      some (respuestaDe "stream" [("text", .str "hola")] "a")
    else if s = "busy de a" then
      some (respuestaDe "status" [("execution_state", .str "busy")] "a")
    else if s = "idle de a" then
      some (respuestaDe "status" [("execution_state", .str "idle")] "a")
    else none
  jsonEncode := fun _ => ""
  toText := fun j => match j with
    | .str s => s
    | _ => "null"
  hashCode := fun _ => 0
  toText_str := fun _ => rfl
  uuid := fun i => if i = 0 then "a" else "b"
  alAgregarCerrado := none

def conectado : List Evento :=
  [.execute "x = 1", .kernelCreado 0 (some ⟨201, "kernel"⟩) true, .socketListo 0]

end ColabRuntime
end Nerea.Colab
