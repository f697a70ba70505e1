import Nerea.Shared.Whitespace
import Nerea.Shared.Run
import Mathlib.Data.List.Basic
import Mathlib.Logic.Function.Basic

/-!
# The DHT engine: start, stop and the loops they govern

`start` opens a channel for the captured hashes, builds the node, spawns the spider thread and
hands the receiver to a `meta_loop` task; `stop` raises a flag that both loops read once an
iteration, and drops the handle of the thread without joining it. A step is a call or a step
of one of the loops, which keep running after the call that started them.
-/

set_option autoImplicit false

namespace Nerea.Dht

/-- A Rust string: Unicode scalar values. -/
abbrev Texto := List Char

inductive Clase where
  | spider | metaLoop
deriving DecidableEq

/-- Where a loop stands: before it (the spider waits for the bootstrap, `meta_loop` opens its
session), at the flag, inside an iteration, or ended. -/
inductive Punto where
  | arranque | sondeo | vuelta | fin
deriving DecidableEq

/-- A loop and the channel it sends to or receives from. `detenida` notes that it was running
when a `stop` returned. -/
structure Tarea where
  punto : Punto
  canal : ℕ
  activo : Bool
  detenida : Bool

/-- Channels are numbered as they are opened, and the loops of one class as they are started.
`reanudadas` notes the iterations that loops began after a `stop` had returned. -/
structure DhtBusca where
  stopFlag : Bool
  hiloSpider : Option ℕ
  canal : Option ℕ
  dht : Option ℕ
  colas : ℕ → List Texto
  canales : ℕ
  tareas : Clase → ℕ → Option Tarea
  lanzadas : ℕ
  reanudadas : List (Clase × ℕ)

namespace DhtBusca

variable (s : DhtBusca)

def new : DhtBusca where
  stopFlag := false
  hiloSpider := none
  canal := none
  dht := none
  colas := fun _ => []
  canales := 0
  tareas := fun _ _ => none
  lanzadas := 0
  reanudadas := []

def pon (c : Clase) (k : ℕ) (t : Tarea) : DhtBusca :=
  { s with tareas := Function.update s.tareas c (Function.update (s.tareas c) k (some t)) }

/-- The two builders: on port 6881, and if that fails on an ephemeral port. No result is a panic:
a node that cannot bind may end its thread before `Dht::new` has asked it. -/
def construir (fijo efimero : Option (Except String Unit)) : Option (Except String Unit) :=
  match fijo with
  | none => none
  | some (.ok ()) => some (.ok ())
  | some (.error _) => efimero

def abrir : DhtBusca :=
  { s with
    stopFlag := false
    canal := some s.canales
    canales := s.canales + 1 }

/-- The spider thread and the `meta_loop` task of a channel. -/
def lanzar (canal : ℕ) (activo : Bool) : DhtBusca :=
  { (s.pon .spider s.lanzadas ⟨.arranque, canal, activo, false⟩).pon .metaLoop s.lanzadas
      ⟨.arranque, canal, activo, false⟩ with
    hiloSpider := some s.lanzadas
    lanzadas := s.lanzadas + 1 }

/-- No answer is a panic, which leaves the channel open. -/
def start (pasivo activo : Bool) (fijo efimero : Option (Except String Unit))
    (hilo : Except String Unit) : DhtBusca × Option (Except String Unit) :=
  if s.hiloSpider ≠ none then (s, some (.error "el spider ya está corriendo"))
  else if pasivo = false ∧ activo = false then
    (s, some (.error "activá pasivo o activo (o ambos)"))
  else
    match construir fijo efimero with
    | none => (s.abrir, none)
    | some (.error e) => (s.abrir, some (.error ("DHT no arrancó: " ++ e)))
    | some (.ok ()) =>
      match hilo with
      | .error e => ({ s.abrir with dht := some s.canales }, some (.error e))
      | .ok () => ({ s.abrir with dht := some s.canales }.lanzar s.canales activo, some (.ok ()))

/-- `guardar`: the index is written beside its file and renamed to it. -/
def guardar (escribe renombra : Except String Unit) : Except String Unit :=
  match escribe, renombra with
  | .error e, _ => .error ("escribiendo dhtbusca.json.tmp: " ++ e)
  | .ok (), .error e => .error ("renombrando dhtbusca.json: " ++ e)
  | .ok (), .ok () => .ok ()

def senalar : DhtBusca := { s with stopFlag := true, canal := none }

/-- The loops that are running are noted when `stop` returns. -/
def marcar : DhtBusca :=
  { s with tareas := fun c k => (s.tareas c k).map fun t => { t with detenida := true } }

def stop (escribe renombra : Except String Unit) : DhtBusca × Except String Unit :=
  if s.hiloSpider = none then (s, .error "no está corriendo")
  else
    match guardar escribe renombra with
    | .error e => (s.senalar.marcar, .error e)
    | .ok () => ({ s.senalar with hiloSpider := none }.marcar, .ok ())

/-- What follows the first occurrence of a text. -/
def trasPrimera (sep : List Char) : List Char → Option (List Char)
  | [] => if sep = [] then some [] else none
  | c :: cs =>
    if sep.isPrefixOf (c :: cs) then some ((c :: cs).drop sep.length) else trasPrimera sep cs

def hastaPrimera (sep : List Char) : List Char → List Char
  | [] => []
  | c :: cs => if sep.isPrefixOf (c :: cs) then [] else c :: hastaPrimera sep cs

/-- The first `n` bytes of a text, unless they end inside a character. -/
def bytes : ℕ → List Char → Option (List Char)
  | _, [] => some []
  | 0, _ :: _ => some []
  | n + 1, c :: cs =>
    if c.utf8Size ≤ n + 1 then (bytes (n + 1 - c.utf8Size) cs).map (c :: ·) else none

def bytesLen (l : List Char) : ℕ := l.foldr (fun c n => c.utf8Size + n) 0

def isAsciiHexdigit (c : Char) : Bool :=
  ('0' ≤ c && c ≤ '9') || ('a' ≤ c && c ≤ 'f') || ('A' ≤ c && c ≤ 'F')

def magnet : List Char := ['m', 'a', 'g', 'n', 'e', 't', ':']

def btih : List Char := ['x', 't', '=', 'u', 'r', 'n', ':', 'b', 't', 'i', 'h', ':']

/-- The hash in the text, an error, or a panic when the 40 bytes end inside a character. -/
def hashDe (texto : Texto) : Option (Except String Texto) :=
  let t := Whitespace.trimBoth Whitespace.isWhiteSpace texto
  if magnet.isPrefixOf t then
    match trasPrimera btih t with
    | none => some (.error "magnet sin xt=urn:btih:")
    | some resto => (bytes 40 (hastaPrimera btih resto)).map .ok
  else some (.ok t)

def envia (canal : ℕ) (hash : Texto) : DhtBusca :=
  { s with colas := Function.update s.colas canal (s.colas canal ++ [hash]) }

def probar (texto : Texto) : Option (DhtBusca × Except String Unit) :=
  match hashDe texto with
  | none => none
  | some (.error e) => some (s, .error e)
  | some (.ok hash) =>
    if bytesLen hash ≠ 40 ∨ hash.all isAsciiHexdigit = false then
      some (s, .error ("esperaba un info_hash hex de 40 o magnet; got '" ++
        String.ofList hash ++ "'"))
    else
      match s.canal with
      | none => some (s, .error "el spider no está corriendo")
      | some canal => some (s.envia canal (hash.map Char.toLower), .ok ())

/-- The filter of the node sends every hash that crosses it. -/
def captura (hash : Texto) : DhtBusca :=
  match s.dht with
  | none => s
  | some canal => s.envia canal hash

/-- A loop finds the flag clear. -/
def entrar (c : Clase) (k : ℕ) (t : Tarea) : DhtBusca :=
  { s.pon c k { t with punto := .vuelta } with
    reanudadas := if t.detenida then (c, k) :: s.reanudadas else s.reanudadas }

def sondear (c : Clase) (k : ℕ) (t : Tarea) : DhtBusca :=
  if s.stopFlag then s.pon c k { t with punto := .fin } else s.entrar c k t

/-- One step of the spider: the hash is the random one it found peers for, if any. -/
def spider (k : ℕ) (hallado : Option Texto) : DhtBusca :=
  match s.tareas .spider k with
  | none => s
  | some t =>
    match t.punto with
    | .arranque => s.pon .spider k { t with punto := .sondeo }
    | .sondeo => s.sondear .spider k t
    | .vuelta =>
      match t.activo, hallado with
      | true, some hash => (s.envia t.canal hash).pon .spider k { t with punto := .sondeo }
      | _, _ => s.pon .spider k { t with punto := .sondeo }
    | .fin => s

def vive (o : Option Tarea) : Bool :=
  match o with
  | none => false
  | some t => t.punto != .fin

/-- Somebody keeps a sender of the channel: the engine, the node's filter or a spider. -/
def conectado (canal : ℕ) : Bool :=
  s.canal == some canal || s.dht == some canal ||
    (List.range s.lanzadas).any fun k =>
      vive (s.tareas .spider k) && ((s.tareas .spider k).map Tarea.canal == some canal)

/-- One step of `meta_loop`: `sesion` tells whether its session opens, and `caido` whether a
node nobody holds has already let its filter go. The rest of an iteration is the subject of
another module. -/
def metaLoop (k : ℕ) (sesion caido : Bool) : DhtBusca :=
  match s.tareas .metaLoop k with
  | none => s
  | some t =>
    match t.punto with
    | .arranque => s.pon .metaLoop k { t with punto := if sesion then .sondeo else .fin }
    | .sondeo => s.sondear .metaLoop k t
    | .vuelta =>
      { s with colas := Function.update s.colas t.canal [] }.pon .metaLoop k
        { t with punto := if !s.conectado t.canal && caido then .fin else .sondeo }
    | .fin => s

inductive Evento where
  | start (pasivo activo : Bool) (fijo efimero : Option (Except String Unit))
      (hilo : Except String Unit)
  | stop (escribe renombra : Except String Unit)
  | probar (texto : Texto)
  | captura (hash : Texto)
  | spider (k : ℕ) (hallado : Option Texto)
  | metaLoop (k : ℕ) (sesion caido : Bool)

def paso : Evento → DhtBusca
  | .start pasivo activo fijo efimero hilo => (s.start pasivo activo fijo efimero hilo).1
  | .stop escribe renombra => (s.stop escribe renombra).1
  | .probar texto => ((s.probar texto).map Prod.fst).getD s
  | .captura hash => s.captura hash
  | .spider k hallado => s.spider k hallado
  | .metaLoop k sesion caido => s.metaLoop k sesion caido

variable {s}

theorem not_sinModo {pasivo activo : Bool} (hmodo : pasivo = true ∨ activo = true) :
    ¬ (pasivo = false ∧ activo = false) := by
  intro h
  rcases h with ⟨rfl, rfl⟩
  cases hmodo <;> contradiction

/-- What a call of `start` can do. -/
inductive Arranque (s : DhtBusca) (pasivo activo : Bool)
    (fijo efimero : Option (Except String Unit)) (hilo : Except String Unit) :
    DhtBusca × Option (Except String Unit) → Prop
  | rechazado (msg : String)
      (hguarda : s.hiloSpider ≠ none ∨ (pasivo = false ∧ activo = false)) :
      Arranque s pasivo activo fijo efimero hilo (s, some (.error msg))
  | panico (hnone : s.hiloSpider = none) (hmodo : pasivo = true ∨ activo = true)
      (hconstruir : construir fijo efimero = none) :
      Arranque s pasivo activo fijo efimero hilo (s.abrir, none)
  | fallido (dht : Option ℕ) (msg : String) (hnone : s.hiloSpider = none)
      (hmodo : pasivo = true ∨ activo = true) (hvuelve : construir fijo efimero ≠ none)
      (hfalla : construir fijo efimero ≠ some (.ok ()) ∨ hilo ≠ .ok ()) :
      Arranque s pasivo activo fijo efimero hilo
        ({ s.abrir with dht := dht }, some (.error msg))
  | lanzado (hnone : s.hiloSpider = none) (hmodo : pasivo = true ∨ activo = true)
      (hconstruir : construir fijo efimero = some (.ok ())) (hhilo : hilo = .ok ()) :
      Arranque s pasivo activo fijo efimero hilo
        ({ s.abrir with dht := some s.canales }.lanzar s.canales activo, some (.ok ()))

theorem start_arranque (s : DhtBusca) (pasivo activo : Bool)
    (fijo efimero : Option (Except String Unit)) (hilo : Except String Unit) :
    Arranque s pasivo activo fijo efimero hilo (s.start pasivo activo fijo efimero hilo) := by
  unfold start
  split
  · exact .rechazado _ (Or.inl ‹_›)
  · rename_i hnone
    have hnone := not_not.mp hnone
    split
    · exact .rechazado _ (Or.inr ‹_›)
    · rename_i hmodo
      have hmodo : pasivo = true ∨ activo = true := by
        cases pasivo with
        | true => exact Or.inl rfl
        | false => exact Or.inr (Bool.of_not_eq_false fun hactivo => hmodo ⟨rfl, hactivo⟩)
      split
      · exact .panico hnone hmodo ‹_›
      · rename_i hconstruir
        have hvuelve : construir fijo efimero ≠ none := by
          rw [hconstruir]
          exact Option.some_ne_none _
        have hfalla : construir fijo efimero ≠ some (.ok ()) := by
          rw [hconstruir]
          nofun
        exact .fallido s.dht _ hnone hmodo hvuelve (Or.inl hfalla)
      · rename_i hconstruir
        have hvuelve : construir fijo efimero ≠ none := by
          rw [hconstruir]
          exact Option.some_ne_none _
        split
        · exact .fallido (some s.canales) _ hnone hmodo hvuelve (Or.inr nofun)
        · exact .lanzado hnone hmodo hconstruir rfl

/-- What a call of `stop` can do. -/
inductive Parada (s : DhtBusca) (escribe renombra : Except String Unit) :
    DhtBusca × Except String Unit → Prop
  | rechazada (msg : String) (hnone : s.hiloSpider = none) :
      Parada s escribe renombra (s, .error msg)
  | aMedias (msg : String) (hsome : s.hiloSpider ≠ none)
      (hfalla : guardar escribe renombra ≠ .ok ()) :
      Parada s escribe renombra (s.senalar.marcar, .error msg)
  | completa (hsome : s.hiloSpider ≠ none) (hguardar : guardar escribe renombra = .ok ()) :
      Parada s escribe renombra ({ s.senalar with hiloSpider := none }.marcar, .ok ())

theorem stop_parada (s : DhtBusca) (escribe renombra : Except String Unit) :
    Parada s escribe renombra (s.stop escribe renombra) := by
  unfold stop
  split
  · exact .rechazada _ ‹_›
  · rename_i hsome
    split
    · rename_i hguardar
      exact .aMedias _ hsome (by rw [hguardar]; nofun)
    · exact .completa hsome ‹_›

end DhtBusca
end Nerea.Dht
