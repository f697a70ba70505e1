import Nerea.Dht.Engine
import Nerea.Shared.BoundedLog
import Mathlib.Data.List.Nodup

/-!
# The metadata loop

One `meta_loop`: it admits captured hashes to a bounded map of pending ones, gives up the old
ones, harvests the torrents of the session that have their metadata, appends them to the index,
which is trimmed from its front, and announces them. The steps of an iteration are apart, so
that captures, the session and `poll_nuevos` may come between them.
-/

set_option autoImplicit false

namespace Nerea.Dht

structure Hallado where
  infoHash : Texto
  nombre : Texto
  tamano : ℕ
  archivos : ℕ
  fechaMs : ℤ
  creationDate : Texto
  comment : Texto
deriving DecidableEq

structure Captura where
  hash : Texto
  nombre : Texto
  resuelto : Bool
deriving DecidableEq

/-- The metadata of a torrent, with the date and the comment `parse_root_metadata` finds. -/
structure Metadatos where
  nombre : Texto
  largos : List ℕ
  creationDate : Texto
  comment : Texto
deriving DecidableEq

structure Torrent where
  infoHash : Texto
  metadatos : Option Metadatos
deriving DecidableEq

@[irreducible] def TOPE_INDICE : ℕ := 20000

def TOPE_CAPTURAS : ℕ := 5000

/-- In milliseconds. -/
def PENDING_TIMEOUT : ℕ := 180000

/-- `max_meta.clamp(10, 2000)` -/
structure MaxMeta where
  val : ℕ
  diez : 10 ≤ val
  tope : val ≤ 2000

def MaxMeta.clamp (maxMeta : ℕ) : MaxMeta where
  val := max 10 (min maxMeta 2000)
  diez := by omega
  tope := by omega

/-- The session lists every hash once and keeps its torrents, in whatever order it lists them. -/
structure Sesion where
  torrents : List Torrent
  distintos : (torrents.map Torrent.infoHash).Nodup

namespace Sesion

def resuelve (u t : Torrent) : Torrent :=
  if t.infoHash = u.infoHash ∧ t.metadatos = none then u else t

theorem infoHash_resuelve (u t : Torrent) : (resuelve u t).infoHash = t.infoHash := by
  unfold resuelve
  split
  · rename_i h
    exact h.1.symm
  · rfl

theorem map_infoHash_resuelve (u : Torrent) (ts : List Torrent) :
    (ts.map (resuelve u)).map Torrent.infoHash = ts.map Torrent.infoHash := by
  rw [List.map_map]
  exact List.map_congr_left fun t _ => infoHash_resuelve u t

/-- A torrent is added, or the one there gets its metadata. -/
def agrega (s : Sesion) (u : Torrent) : Sesion :=
  if h : u.infoHash ∈ s.torrents.map Torrent.infoHash then
    { torrents := s.torrents.map (resuelve u)
      distintos := by
        rw [map_infoHash_resuelve]
        exact s.distintos }
  else
    { torrents := s.torrents ++ [u]
      distintos := by
        rw [List.map_append]
        apply List.Nodup.append s.distintos (List.nodup_singleton _)
        intro x hx hx'
        rw [List.mem_singleton.mp hx'] at hx
        exact h hx }

/-- The torrents are listed in another order. -/
def reordena (s : Sesion) (torrents : List Torrent) : Sesion :=
  if h : s.torrents.Perm torrents then
    { torrents := torrents
      distintos := (h.map Torrent.infoHash).nodup_iff.mp s.distintos }
  else s

end Sesion

def yaIndexado (hallados : List Hallado) (hash : Texto) : Bool :=
  hallados.any (·.infoHash == hash)

def buscarExacto (hallados : List Hallado) (hash : Texto) : Option Hallado :=
  hallados.find? (·.infoHash == hash)

/-- Where the loop stands. -/
inductive Fase where
  | parado
  | arranque
  /-- At the flag, after the sleep of an iteration or before the first. -/
  | cabeza
  | drena
  /-- The hash is admitted and room for it is made. -/
  | admite (hash : Texto)
  | cosecha
  | indexa
  | anuncia
deriving DecidableEq

/-- `pendientes` is the map in the order in which it is iterated. `insertados` keeps the loaded
index and every later insertion; `vistos` the hashes announced since `start` or waiting then,
`empujados` those announced since, and `entregados` those handed out since. -/
structure MetaLoop where
  fase : Fase
  stopFlag : Bool
  hallados : List Hallado
  nuevos : List Texto
  capturas : List Captura
  pendientes : List (Texto × ℕ)
  sesion : Sesion
  cosechados : List Hallado
  insertados : List Hallado
  vistos : List Texto
  empujados : List Texto
  entregados : List Texto

namespace MetaLoop

/-- The engine with a loaded index and the session the persistence holds. -/
def new (hallados : List Hallado) (sesion : Sesion) : MetaLoop where
  fase := .parado
  stopFlag := false
  hallados := hallados
  nuevos := []
  capturas := []
  pendientes := []
  sesion := sesion
  cosechados := []
  insertados := hallados
  vistos := []
  empujados := []
  entregados := []

variable (m : MaxMeta) (s : MetaLoop)

def start : MetaLoop :=
  match s.fase with
  | .parado =>
    { s with
      fase := .arranque
      stopFlag := false
      pendientes := []
      vistos := s.nuevos
      empujados := []
      entregados := [] }
  | _ => s

def stop : MetaLoop := { s with stopFlag := true }

def abre (sesion : Bool) : MetaLoop :=
  match s.fase with
  | .arranque => { s with fase := if sesion then .cabeza else .parado }
  | _ => s

def sondea : MetaLoop :=
  match s.fase with
  | .cabeza => { s with fase := if s.stopFlag then .parado else .drena }
  | _ => s

def contieneClave (pendientes : List (Texto × ℕ)) (hash : Texto) : Bool :=
  pendientes.any (·.1 == hash)

def quita (pendientes : List (Texto × ℕ)) (hash : Texto) : List (Texto × ℕ) :=
  pendientes.filter (·.1 != hash)

/-- `min_by_key`: the first of the oldest. -/
def masViejo : List (Texto × ℕ) → Option (Texto × ℕ)
  | [] => none
  | x :: xs =>
    match masViejo xs with
    | none => some x
    | some y => if x.2 ≤ y.2 then some x else some y

def desaloja (pendientes : List (Texto × ℕ)) : List (Texto × ℕ) :=
  if m.val ≤ pendientes.length then
    match masViejo pendientes with
    | none => pendientes
    | some (viejo, _) => quita pendientes viejo
  else pendientes

/-- `try_recv` returns a hash. -/
def recibe (hash : Texto) : MetaLoop :=
  match s.fase with
  | .drena =>
    if DhtBusca.bytesLen hash ≠ 40 ∨ contieneClave s.pendientes hash = true then s
    else if yaIndexado s.hallados hash then s
    else { s with fase := .admite hash, pendientes := desaloja m s.pendientes }
  | _ => s

def registra (capturas : List Captura) (hash : Texto) : List Captura :=
  let cap := if TOPE_CAPTURAS ≤ capturas.length then capturas.dropLast else capturas
  if cap.any (·.hash == hash) then cap else ⟨hash, [], false⟩ :: cap

def inserta (ahora : ℕ) : MetaLoop :=
  match s.fase with
  | .admite hash =>
    { s with
      fase := .drena
      pendientes := quita s.pendientes hash ++ [(hash, ahora)]
      capturas := registra s.capturas hash }
  | _ => s

/-- Nothing more to receive: the old ones are given up. -/
def vence (ahora : ℕ) : MetaLoop :=
  match s.fase with
  | .drena =>
    { s with
      fase := .cosecha
      pendientes := s.pendientes.filter fun p => decide (ahora - p.2 < PENDING_TIMEOUT) }
  | _ => s

def desconecta : MetaLoop :=
  match s.fase with
  | .drena => { s with fase := .parado }
  | _ => s

/-- The sum of the lengths as a `u64`. -/
def suma (largos : List ℕ) : ℕ := largos.foldl (fun n l => (n + l) % 18446744073709551616) 0

def hallado (fecha : Texto → ℤ) (t : Torrent) : Option Hallado :=
  match t.metadatos with
  | none => none
  | some datos =>
    if datos.nombre = [] then none
    else some
      { infoHash := t.infoHash
        nombre := datos.nombre.take 200
        tamano := suma datos.largos
        archivos := datos.largos.length
        fechaMs := fecha t.infoHash
        creationDate := datos.creationDate
        comment := datos.comment }

def cosechar (hallados : List Hallado) (fecha : Texto → ℤ) (ts : List Torrent) : List Hallado :=
  ts.filterMap fun t => if yaIndexado hallados t.infoHash then none else hallado fecha t

def marcaResuelto (h : Hallado) : List Captura → List Captura
  | [] => []
  | c :: cs =>
    if c.hash = h.infoHash then { c with resuelto := true, nombre := h.nombre } :: cs
    else c :: marcaResuelto h cs

def cosecha (fecha : Texto → ℤ) : MetaLoop :=
  match s.fase with
  | .cosecha =>
    let cosechados := cosechar s.hallados fecha s.sesion.torrents
    { s with
      fase := .indexa
      cosechados := cosechados
      pendientes := cosechados.foldl (fun ps h => quita ps h.infoHash) s.pendientes
      capturas := cosechados.foldl (fun cs h => marcaResuelto h cs) s.capturas }
  | _ => s

def empuja (hallados : List Hallado) (h : Hallado) : List Hallado :=
  if yaIndexado hallados h.infoHash then hallados else hallados ++ [h]

/-- The harvest enters the index, which is trimmed, unless there is none. -/
def indexa : MetaLoop :=
  match s.fase with
  | .indexa =>
    if s.cosechados = [] then { s with fase := .cabeza }
    else
      { s with
        fase := .anuncia
        hallados := BoundedLog.trim TOPE_INDICE (s.cosechados.foldl empuja s.hallados)
        insertados := s.insertados ++
          (s.cosechados.foldl empuja s.hallados).drop s.hallados.length }
  | _ => s

def anuncia : MetaLoop :=
  match s.fase with
  | .anuncia =>
    let hashes := s.cosechados.map Hallado.infoHash
    { s with
      fase := .cabeza
      nuevos := s.nuevos ++ hashes
      vistos := s.vistos ++ hashes
      empujados := s.empujados ++ hashes }
  | _ => s

def pollNuevos : MetaLoop × List Hallado :=
  let out := s.nuevos.filterMap (buscarExacto s.hallados)
  ({ s with nuevos := [], entregados := s.entregados ++ out.map Hallado.infoHash }, out)

inductive Evento where
  | start
  | stop
  | abre (sesion : Bool)
  | sondea
  | recibe (hash : Texto)
  | inserta (ahora : ℕ)
  | vence (ahora : ℕ)
  | desconecta
  | cosecha (fecha : Texto → ℤ)
  | indexa
  | anuncia
  | pollNuevos
  /-- A torrent enters the session or gets its metadata. -/
  | agrega (t : Torrent)
  /-- The map of the pending hashes changes its order. -/
  | reordena (pendientes : List (Texto × ℕ))
  /-- The session changes the order in which it lists its torrents. -/
  | lista (torrents : List Torrent)

def paso : Evento → MetaLoop
  | .start => s.start
  | .stop => s.stop
  | .abre sesion => s.abre sesion
  | .sondea => s.sondea
  | .recibe hash => s.recibe m hash
  | .inserta ahora => s.inserta ahora
  | .vence ahora => s.vence ahora
  | .desconecta => s.desconecta
  | .cosecha fecha => s.cosecha fecha
  | .indexa => s.indexa
  | .anuncia => s.anuncia
  | .pollNuevos => s.pollNuevos.1
  | .agrega t => { s with sesion := s.sesion.agrega t }
  | .reordena pendientes =>
    if s.pendientes.isPerm pendientes then { s with pendientes := pendientes } else s
  | .lista torrents => { s with sesion := s.sesion.reordena torrents }

end MetaLoop
end Nerea.Dht
