import Nerea.Colab.Frames
import Nerea.Shared.DirEntry
import Nerea.Shared.Run

/-!
# The tokens of a session and their file

Loading, refreshing, saving and the logout await the directory, the network and each
operation on the file. What a call awaits is kept under its number, and an event goes on
with one of them.
-/

set_option autoImplicit false

namespace Nerea.Colab

open Json (field)

/-- `DateTime.parse` and `toIso8601String`, on microseconds. -/
structure Fechas where
  parse : String → Option ℤ
  toIso8601String : ℤ → String

structure ColabTokens where
  accessToken : String
  refreshToken : String
  expiry : ℤ
  scopes : List String

def tokenRefreshMargin : ℤ := 60 * 1000000

def asString : Json → Option String
  | .str s => some s
  | _ => none

def asStrings : Json → Option (List String)
  | .arr items => items.mapM asString
  | _ => none

def asInt : Json → Option ℤ
  | .num q => if q.den = 1 then some q.num else none
  | _ => none

namespace ColabTokens

def isExpired (t : ColabTokens) (now : ℤ) : Bool := t.expiry - tokenRefreshMargin < now

def toJson (f : Fechas) (t : ColabTokens) : Json :=
  .obj [("access_token", .str t.accessToken), ("refresh_token", .str t.refreshToken),
    ("expiry", .str (f.toIso8601String t.expiry)), ("scopes", .arr (t.scopes.map .str))]

/-- Or an exception. -/
def fromJson (f : Fechas) : Json → Option ColabTokens
  | .obj j => do
    let accessToken ← asString ((field j "access_token").orElse (.str ""))
    let refreshToken ← asString ((field j "refresh_token").orElse (.str ""))
    let expiry ← (asString (field j "expiry")).bind f.parse
    let scopes ← asStrings ((field j "scopes").orElse (.arr []))
    return ⟨accessToken, refreshToken, expiry, scopes⟩
  | _ => none

/-- The tokens after a refresh: what the reply brings and the rest of the old ones. -/
def refreshed (t : ColabTokens) (now : ℤ) : Json → Option ColabTokens
  | .obj data => do
    let accessToken ← asString (field data "access_token")
    let expiresIn ← asInt ((field data "expires_in").orElse (.num 3600))
    return ⟨accessToken, t.refreshToken, now + expiresIn * 1000000, t.scopes⟩
  | _ => none

end ColabTokens

/-- What a call awaits; files are known by the number they were made with. -/
inductive ColabAuth.Llamada where
  | loadRuta
  | loadExiste
  | loadAbre
  | loadLee (i : ℕ)
  | refreshPost
  | saveRuta
  | saveAbre (text : String)
  | saveEscribe (i : ℕ) (text : String)
  | saveCierra
  | logoutRuta
  | logoutExiste
  | logoutBorra
  | fin

def ColabAuth.Llamada.isLogout : ColabAuth.Llamada → Bool
  | logoutRuta => true
  | logoutExiste => true
  | logoutBorra => true
  | _ => false

/-- `file` is `colab_tokens.json`. -/
structure ColabAuth where
  tokens : Option ColabTokens
  file : DirEntry UInt8
  llamadas : ℕ → ColabAuth.Llamada
  lanzadas : ℕ

namespace ColabAuth

def sigue (s : ColabAuth) (n : ℕ) (c : Llamada) : ColabAuth :=
  { s with llamadas := Function.update s.llamadas n c }

def lanza (s : ColabAuth) (c : Llamada) : ColabAuth :=
  { s with lanzadas := s.lanzadas + 1 }.sigue s.lanzadas c

def logout (s : ColabAuth) : ColabAuth := { s with tokens := none }.lanza .logoutRuta

/-- Without tokens it throws. -/
def refreshToken (s : ColabAuth) : ColabAuth :=
  match s.tokens with
  | none => s
  | some _ => s.lanza .refreshPost

def getToken (s : ColabAuth) (now : ℤ) : Except String ColabAuth :=
  match s.tokens with
  | none => .error "No autenticado"
  | some t => .ok (if t.isExpired now then s.refreshToken else s)

inductive Evento where
  /-- A sign-in got its tokens. -/
  | exchanged (t : ColabTokens)
  | loadTokens
  | refreshToken
  | getToken (now : ℤ)
  | logout
  | ruta (n : ℕ)
  | existe (n : ℕ)
  | abierto (n : ℕ)
  | leido (n : ℕ)
  | post (n : ℕ) (now : ℤ) (statusCode : ℕ) (body : String)
  | escrito (n : ℕ)
  | cerrado (n : ℕ)
  | borrado (n : ℕ)
  /-- What the call awaits throws. -/
  | falla (n : ℕ)

/-- It only goes on with a call. -/
def Evento.continua : Evento → Bool
  | exchanged _ => false
  | loadTokens => false
  | refreshToken => false
  | getToken _ => false
  | logout => false
  | _ => true

section Plataforma

variable (d : Dart) (f : Fechas)

/-- `ColabTokens.fromJson(jsonDecode(…))` of what is read. -/
def parseFile (bytes : List UInt8) : Option ColabTokens := do
  let text ← utf8Decode bytes
  let data ← d.jsonDecode text
  ColabTokens.fromJson f data

/-- The reply to a refresh: an exception, or new tokens that are saved. -/
def handlePost (s : ColabAuth) (n : ℕ) (now : ℤ) (statusCode : ℕ) (body : String) : ColabAuth :=
  if statusCode ≠ 200 then s.sigue n .fin
  else
    -- `_tokens!` throws when a logout came first
    match s.tokens, d.jsonDecode body with
    | some t, some data =>
      match t.refreshed now data with
      | none => s.sigue n .fin
      | some t => { s with tokens := some t }.sigue n .saveRuta
    | _, _ => s.sigue n .fin

def handleRuta (s : ColabAuth) (n : ℕ) : Llamada → ColabAuth
  | .loadRuta => s.sigue n .loadExiste
  | .saveRuta =>
    match s.tokens with
    | none => s.sigue n .fin
    | some t => s.sigue n (.saveAbre (d.jsonEncode (t.toJson f)))
  | .logoutRuta => s.sigue n .logoutExiste
  | _ => s

def handleExiste (s : ColabAuth) (n : ℕ) : Llamada → ColabAuth
  | .loadExiste => if s.file.entry.isSome then s.sigue n .loadAbre else s.sigue n .fin
  | .logoutExiste => if s.file.entry.isSome then s.sigue n .logoutBorra else s.sigue n .fin
  | _ => s

def handleAbierto (s : ColabAuth) (n : ℕ) : Llamada → ColabAuth
  | .loadAbre =>
    match s.file.entry with
    | none => s.sigue n .fin
    | some i => s.sigue n (.loadLee i)
  | .saveAbre text => { s with file := s.file.openWrite }.sigue n (.saveEscribe s.file.target text)
  | _ => s

def paso (s : ColabAuth) : Evento → ColabAuth
  | .exchanged t => { s with tokens := some t }.lanza .saveRuta
  | .loadTokens => s.lanza .loadRuta
  | .refreshToken => s.refreshToken
  | .getToken now =>
    match s.getToken now with
    | .error _ => s
    | .ok s => s
  | .logout => s.logout
  | .ruta n => s.handleRuta d f n (s.llamadas n)
  | .existe n => s.handleExiste n (s.llamadas n)
  | .abierto n => s.handleAbierto n (s.llamadas n)
  | .leido n =>
    match s.llamadas n with
    | .loadLee i =>
      match parseFile d f (s.file.contents i) with
      | none => s.sigue n .fin
      | some t => { s with tokens := some t }.sigue n .fin
    | _ => s
  | .post n now statusCode body =>
    match s.llamadas n with
    | .refreshPost => s.handlePost d n now statusCode body
    | _ => s
  | .escrito n =>
    match s.llamadas n with
    | .saveEscribe i text =>
      { s with file := s.file.write 0 i 0 (text.toList.flatMap String.utf8EncodeChar) }.sigue n
        .saveCierra
    | _ => s
  | .cerrado n =>
    match s.llamadas n with
    | .saveCierra => s.sigue n .fin
    | _ => s
  | .borrado n =>
    match s.llamadas n with
    | .logoutBorra => { s with file := s.file.unlink }.sigue n .fin
    | _ => s
  | .falla n => s.sigue n .fin

/-- The file as an earlier session left it, and nothing in memory. -/
def inicial (file : DirEntry UInt8) : ColabAuth where
  tokens := none
  file := file
  llamadas := fun _ => .fin
  lanzadas := 0

end Plataforma
end ColabAuth
end Nerea.Colab
