import Nerea.Shared.Json
import Nerea.Shared.PosixTree
import Nerea.Shared.Whitespace

/-!
# The agents' tools

The list of tools with the permission each one requires, the file sandbox and the
execution of an authorised call. An execution yields the objects it opened, wrote or
listed and its text; the text of a read or of a listing is the one before `_clip`.
-/

set_option autoImplicit false

namespace Nerea.Agents

open PosixTree

inductive AgentPermission where
  | readFiles | writeFiles | webAccess | controlGui | gpuRun
deriving DecidableEq

structure ToolDef where
  name : String
  permission : AgentPermission

def AGENT_TOOLS : List ToolDef :=
  [⟨"read_file", .readFiles⟩, ⟨"write_file", .writeFiles⟩, ⟨"list_dir", .readFiles⟩,
    ⟨"web_fetch", .webAccess⟩, ⟨"parse_local_doc", .readFiles⟩]

def toolByName (n : String) : Option ToolDef := AGENT_TOOLS.find? (·.name == n)

abbrev Args := List (String × Json)

inductive Excepcion where
  | fileSystem
  | type
deriving DecidableEq

inductive Acceso where
  | leer (loc : Loc)
  | escribir (loc : Loc) (content : String)
  | listar (loc : Loc)
deriving DecidableEq

def Acceso.loc : Acceso → Loc
  | leer loc => loc
  | escribir loc _ => loc
  | listar loc => loc

abbrev Resultado := Except Excepcion (List Acceso × String)

/-- The device: its files, the two directories `path_provider` names, how many links a
path may go through, the text of an exception and the web. -/
structure Entorno where
  arbol : PosixTree.Tree String
  docs : Path
  sup : Path
  maxLinks : ℕ
  describir : Excepcion → String
  webFetch : Args → String

namespace Entorno
variable (env : Entorno)

def realpath (p : Path) : Option (Loc × ℕ) := env.arbol.realpath env.maxLinks p

def resolve (p : Path) : Option Loc := env.arbol.resolve env.maxLinks p

/-- `String.trim` also removes the byte order mark. -/
def trim (path : Path) : Path :=
  Whitespace.trimBoth (fun c => Whitespace.isWhiteSpace c || c.toNat == 0xFEFF) path

def fileOf (path : Path) : Path :=
  let p := trim path
  let p := if List.isPrefixOf ['.', '/'] p then p.drop 2 else p
  if isAbsolute p then p else env.docs ++ '/' :: p

/-- `canonical.startsWith(docs.path)` or the same with `sup.path`. -/
def startsInside (canonical : Loc) : Bool :=
  env.docs.isPrefixOf (render canonical) || env.sup.isPrefixOf (render canonical)

/-- Resuelve ruta y garantiza que quede DENTRO de las carpetas de la app. -/
def resolveSandboxed (path : Path) : Except Excepcion (Option Path) :=
  let f := env.fileOf path
  match env.realpath (parentOf f) with
  | none => .error .fileSystem
  | some (canonical, _) => if env.startsInside canonical then .ok (some f) else .ok none

/-- `args[key] ?? default` where a string is expected. -/
def argString (args : Args) (key default : String) : Except Excepcion String :=
  match Json.field args key with
  | .null => .ok default
  | .str s => .ok s
  | _ => .error .type

def conRuta (args : Args) (default fuera : String) (usar : Path → Resultado) : Resultado :=
  match argString args "path" default with
  | .error e => .error e
  | .ok path =>
    match env.resolveSandboxed path.toList with
    | .error e => .error e
    | .ok none => .ok ([], fuera)
    | .ok (some f) => usar f

/-- `existsSync` and `readAsStringSync`. -/
def readAt (f : Path) : Resultado :=
  match env.resolve f with
  | none => .ok ([], "ERROR: no existe " ++ String.ofList f)
  | some loc =>
    match env.arbol.lookup loc with
    | some (.file content) => .ok ([.leer loc], content)
    | _ => .ok ([], "ERROR: no existe " ++ String.ofList f)

def isDirPath (p : Path) : Bool :=
  match env.resolve p with
  | none => false
  | some loc => env.arbol.isDir loc

/-- `createSync(recursive: true)` finds the parent there: it is a directory or it fails. -/
def writeAt (content : Except Excepcion String) (f : Path) : Resultado :=
  if env.isDirPath (parentOf f) then
    match content with
    | .error e => .error e
    | .ok content =>
      match env.resolve f with
      | none => .error .fileSystem
      | some loc =>
        if env.arbol.isFile loc || (env.arbol.lookup loc).isNone then
          .ok ([.escribir loc content],
            "OK: escrito " ++ toString content.utf8ByteSize ++ " bytes en " ++ String.ofList f)
        else .error .fileSystem
  else .error .fileSystem

/-- One line of a listing; a link to a directory is one. -/
def renglonDe (loc : Loc) (name : Name) : String :=
  let tag := match env.arbol.walk env.maxLinks loc [name] with
    | some (child, _) => if env.arbol.isDir child then "[d] " else "[f] "
    | none => "[f] "
  tag ++ String.ofList name

def listAt (f : Path) : Resultado :=
  match env.resolve f with
  | none => .ok ([], "ERROR: carpeta inexistente")
  | some loc =>
    if env.arbol.isDir loc then
      .ok ([.listar loc],
        String.intercalate "\n" ((env.arbol.children loc).map (env.renglonDe loc)))
    else .ok ([], "ERROR: carpeta inexistente")

def readFile (args : Args) : Resultado :=
  env.conRuta args "." "ERROR: ruta fuera del sandbox de la app" env.readAt

def writeFile (args : Args) : Resultado :=
  env.conRuta args "" "ERROR: ruta fuera del sandbox de la app"
    (env.writeAt (argString args "content" ""))

def listDir (args : Args) : Resultado :=
  env.conRuta args "." "ERROR: fuera del sandbox" env.listAt

/-- The body of `executeTool`, where exceptions still leave. -/
def ejecutar (name : String) (args : Args) : Resultado :=
  match name with
  | "read_file" => env.readFile args
  | "parse_local_doc" => env.readFile args
  | "write_file" => env.writeFile args
  | "list_dir" => env.listDir args
  | "web_fetch" => .ok ([], env.webFetch args)
  | "lua_gui" => .ok ([], "ERROR: herramienta eliminada en Nerea (sin Lua)")
  | "gpu_run" => .ok ([], "ERROR: herramienta eliminada en Nerea (sin GPU compute)")
  | _ => .ok ([], "ERROR: herramienta desconocida " ++ name)

/-- Ejecuta una tool YA AUTORIZADA. Nunca lanza: devuelve texto (o error). -/
def executeTool (name : String) (args : Args) : List Acceso × String :=
  match env.ejecutar name args with
  | .ok r => r
  | .error e => ([], "ERROR ejecutando " ++ name ++ ": " ++ env.describir e)

end Entorno
end Nerea.Agents
