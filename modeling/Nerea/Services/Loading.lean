import Mathlib.Data.List.Basic
import Nerea.Colab.Auth
import Nerea.Services.LastSave

/-!
# Loading a store that is in use

A load awaits the directory, the file and the cipher, and then puts what it has read in the
collection. Two stores clear it first, the key vault replaces the lists of the providers that
it has read. Meanwhile things are added, and each addition starts a save.
-/

set_option autoImplicit false

namespace Nerea.Agents

open Colab (asString asStrings)
open Json (field)

/-- `(j as List?) ?? []`, or an exception. -/
def asList : Json → Option (List Json)
  | .null => some []
  | .arr items => some items
  | _ => none

/-- `j as String?`, or an exception. -/
def asStringOrNull : Json → Option (Option String)
  | .null => some none
  | .str s => some (some s)
  | _ => none

/-- `((j as num?) ?? 0).toInt()`, or an exception. -/
def asCount : Json → Option ℤ
  | .null => some 0
  | .num q => some (q.num.tdiv q.den)
  | _ => none

def AgentMsg.fromJson : Json → Option AgentMsg
  | .obj j => do
    let role ← asString ((field j "role").orElse (.str "assistant"))
    let content ← asString ((field j "content").orElse (.str ""))
    let toolName ← asStringOrNull (field j "tool")
    return { role := role, content := content, toolName := toolName }
  | _ => none

def AgentPermission.values : List AgentPermission :=
  [.readFiles, .writeFiles, .webAccess, .controlGui, .gpuRun]

def AgentPermission.fromJson : Json → AgentPermission
  | .str s => (values.find? (fun p => p.name = s)).getD .readFiles
  | _ => .readFiles

def HistModo.values : List HistModo := [.ventana, .resumen, .hibrido]

def HistModo.fromJson : Json → HistModo
  | .str s => (values.find? (fun m => m.name = s)).getD .ventana
  | _ => .ventana

/-- Or an exception. -/
def Agent.fromJson : Json → Option Agent
  | .obj j => do
    let id ← asString (field j "id")
    let name ← asString ((field j "name").orElse (.str ""))
    let mission ← asString ((field j "mission").orElse (.str ""))
    let providerId ← asString ((field j "provider").orElse (.str ""))
    let model ← asString ((field j "model").orElse (.str ""))
    let permissions ← asList (field j "permissions")
    let histResumenCache ← asString ((field j "histResumen").orElse (.str ""))
    let histCubiertoChars ← asCount (field j "histCubierto")
    let log ← (← asList (field j "log")).mapM AgentMsg.fromJson
    return {
      id := id
      name := name
      mission := mission
      providerId := providerId
      model := model
      permissions := (permissions.map AgentPermission.fromJson).eraseDups
      histModo := HistModo.fromJson (field j "histModo")
      histResumenCache := histResumenCache
      histCubiertoChars := histCubiertoChars
      log := log }
  | _ => none

/-- Up to the first one that throws. -/
def agentsFromJson : List Json → List Agent
  | [] => []
  | j :: js =>
    match Agent.fromJson j with
    | none => []
    | some a => a :: agentsFromJson js

end Nerea.Agents

namespace Nerea.Services

open Agents (Agent)
open Colab (asString asStrings utf8Decode)
open Json (field)
open ToolSec (Aead Azar)

section Mapa

variable {β : Type}

/-- `map[p] = f(map[p])`: an entry keeps its place, a new one comes last. -/
def pon (map : List (String × β)) (p : String) (f : Option β → β) : List (String × β) :=
  match map with
  | [] => [(p, f none)]
  | (q, b) :: map => if q = p then (q, f (some b)) :: map else (q, b) :: pon map p f

/-- The assignments `map[p] = b` one after the other. -/
def ponTodas (map : List (String × β)) (entries : List (String × β)) : List (String × β) :=
  entries.foldl (fun map e => pon map e.1 (fun _ => e.2)) map

theorem lookup_cons_of_ne {map : List (String × β)} {p q : String} (h : p ≠ q) (b : β) :
    ((q, b) :: map).lookup p = map.lookup p := by
  rw [List.lookup_cons, beq_false_of_ne h]

theorem lookup_pon_self (map : List (String × β)) (p : String) (f : Option β → β) :
    (pon map p f).lookup p = some (f (map.lookup p)) := by
  induction map with
  | nil => exact List.lookup_cons_self
  | cons e map ih =>
    obtain ⟨q, b⟩ := e
    unfold pon
    by_cases hq : q = p
    · rw [if_pos hq, hq, List.lookup_cons_self, List.lookup_cons_self]
    · rw [if_neg hq, lookup_cons_of_ne (Ne.symm hq), lookup_cons_of_ne (Ne.symm hq), ih]

theorem lookup_pon_of_ne {map : List (String × β)} {p q : String} (h : q ≠ p)
    (f : Option β → β) : (pon map p f).lookup q = map.lookup q := by
  induction map with
  | nil => exact lookup_cons_of_ne h _
  | cons e map ih =>
    obtain ⟨r, b⟩ := e
    unfold pon
    by_cases hr : r = p
    · rw [if_pos hr, hr, lookup_cons_of_ne h, lookup_cons_of_ne h]
    · rw [if_neg hr, List.lookup_cons, List.lookup_cons, ih]

/-- The last assignment counts. -/
theorem lookup_ponTodas (entries map : List (String × β)) (p : String) :
    (ponTodas map entries).lookup p = (entries.reverse.lookup p).or (map.lookup p) := by
  induction entries generalizing map with
  | nil => rfl
  | cons e entries ih =>
    obtain ⟨q, b⟩ := e
    have hstep : ponTodas map ((q, b) :: entries) = ponTodas (pon map q (fun _ => b)) entries :=
      rfl
    rw [hstep, ih, List.reverse_cons, List.lookup_append, Option.or_assoc]
    congr 1
    by_cases hp : p = q
    · rw [hp, lookup_pon_self, List.lookup_cons_self]
      rfl
    · rw [lookup_pon_of_ne hp, lookup_cons_of_ne hp]
      rfl

end Mapa

/-- How a store loads and what is added to it meanwhile. `Cubre x y`: what `x` has `y` has too,
and goes on having it when the same is added to both. `Queda l m x`: what `x` has is in what
was read, `l`, or is left where it was, `m`. -/
structure Recarga (M : Type) where
  Alta : Type
  Entrada : Type
  /-- What is awaited before the file is read. -/
  esperas : ℕ
  descifra : Aead → List UInt8 → Option (List UInt8)
  /-- What is read before an exception, if it changes anything. -/
  fromJson : Dart → Json → Option M
  mezcla : M → M → M
  /-- A call that is refused adds nothing and saves nothing. -/
  alta : Alta → Option (M → M)
  Tiene : M → Entrada → Prop
  Cubre : M → M → Prop
  Queda : M → M → M → Prop
  tiene_of_cubre : ∀ {x y}, Cubre x y → ∀ e, Tiene x e → Tiene y e
  cubre_alta : ∀ {x y}, Cubre x y → ∀ a f, alta a = some f → Cubre (f x) (f y)
  cubre_mezcla : ∀ {l m x}, Queda l m x → Cubre x (mezcla l m)

namespace AgentManager

def fromJson : Json → Option (List Agent)
  | .obj map =>
    match field map "agents" with
    | .null => some []
    | .arr list => some (Agents.agentsFromJson list)
    | _ => none
  | _ => none

/-- `a` is known by what is stored of it. -/
def Tiene (agents : List Agent) (a : Agent) : Prop :=
  ∃ b ∈ agents, Agents.AgentManager.cargado b = a

/-- `ensureLoaded` awaits the key vault and the directory; `create` adds. -/
def recarga : Recarga (List Agent) where
  Alta := Agents.AgentManager.Datos
  Entrada := Agent
  esperas := 2
  descifra := fun A data => ToolSec.CryptoVault.decrypt A data Settings.masterKey
  fromJson := fun _ => fromJson
  mezcla := fun l _ => l
  alta := fun x => some (fun agents => agents ++ [x.agent])
  Tiene := Tiene
  Cubre := fun x y => ∀ a, Tiene x a → Tiene y a
  Queda := fun l _ x => ∀ a, Tiene x a → Tiene l a
  tiene_of_cubre := fun h => h
  cubre_alta := by
    intro x y h datos f hf
    cases hf
    intro a ha
    obtain ⟨b, hb, hba⟩ := ha
    rcases List.mem_append.mp hb with hb | hb
    · obtain ⟨b', hb', hba'⟩ := h a ⟨b, hb, hba⟩
      exact ⟨b', List.mem_append_left _ hb', hba'⟩
    · exact ⟨b, List.mem_append_right _ hb, hba⟩
  cubre_mezcla := fun h => h

end AgentManager

namespace HistoryStore

def maxEntries : ℕ := 200

abbrev Pagina := List (String × String)

def fromJson (d : Dart) : Json → Option (List Pagina)
  | .arr list => some (list.filterMap fun e =>
      match e with
      | .obj fields => some (fields.map fun field => (field.1, d.toText field.2))
      | _ => none)
  | _ => none

structure Visita where
  uri : String
  title : Option String
  now : ℤ

def add (x : Visita) (entries : List Pagina) : List Pagina :=
  ([("uri", x.uri), ("title", x.title.getD x.uri), ("ts", toString x.now)] ::
    entries.filter (fun e => e.lookup "uri" ≠ some x.uri)).take maxEntries

/-- `load` awaits the directory and whether the file exists. -/
def recarga : Recarga (List Pagina) where
  Alta := Visita
  Entrada := Pagina
  esperas := 2
  descifra := fun A data => ToolSec.processBytesAuto A HistoryStore.key data
  fromJson := fromJson
  mezcla := fun l _ => l
  alta := fun x => if x.uri = "" then none else some (add x)
  Tiene := fun entries e => e ∈ entries
  -- the cap drops the last entries, so the order counts
  Cubre := fun x y => x = y
  Queda := fun l _ x => x = l
  tiene_of_cubre := fun h _ he => h ▸ he
  cubre_alta := fun h _ f _ => congrArg f h
  cubre_mezcla := fun h => h

end HistoryStore

namespace KeyVault

inductive Guardada where
  | key (providerId key : String)
  | url (providerId url : String)

def Tiene (v : Claves) : Guardada → Prop
  | .key p k => ∃ ks, v.keys.lookup p = some ks ∧ k ∈ ks
  | .url p u => v.urls.lookup p = some u

/-- The entries up to the first one whose value does not convert, and whether it is the end. -/
def leeEntradas {β : Type} (lee : Json → Option β) :
    List (String × Json) → List (String × β) × Bool
  | [] => ([], true)
  | (p, j) :: entries =>
    match lee j with
    | none => ([], false)
    | some b => ((p, b) :: (leeEntradas lee entries).1, (leeEntradas lee entries).2)

/-- `(j ?? {}).entries` -/
def entriesOf : Json → List (String × Json) × Bool
  | .null => ([], true)
  | .obj fields => (fields, true)
  | _ => ([], false)

def fromJson : Json → Option Claves
  | .obj map =>
    let keys := leeEntradas asStrings (entriesOf (field map "keys")).1
    let urls := leeEntradas asString (entriesOf (field map "urls")).1
    let seguir := (entriesOf (field map "keys")).2 && keys.2
    some { keys := keys.1, urls := if seguir then urls.1 else [] }
  | _ => none

def mezcla (l v : Claves) : Claves where
  keys := ponTodas v.keys l.keys
  urls := ponTodas v.urls l.urls

structure AddKey where
  providerId : String
  key : String

def addKey (x : AddKey) (v : Claves) : Claves :=
  { v with
    keys := pon v.keys x.providerId (fun ks => ks.getD [] ++ [Agents.KeyVault.trim x.key]) }

/-- What `addKey` adds to an entry. -/
theorem tiene_addKey (x : AddKey) (v : Claves) (e : Guardada) :
    Tiene (addKey x v) e ↔ Tiene v e ∨ e = .key x.providerId (Agents.KeyVault.trim x.key) := by
  cases e with
  | url p u =>
    constructor
    · exact Or.inl
    · intro h
      rcases h with h | h
      · exact h
      · cases h
  | key p k =>
    by_cases hp : p = x.providerId
    · have hself : (addKey x v).keys.lookup p =
          some ((v.keys.lookup p).getD [] ++ [Agents.KeyVault.trim x.key]) := by
        rw [hp]
        exact lookup_pon_self v.keys x.providerId _
      unfold Tiene
      dsimp only
      rw [hself]
      constructor
      · intro hk
        rcases hk with ⟨ks, hks, hk⟩
        cases hks
        rcases List.mem_append.mp hk with hk | hk
        · cases hlookup : v.keys.lookup p with
          | none =>
            rw [hlookup] at hk
            cases hk
          | some ks =>
            rw [hlookup] at hk
            exact Or.inl ⟨ks, rfl, hk⟩
        · right
          rw [hp, List.mem_singleton.mp hk]
      · intro h
        rcases h with ⟨ks, hks, hk⟩ | h
        · refine ⟨_, rfl, List.mem_append_left _ ?_⟩
          rw [hks]
          exact hk
        · cases h
          exact ⟨_, rfl, List.mem_append_right _ List.mem_cons_self⟩
    · have hother : (addKey x v).keys.lookup p = v.keys.lookup p := lookup_pon_of_ne hp _
      unfold Tiene
      dsimp only
      rw [hother]
      constructor
      · exact Or.inl
      · intro h
        rcases h with h | h
        · exact h
        · cases h
          exact absurd rfl hp

/-- The key is in the list read for its provider, or the provider was not read. -/
def Queda (l m x : Claves) : Prop :=
  ∀ e, Tiene x e →
    match e with
    | .key p k => (∃ ks, l.keys.reverse.lookup p = some ks ∧ k ∈ ks) ∨
        l.keys.reverse.lookup p = none ∧ Tiene m e
    | .url p u => l.urls.reverse.lookup p = some u ∨
        l.urls.reverse.lookup p = none ∧ Tiene m e

theorem tiene_mezcla {l m x : Claves} (h : Queda l m x) (e : Guardada) (he : Tiene x e) :
    Tiene (mezcla l m) e := by
  have hqueda := h e he
  cases e with
  | key p k =>
    unfold Tiene mezcla
    dsimp only
    rw [lookup_ponTodas]
    rcases hqueda with ⟨ks, hks, hk⟩ | ⟨hnone, hm⟩
    · rw [hks]
      exact ⟨ks, rfl, hk⟩
    · rw [hnone]
      exact hm
  | url p u =>
    unfold Tiene mezcla
    dsimp only
    rw [lookup_ponTodas]
    rcases hqueda with hu | ⟨hnone, hm⟩
    · rw [hu]
      rfl
    · rw [hnone]
      exact hm

/-- `load` awaits the directory; `addKey` adds. -/
def recarga : Recarga Claves where
  Alta := AddKey
  Entrada := Guardada
  esperas := 1
  descifra := fun A data => ToolSec.CryptoVault.decrypt A data Settings.masterKey
  fromJson := fun _ => fromJson
  mezcla := mezcla
  alta := fun x => if Agents.KeyVault.trim x.key = "" then none else some (addKey x)
  Tiene := Tiene
  Cubre := fun x y => ∀ e, Tiene x e → Tiene y e
  Queda := Queda
  tiene_of_cubre := fun h => h
  cubre_alta := by
    intro x y h a f hf
    have hadd : f = addKey a := by
      split at hf
      · cases hf
      · exact (Option.some.inj hf).symm
    intro e he
    rw [hadd] at he ⊢
    rw [tiene_addKey] at he ⊢
    exact he.imp (h e) id
  cubre_mezcla := tiene_mezcla

end KeyVault

/-- The stores that load their own file. -/
inductive Cargable where
  | agentManager | historyStore | keyVault

def Cargable.tienda : Cargable → Tienda
  | agentManager => .agentManager
  | historyStore => .historyStore
  | keyVault => .keyVault

def Cargable.recarga : (t : Cargable) → Recarga t.tienda.Memoria
  | agentManager => AgentManager.recarga
  | historyStore => HistoryStore.recarga
  | keyVault => KeyVault.recarga

/-- The awaits that are left before the file is read, the bytes that were read, or nothing. -/
inductive Fase where
  | espera (k : ℕ)
  | descifra (enc : List UInt8)
  | fin

/-- What is only recorded: `debido`, what the file had with what was added since the load was
called, and how many snapshots there were when the load ended. -/
structure Carga (M : Type) where
  estado : Estado M
  fase : Fase
  debido : M
  alFin : ℕ

inductive Suceso (M Alta : Type) where
  | load
  | alta (a : Alta)
  | avanza
  | leido
  | descifrado
  /-- What the load awaits throws. -/
  | falla
  | save (e : Evento M)

/-- It goes on with a save. -/
def Evento.continua {M : Type} : Evento M → Bool
  | cambia _ => false
  | guarda => false
  | _ => true

section Carga

variable {M : Type} (A : Aead) (d : Dart) (g : Guardado M) (c : Recarga M)

def Recarga.lee (enc : List UInt8) : Option M := do
  let plain ← c.descifra A enc
  let text ← utf8Decode plain
  let j ← d.jsonDecode text
  c.fromJson d j

def Recarga.recarga (enc : List UInt8) (m : M) : M :=
  match c.lee A d enc with
  | some l => c.mezcla l m
  | none => m

namespace Carga

def termina (s : Carga M) : Carga M := { s with fase := .fin, alFin := s.estado.fotos.length }

def paso (s : Carga M) : Suceso M c.Alta → Carga M
  -- it is loaded already, or being loaded
  | .load => s
  | .alta a =>
    match c.alta a with
    | none => s
    | some f =>
      { s with
        estado := (s.estado.paso A d g (.cambia f)).paso A d g .guarda
        debido := f s.debido }
  | .avanza =>
    match s.fase with
    | .espera (k + 1) => { s with fase := .espera k }
    | _ => s
  | .leido =>
    match s.fase with
    | .espera 0 => { s with fase := .descifra s.estado.disco }
    | _ => s
  | .descifrado =>
    match s.fase with
    | .descifra enc =>
      { s with estado := s.estado.paso A d g (.cambia (c.recarga A d enc)) }.termina
    | _ => s
  | .falla =>
    match s.fase with
    | .fin => s
    | _ => s.termina
  | .save e => if e.continua then { s with estado := s.estado.paso A d g e } else s

/-- The load is called, with the file as a save has left it. -/
def inicial (m viejo : M) (azar : Azar) : Carga M where
  estado := .inicio m (g.sobre A d azar viejo)
  fase := .espera c.esperas
  debido := viejo
  alFin := 0

end Carga
end Carga
end Nerea.Services
