import Nerea.Services.Loading

/-!
# What an agent's record says and what is read from it

Writing an agent and reading it gives it back. In a record of another origin a permission
that is not known counts as the first of the enumeration, to read files.
-/

set_option autoImplicit false

namespace Nerea.Agents

open Colab (asString)
open Json (field)

/-- The permission of its name, or the first one when no permission has it. -/
theorem AgentPermission.fromJson_eq_iff (j : Json) (p : AgentPermission) :
    AgentPermission.fromJson j = p ↔
      j = .str p.name ∨ p = .readFiles ∧ ∀ q : AgentPermission, j ≠ .str q.name := by
  have hotro : (∀ q : AgentPermission, j ≠ .str q.name) →
      AgentPermission.fromJson j = .readFiles := by
    intro hno
    unfold AgentPermission.fromJson
    split
    · rename_i s
      have hnone : AgentPermission.values.find? (fun p => p.name = s) = none := by
        rw [List.find?_eq_none]
        intro q _ hq
        exact hno q (congrArg Json.str (of_decide_eq_true hq).symm)
      rw [hnone]
      rfl
    · rfl
  have hnombre : ∀ q : AgentPermission, AgentPermission.fromJson (.str q.name) = q := by
    intro q
    cases q <;> rfl
  constructor
  · intro h
    by_cases hno : ∀ q : AgentPermission, j ≠ .str q.name
    · exact Or.inr ⟨h.symm.trans (hotro hno), hno⟩
    · obtain ⟨q, hq⟩ := not_forall.mp hno
      rw [not_not] at hq
      left
      rw [hq, hnombre] at h
      rw [hq, h]
  · intro h
    rcases h with rfl | ⟨rfl, hno⟩
    · exact hnombre p
    · exact hotro hno

theorem HistModo.fromJson_name (m : HistModo) : HistModo.fromJson (.str m.name) = m := by
  cases m <;> rfl

theorem AgentMsg.fromJson_toJson (m : AgentMsg) : AgentMsg.fromJson m.toJson = some m := by
  obtain ⟨role, content, toolName⟩ := m
  cases toolName with
  | none => rfl
  | some tool => rfl

theorem mapM_fromJson_toJson (log : List AgentMsg) :
    (log.map AgentMsg.toJson).mapM AgentMsg.fromJson = some log := by
  induction log with
  | nil => rfl
  | cons m log ih =>
    rw [List.map_cons, List.mapM_cons, AgentMsg.fromJson_toJson, ih]
    rfl

theorem map_fromJson_name (permissions : List AgentPermission) :
    (permissions.map fun p => Json.str p.name).map AgentPermission.fromJson = permissions := by
  induction permissions with
  | nil => rfl
  | cons p permissions ih =>
    rw [List.map_cons, List.map_cons, ih, (AgentPermission.fromJson_eq_iff _ p).mpr (Or.inl rfl)]

/-- A set of permissions has each once. -/
theorem Agent.fromJson_toJson (a : Agent) : Agent.fromJson a.toJson =
    some { AgentManager.cargado a with permissions := a.permissions.eraseDups } := by
  have hcount : asCount (.num a.histCubiertoChars) = some a.histCubiertoChars := by
    unfold asCount
    dsimp only
    rw [Rat.num_intCast, Rat.den_intCast, Int.natCast_one, Int.tdiv_one]
  unfold Agent.toJson Agent.fromJson
  simp [field, List.lookup_cons, asString, Json.orElse, asList, hcount, mapM_fromJson_toJson,
    HistModo.fromJson_name, map_fromJson_name, AgentManager.cargado, -List.map_map, -List.mapM_map]

/-- The entries of the list of permissions. -/
def permisosDe (j : Json) : List Json :=
  match j with
  | .obj fields => (asList (field fields "permissions")).getD []
  | _ => []

theorem permissions_of_fromJson {j : Json} {b : Agent} (h : Agent.fromJson j = some b) :
    b.permissions = ((permisosDe j).map AgentPermission.fromJson).eraseDups := by
  unfold Agent.fromJson at h
  split at h
  · rename_i fields
    simp only [Option.bind_eq_bind, Option.bind_eq_some_iff] at h
    obtain ⟨_, -, _, -, _, -, _, -, _, -, items, hitems, _, -, _, -, _, -, _, -, hb⟩ := h
    cases hb
    change _ = (((asList (field fields "permissions")).getD []).map
      AgentPermission.fromJson).eraseDups
    rw [hitems]
    rfl
  · cases h

/-- The record names the permission. -/
def Nombra (j : Json) (p : AgentPermission) : Prop := .str p.name ∈ permisosDe j

/-- Something in its list is no permission. -/
def NombraOtro (j : Json) : Prop := ∃ x ∈ permisosDe j, ∀ p : AgentPermission, x ≠ .str p.name

theorem mem_permissions_iff {j : Json} {b : Agent} (h : Agent.fromJson j = some b)
    (p : AgentPermission) :
    p ∈ b.permissions ↔ Nombra j p ∨ p = .readFiles ∧ NombraOtro j := by
  rw [permissions_of_fromJson h, List.mem_eraseDups, List.mem_map]
  constructor
  · intro hp
    rcases hp with ⟨x, hx, hp⟩
    rcases (AgentPermission.fromJson_eq_iff x p).mp hp with rfl | ⟨rfl, hno⟩
    · exact Or.inl hx
    · exact Or.inr ⟨rfl, x, hx, hno⟩
  · intro hp
    rcases hp with hp | ⟨rfl, x, hx, hno⟩
    · exact ⟨_, hp, (AgentPermission.fromJson_eq_iff _ p).mpr (Or.inl rfl)⟩
    · exact ⟨x, hx, (AgentPermission.fromJson_eq_iff x _).mpr (Or.inr ⟨rfl, hno⟩)⟩

/-- What is stored of an agent, the permissions as a set. -/
structure Agent.MismoRegistro (a b : Agent) : Prop where
  id : b.id = a.id
  name : b.name = a.name
  mission : b.mission = a.mission
  providerId : b.providerId = a.providerId
  model : b.model = a.model
  permissions : ∀ p, p ∈ b.permissions ↔ p ∈ a.permissions
  histModo : b.histModo = a.histModo
  histResumenCache : b.histResumenCache = a.histResumenCache
  histCubiertoChars : b.histCubiertoChars = a.histCubiertoChars
  log : b.log = a.log

/-- Every agent comes back from its record, and what a record grants is what it names, and to
read files when it names something that is no permission. -/
theorem agent_records :
    (∀ a : Agent, ∃ b, Agent.fromJson a.toJson = some b ∧ a.MismoRegistro b) ∧
    ∀ j b, Agent.fromJson j = some b → ∀ p,
      p ∈ b.permissions ↔ Nombra j p ∨ p = .readFiles ∧ NombraOtro j := by
  constructor
  · intro a
    exact ⟨_, a.fromJson_toJson, ⟨rfl, rfl, rfl, rfl, rfl, fun p => List.mem_eraseDups, rfl, rfl,
      rfl, rfl⟩⟩
  · exact fun j b h => mem_permissions_iff h

/-- A permission of another version is read as the one to read files. -/
theorem unknown_permission_reads : ¬ ∀ j b, Agent.fromJson j = some b →
    ∀ p ∈ b.permissions, Nombra j p := by
  intro h
  have hnombra := h (.obj [("id", .str "a"), ("permissions", .arr [.str "shell"])]) _ rfl .readFiles
    List.mem_cons_self
  have hname : Json.str "readFiles" = .str "shell" := List.mem_singleton.mp hnombra
  injection hname with hname
  exact absurd hname (by decide)

end Nerea.Agents
