import Nerea.Agents.HistoryWindow
import Nerea.Agents.LoopFrame

/-!
# The memory of an agent in hybrid mode

The summary of what is cut off is kept and asked for again only when what is cut off has
grown by half. The window never starts earlier than before, so what a summary was computed
from stays cut off.
-/

set_option autoImplicit false

namespace Nerea.Agents

/-- Where the messages that are sent start. -/
def inicio (log : List AgentMsg) : ℕ :=
  if chars log ≤ kHistMaxChars then 0 else inicioVentana log

def evictados (log : List AgentMsg) : List AgentMsg := log.take (inicio log)

theorem drop_inicio (log : List AgentMsg) : log.drop (inicio log) = ventana log := by
  unfold inicio ventana
  split
  · exact List.drop_zero
  · rfl

theorem evictados_append_ventana (log : List AgentMsg) : evictados log ++ ventana log = log := by
  unfold evictados
  rw [← drop_inicio, List.take_append_drop]

theorem chars_ventana_le (log : List AgentMsg) : chars (ventana log) ≤ kHistMaxChars := by
  unfold ventana
  split
  · assumption
  · have hbudget := (inicioPresupuesto_le_iff log (inicioPresupuesto_le log)).mp (Nat.le_refl _)
    rw [drop_inicioVentana]
    have hsplit := List.takeWhile_append_dropWhile (p := (·.role == "tool"))
      (l := log.drop (inicioPresupuesto log))
    rw [← hsplit, chars_append] at hbudget
    omega

theorem chars_mono {log log' : List AgentMsg} (h : log <+: log') : chars log ≤ chars log' := by
  obtain ⟨despues, rfl⟩ := h
  rw [chars_append]
  omega

theorem inicioPresupuesto_mono {log log' : List AgentMsg} (h : log <+: log') :
    inicioPresupuesto log ≤ inicioPresupuesto log' := by
  by_cases hlt : inicioPresupuesto log' ≤ log.length
  · rw [inicioPresupuesto_le_iff log hlt]
    have hbudget :=
      (inicioPresupuesto_le_iff log' (inicioPresupuesto_le log')).mp (Nat.le_refl _)
    obtain ⟨despues, rfl⟩ := h
    rw [List.drop_append_of_le_length hlt, chars_append] at hbudget
    omega
  · have hle := inicioPresupuesto_le log
    omega

theorem inicioVentana_eq (log : List AgentMsg) : inicioVentana log = inicioPresupuesto log +
    ((log.drop (inicioPresupuesto log)).takeWhile (·.role == "tool")).length :=
  rfl

theorem inicioPresupuesto_le_inicioVentana (log : List AgentMsg) :
    inicioPresupuesto log ≤ inicioVentana log :=
  Nat.le_add_right _ _

theorem inicioVentana_le (log : List AgentMsg) : inicioVentana log ≤ log.length := by
  obtain ⟨resto, hresto⟩ :=
    List.takeWhile_prefix (l := log.drop (inicioPresupuesto log)) (·.role == "tool")
  have hlength := congrArg List.length hresto
  rw [List.length_append, List.length_drop] at hlength
  have hle := inicioPresupuesto_le log
  rw [inicioVentana_eq]
  omega

/-- The window does not start with the result of a tool. -/
theorem role_of_inicioVentana {log : List AgentMsg} {m : AgentMsg}
    (hm : log[inicioVentana log]? = some m) : m.role ≠ "tool" := by
  rw [← List.head?_drop, drop_inicioVentana] at hm
  have hhead := List.head?_dropWhile_not (·.role == "tool") (log.drop (inicioPresupuesto log))
  rw [hm] at hhead
  simpa using hhead

/-- From the budget to the window there are only results of tools. -/
theorem role_of_lt_inicioVentana {log : List AgentMsg} {i : ℕ} {m : AgentMsg}
    (hi : inicioPresupuesto log ≤ i) (hlt : i < inicioVentana log) (hm : log[i]? = some m) :
    m.role = "tool" := by
  have hlength : i - inicioPresupuesto log <
      ((log.drop (inicioPresupuesto log)).takeWhile (·.role == "tool")).length := by
    rw [inicioVentana_eq] at hlt
    omega
  have hget : ((log.drop (inicioPresupuesto log)).takeWhile
      (·.role == "tool"))[i - inicioPresupuesto log]? = some m := by
    obtain ⟨resto, hresto⟩ :=
      List.takeWhile_prefix (l := log.drop (inicioPresupuesto log)) (·.role == "tool")
    have happend := (List.getElem?_append_left hlength).symm.trans
      (congrArg (·[i - inicioPresupuesto log]?) hresto)
    rw [happend, List.getElem?_drop, Nat.add_sub_cancel' hi]
    exact hm
  simpa using List.mem_takeWhile_imp (List.mem_of_getElem? hget)

theorem inicioVentana_mono {log log' : List AgentMsg} (h : log <+: log') :
    inicioVentana log ≤ inicioVentana log' := by
  by_contra hlt
  have hlength := inicioVentana_le log
  have hi : inicioVentana log' < log.length := by omega
  have hbudget : inicioPresupuesto log ≤ inicioVentana log' :=
    (inicioPresupuesto_mono h).trans (inicioPresupuesto_le_inicioVentana log')
  have hm : log[inicioVentana log']? = some log[inicioVentana log'] :=
    List.getElem?_eq_getElem hi
  have hm' : log'[inicioVentana log']? = some log[inicioVentana log'] := by
    obtain ⟨despues, rfl⟩ := h
    rw [List.getElem?_append_left hi]
    exact hm
  exact role_of_inicioVentana hm' (role_of_lt_inicioVentana hbudget (by omega) hm)

theorem inicio_mono {log log' : List AgentMsg} (h : log <+: log') : inicio log ≤ inicio log' := by
  have hchars := chars_mono h
  have hventana := inicioVentana_mono h
  unfold inicio
  split
  · exact Nat.zero_le _
  · split
    · omega
    · exact hventana

theorem evictados_mono {log log' : List AgentMsg} (h : log <+: log') :
    evictados log <+: evictados log' := by
  have hinicio := inicio_mono h
  have htake : log.take (inicio log) <+: log' := (List.take_prefix _ log).trans h
  apply List.prefix_of_prefix_length_le htake (List.take_prefix _ log')
  rw [List.length_take, List.length_take]
  have hlength := h.length_le
  omega

theorem chars_evictados (log : List AgentMsg) :
    chars (evictados log) = chars log - chars (ventana log) := by
  have hsplit := congrArg chars (evictados_append_ventana log)
  rw [chars_append] at hsplit
  omega

theorem evictados_eq_nil {log : List AgentMsg} (h : chars log ≤ kHistMaxChars) :
    evictados log = [] := by
  unfold evictados inicio
  rw [if_pos h, List.take_zero]

theorem evictados_ne_nil {log : List AgentMsg} (h : kHistMaxChars < chars log) :
    evictados log ≠ [] := by
  intro hnil
  have hventana := chars_ventana_le log
  have hchars := chars_evictados log
  rw [hnil, chars_nil] at hchars
  omega

/-- What a request that may need a summary cuts off and keeps. -/
def podaDe (d : Dart) (log : List AgentMsg) : Poda where
  evictados := evictados log
  evictChars := chars (evictados log)
  ventana := (ventana log).map (mapMsg d)
  hibrido := true

theorem mensajesParaEnviar_corto (d : Dart) {log : List AgentMsg} (h : chars log ≤ kHistMaxChars)
    (histModo : HistModo) (histResumenCache : String) (histCubiertoChars : ℤ) :
    mensajesParaEnviar d log histModo histResumenCache histCubiertoChars =
      .lista ((ventana log).map (mapMsg d)) := by
  unfold mensajesParaEnviar ventana
  simp only [h, if_true]

/-- What an agent counts itself is not negative, and halved as a natural number is. -/
theorem tdiv_lt_iff (n m : ℕ) : ((n : ℤ) * 3).tdiv 2 < m ↔ n * 3 / 2 < m := by
  have hcast : ((n : ℤ) * 3).tdiv 2 = ((n * 3 / 2 : ℕ) : ℤ) := by
    rw [Int.tdiv_eq_ediv_of_nonneg (by omega)]
    push_cast
    rfl
  rw [hcast, Int.ofNat_lt]

theorem mensajesParaEnviar_hibrido (d : Dart) {log : List AgentMsg}
    (h : kHistMaxChars < chars log) (histResumenCache : String) (histCubiertoChars : ℕ) :
    mensajesParaEnviar d log .hibrido histResumenCache histCubiertoChars =
      if histResumenCache = "" ∨ histCubiertoChars * 3 / 2 < chars (evictados log) then
        .resumir (podaDe d log)
      else .lista ((podaDe d log).mensajes (some histResumenCache)) := by
  have hinicio : inicioVentana log = inicio log := by
    unfold inicio
    rw [if_neg (Nat.not_le.mpr h)]
  have hne : (evictados log).isEmpty = false := by
    rw [List.isEmpty_eq_false_iff]
    exact evictados_ne_nil h
  unfold mensajesParaEnviar podaDe
  rw [chars_evictados]
  simp only [Nat.not_le.mpr h, if_false, hinicio, drop_inicio]
  change (if (evictados log).isEmpty then _ else _) = _
  rw [if_neg (by rw [hne]; exact Bool.false_ne_true)]
  simp only [gt_iff_lt, tdiv_lt_iff]
  rfl

/-- What is recorded of a request: the log it was made for, the covered characters kept with the
summary and what that was computed from, and whether a refresh was due and failed. -/
structure Uso where
  log : List AgentMsg
  mensajes : List Json
  resumen : Option String
  resumido : List AgentMsg
  cubierto : ℕ
  fallido : Bool

/-- The log of an agent and what it keeps of what is cut off. `enVuelo`: the request that
awaits a summary, with its log. What is only recorded: what the summary was computed from, and
the requests, newest first. -/
structure Memoria where
  log : List AgentMsg
  histResumenCache : String
  histCubiertoChars : ℕ
  enVuelo : Option (List AgentMsg × Poda)
  resumido : List AgentMsg
  usos : List Uso

namespace Memoria

inductive Evento where
  | append (m : AgentMsg)
  /-- A request starts; one that starts while another awaits its summary is not made. -/
  | pide
  /-- The request for a summary ends; without a provider or a key it is none. -/
  | resumen (res : Respuesta)

variable (d : Dart) (s : Memoria)

def usa (log : List AgentMsg) (mensajes : List Json) (fallido : Bool) : Memoria :=
  { s with usos :=
      ⟨log, mensajes, nonempty s.histResumenCache, s.resumido, s.histCubiertoChars, fallido⟩ ::
        s.usos }

def pide : Memoria :=
  match s.enVuelo with
  | some _ => s
  | none =>
    match mensajesParaEnviar d s.log .hibrido s.histResumenCache s.histCubiertoChars with
    | .lista mensajes => s.usa s.log mensajes false
    | .resumir poda => { s with enVuelo := some (s.log, poda) }

def storeResumen (poda : Poda) (resumen : Option String) : Memoria :=
  match resumen with
  | none => s
  | some r =>
    { s with
      histResumenCache := r
      histCubiertoChars := poda.evictChars
      resumido := poda.evictados }

def handleSummary (log : List AgentMsg) (poda : Poda) (resumen : Option String) : Memoria :=
  let s := { s.storeResumen poda resumen with enVuelo := none }
  s.usa log (poda.mensajes (nonempty s.histResumenCache)) resumen.isNone

def paso : Evento → Memoria
  | .append m => { s with log := s.log ++ [m] }
  | .pide => s.pide d
  | .resumen res =>
    match s.enVuelo with
    | none => s
    | some (log, poda) => s.handleSummary log poda (resumenDe d res)

/-- Any log, of which nothing has been summarised. -/
def inicial (log : List AgentMsg) : Memoria where
  log := log
  histResumenCache := ""
  histCubiertoChars := 0
  enVuelo := none
  resumido := []
  usos := []

end Memoria

/-- The messages are the window within the budget, after what the summary says when something
is cut off; it was computed from the first part of what is, and covers two thirds of it unless
its refresh failed. -/
structure Uso.Correcto (d : Dart) (u : Uso) : Prop where
  presupuesto : chars (ventana u.log) ≤ kHistMaxChars
  enviados : u.mensajes = if chars u.log ≤ kHistMaxChars then (ventana u.log).map (mapMsg d)
    else (podaDe d u.log).mensajes u.resumen
  resumido : u.resumen ≠ none → u.resumido <+: evictados u.log ∧ u.cubierto = chars u.resumido
  cubre : u.fallido = false → chars (evictados u.log) ≤ u.cubierto * 3 / 2

namespace Memoria

variable {d : Dart} {s : Memoria}

/-- Every request is as it should, and no window starts before that of an earlier one. -/
structure Correcta (d : Dart) (s : Memoria) : Prop where
  usos : ∀ u ∈ s.usos, u.Correcto d
  orden : s.usos.Pairwise fun u u' => inicio u'.log ≤ inicio u.log

/-- What the summary was computed from stays cut off, also at the request that awaits another. -/
structure Coherente (d : Dart) (s : Memoria) : Prop where
  correcta : s.Correcta d
  logs : ∀ u ∈ s.usos, u.log <+: s.log
  resumido : s.histResumenCache ≠ "" →
    s.resumido <+: evictados s.log ∧ s.histCubiertoChars = chars s.resumido
  enVuelo : ∀ log poda, s.enVuelo = some (log, poda) →
    poda = podaDe d log ∧ kHistMaxChars < chars log ∧ log <+: s.log ∧
      (s.histResumenCache ≠ "" → s.resumido <+: evictados log) ∧ ∀ u ∈ s.usos, u.log <+: log

theorem Coherente.inicial (d : Dart) (log : List AgentMsg) : Coherente d (inicial log) where
  correcta := ⟨fun _ hu => (nomatch hu), List.Pairwise.nil⟩
  logs := fun _ hu => (nomatch hu)
  resumido := fun h => absurd rfl h
  enVuelo := fun _ _ h => (nomatch h)

theorem Coherente.append (hs : Coherente d s) (m : AgentMsg) :
    Coherente d { s with log := s.log ++ [m] } where
  correcta := ⟨hs.correcta.usos, hs.correcta.orden⟩
  logs := fun u hu => (hs.logs u hu).trans (List.prefix_append _ _)
  resumido := by
    intro h
    obtain ⟨hresumido, hcubierto⟩ := hs.resumido h
    exact ⟨hresumido.trans (evictados_mono (List.prefix_append _ _)), hcubierto⟩
  enVuelo := by
    intro log poda h
    obtain ⟨hpoda, hlargo, hlog, hresumido, hlogs⟩ := hs.enVuelo log poda h
    exact ⟨hpoda, hlargo, hlog.trans (List.prefix_append _ _), hresumido, hlogs⟩

theorem nonempty_ne_none {text : String} (h : nonempty text ≠ none) : text ≠ "" := by
  intro heq
  exact h (if_pos heq)

/-- A request is recorded, and none awaits a summary. -/
theorem Coherente.usa (hs : Coherente d s) {log : List AgentMsg} {mensajes : List Json}
    {fallido : Bool} (hnone : s.enVuelo = none) (hlog : log <+: s.log)
    (hlogs : ∀ u ∈ s.usos, u.log <+: log)
    (hmensajes : mensajes = if chars log ≤ kHistMaxChars then (ventana log).map (mapMsg d)
      else (podaDe d log).mensajes (nonempty s.histResumenCache))
    (hresumido : s.histResumenCache ≠ "" → s.resumido <+: evictados log)
    (hcubre : fallido = false → chars (evictados log) ≤ s.histCubiertoChars * 3 / 2) :
    Coherente d (s.usa log mensajes fallido) where
  correcta := by
    constructor
    · intro u hu
      rcases List.mem_cons.mp hu with rfl | hu
      · refine ⟨chars_ventana_le log, hmensajes, ?_, hcubre⟩
        intro h
        have hne := nonempty_ne_none h
        exact ⟨hresumido hne, (hs.resumido hne).2⟩
      · exact hs.correcta.usos u hu
    · exact List.Pairwise.cons (fun u hu => inicio_mono (hlogs u hu)) hs.correcta.orden
  logs := by
    intro u hu
    rcases List.mem_cons.mp hu with rfl | hu
    · exact hlog
    · exact hs.logs u hu
  resumido := hs.resumido
  enVuelo := by
    intro log' poda h
    exact absurd (hnone.symm.trans h) (Option.some_ne_none _).symm

theorem Coherente.pide (hs : Coherente d s) : Coherente d (s.pide d) := by
  unfold Memoria.pide
  cases hnone : s.enVuelo with
  | some enVuelo => exact hs
  | none =>
    dsimp only
    by_cases hcorto : chars s.log ≤ kHistMaxChars
    · rw [mensajesParaEnviar_corto d hcorto]
      apply hs.usa hnone (List.prefix_refl _) hs.logs
      · rw [if_pos hcorto]
      · exact fun h => (hs.resumido h).1
      · intro _
        rw [evictados_eq_nil hcorto, chars_nil]
        exact Nat.zero_le _
    · have hlargo := Nat.not_le.mp hcorto
      rw [mensajesParaEnviar_hibrido d hlargo]
      by_cases hdue : s.histResumenCache = "" ∨
          s.histCubiertoChars * 3 / 2 < chars (evictados s.log)
      · -- the request awaits its summary
        rw [if_pos hdue]
        refine ⟨⟨hs.correcta.usos, hs.correcta.orden⟩, hs.logs, hs.resumido, ?_⟩
        intro log poda h
        obtain ⟨rfl, rfl⟩ := Prod.mk.inj (Option.some.inj h)
        exact ⟨rfl, hlargo, List.prefix_refl _, fun h => (hs.resumido h).1, hs.logs⟩
      · rw [if_neg hdue]
        obtain ⟨hcache, hcubre⟩ := not_or.mp hdue
        apply hs.usa hnone (List.prefix_refl _) hs.logs
        · rw [if_neg hcorto, nonempty, if_neg hcache]
        · exact fun h => (hs.resumido h).1
        · exact fun _ => Nat.not_lt.mp hcubre

theorem Coherente.handleSummary (hs : Coherente d s) {log : List AgentMsg} {poda : Poda}
    (h : s.enVuelo = some (log, poda)) (resumen : Option String) :
    Coherente d (s.handleSummary log poda resumen) := by
  obtain ⟨rfl, hlargo, hlog, hresumido, hlogs⟩ := hs.enVuelo log poda h
  have hmensajes : ∀ cache : String, (podaDe d log).mensajes (nonempty cache) =
      if chars log ≤ kHistMaxChars then (ventana log).map (mapMsg d)
      else (podaDe d log).mensajes (nonempty cache) := by
    intro cache
    rw [if_neg (Nat.not_le.mpr hlargo)]
  cases resumen with
  | none =>
    -- the summary that is kept is used as it is
    have hkept : Coherente d { s with enVuelo := none } :=
      ⟨⟨hs.correcta.usos, hs.correcta.orden⟩, hs.logs, hs.resumido, fun _ _ h => (nomatch h)⟩
    exact hkept.usa rfl hlog hlogs (hmensajes _) hresumido (fun h => (nomatch h))
  | some r =>
    have hnew : Coherente d { s.storeResumen (podaDe d log) (some r) with enVuelo := none } :=
      ⟨⟨hs.correcta.usos, hs.correcta.orden⟩, hs.logs, fun _ => ⟨evictados_mono hlog, rfl⟩,
        fun _ _ h => (nomatch h)⟩
    apply hnew.usa rfl hlog hlogs (hmensajes _)
    · exact fun _ => List.prefix_refl _
    · intro _
      change chars (evictados log) ≤ chars (evictados log) * 3 / 2
      omega

theorem Coherente.paso (hs : Coherente d s) (e : Evento) : Coherente d (s.paso d e) := by
  cases e with
  | append m => exact hs.append m
  | pide => exact hs.pide
  | resumen res =>
    unfold Memoria.paso
    cases h : s.enVuelo with
    | none => exact hs
    | some request => exact hs.handleSummary h _

/-- The memory is that of the agent, which is in hybrid mode. -/
structure De (s : Memoria) (a : Agent) : Prop where
  log : a.log = s.log
  histModo : a.histModo = .hibrido
  histResumenCache : a.histResumenCache = s.histResumenCache
  histCubiertoChars : a.histCubiertoChars = s.histCubiertoChars

/-- The activation awaits the summary of the request in flight, or has the messages of the
newest request. -/
def Aguarda (s : Memoria) : Pc → Prop
  | .resumiendo _ _ _ poda => ∃ log, s.enVuelo = some (log, poda)
  | .mensajes _ mensajes =>
    s.enVuelo = none ∧ ∃ sistema, ∃ u ∈ s.usos.head?, mensajes = sistema :: u.mensajes
  | _ => False

variable {t : AgentManager} {ref : Ref}

theorem De.addLog (h : De s (t.heap ref)) (m : AgentMsg) :
    De (s.paso d (.append m)) ((t.addLog ref m).heap ref) := by
  unfold AgentManager.addLog
  rw [AgentManager.heap_modify_self]
  exact ⟨congrArg (· ++ [m]) h.log, h.histModo, h.histResumenCache, h.histCubiertoChars⟩

theorem De.storeResumen (h : De s (t.heap ref)) (poda : Poda) (resumen : Option String) :
    De (s.storeResumen poda resumen) ((t.storeResumen ref poda resumen).heap ref) := by
  cases resumen with
  | none => exact h
  | some r =>
    unfold AgentManager.storeResumen
    rw [AgentManager.heap_modify_self]
    exact ⟨h.log, h.histModo, rfl, rfl⟩

/-- What an activation does up to its own wait is a request. -/
theorem De.prepare (h : De s (t.heap ref)) (hnone : s.enVuelo = none) (k : LoopId)
    (key : String) : De (s.pide d) ((t.prepare d k ref key).heap ref) ∧
      ∃ pc, (t.prepare d k ref key).loops k = some ⟨ref, pc⟩ ∧ (s.pide d).Aguarda pc := by
  unfold AgentManager.prepare Memoria.pide
  dsimp only
  rw [h.log, h.histModo, h.histResumenCache, h.histCubiertoChars, hnone]
  dsimp only
  cases mensajesParaEnviar d s.log .hibrido s.histResumenCache s.histCubiertoChars with
  | lista mensajes =>
    refine ⟨⟨h.log, h.histModo, h.histResumenCache, h.histCubiertoChars⟩, _,
      AgentManager.loops_await_self _ k ref _, ?_⟩
    exact ⟨hnone, _, _, rfl, rfl⟩
  | resumir poda =>
    cases t.startResumen ref with
    | none =>
      exact ⟨⟨h.log, h.histModo, h.histResumenCache, h.histCubiertoChars⟩, _,
        AgentManager.loops_await_self _ k ref _, s.log, rfl⟩
    | some request =>
      exact ⟨⟨h.log, h.histModo, h.histResumenCache, h.histCubiertoChars⟩, _,
        AgentManager.loops_await_self _ k ref _, s.log, rfl⟩

/-- The end of the summary an activation awaits is that of the request in flight; one that
was not asked for is none. -/
theorem De.resumen (h : De s (t.heap ref)) (hs : Coherente d s) {k : LoopId} {key : String}
    {sistema : Json} {pedido : Bool} {poda : Poda}
    (hpc : t.loops k = some ⟨ref, .resumiendo key sistema pedido poda⟩)
    (hespera : s.Aguarda (.resumiendo key sistema pedido poda)) (res : Respuesta) :
    ∃ res', De (s.paso d (.resumen res')) ((t.paso d (.resumen k res)).heap ref) ∧
      ∃ pc, (t.paso d (.resumen k res)).loops k = some ⟨ref, pc⟩ ∧
        (s.paso d (.resumen res')).Aguarda pc := by
  obtain ⟨log, hvuelo⟩ := hespera
  have hhibrido : poda.hibrido = true := by
    rw [(hs.enVuelo log poda hvuelo).1]
    rfl
  have hres : ∃ res', resumenDe d res' = if pedido then resumenDe d res else none := by
    cases pedido with
    | true => exact ⟨res, rfl⟩
    | false => exact ⟨.fallo "", rfl⟩
  obtain ⟨res', hres⟩ := hres
  have hstore := h.storeResumen poda (resumenDe d res')
  refine ⟨res', ?_⟩
  unfold AgentManager.paso Memoria.paso
  simp only [hpc, hvuelo, ← hres]
  unfold AgentManager.handleSummary Memoria.handleSummary
  rw [if_pos hhibrido]
  refine ⟨⟨hstore.log, hstore.histModo, hstore.histResumenCache, hstore.histCubiertoChars⟩, _,
    AgentManager.loops_await_self _ k ref _, rfl, sistema, _, rfl, ?_⟩
  rw [hstore.histResumenCache]

/-- In every run of appends and requests. -/
theorem hybrid_memory (d : Dart) (log : List AgentMsg) (es : List Evento) :
    Run.Always (paso d) (Correcta d) (inicial log) es := by
  have hcoherente : Run.Always (Memoria.paso d) (Coherente d) (Memoria.inicial log) es :=
    Run.always_of_invariant (fun _ e hs => hs.paso e) (Coherente.inicial d log) es
  exact hcoherente.imp fun _ hs => hs.correcta

end Memoria

end Nerea.Agents
