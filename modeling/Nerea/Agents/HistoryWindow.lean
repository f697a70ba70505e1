import Mathlib.Data.List.TakeWhile
import Nerea.Agents.Manager

/-!
# The window of the log

The messages sent are at most one notice and the window, a last part of the log. It starts
at the first message within the budget that is not the result of a tool, so it is empty
when there is none.
-/

set_option autoImplicit false

namespace Nerea.Agents

@[simp] theorem chars_nil : chars [] = 0 := rfl

@[simp] theorem chars_cons (m : AgentMsg) (log : List AgentMsg) :
    chars (m :: log) = Utf16.length m.content + chars log := rfl

@[simp] theorem chars_append (log log' : List AgentMsg) :
    chars (log ++ log') = chars log + chars log' := by
  simp [chars]

theorem chars_reverse (log : List AgentMsg) : chars log.reverse = chars log := by
  induction log with
  | nil => rfl
  | cons m log ih =>
    rw [List.reverse_cons, chars_append, ih, chars_cons, chars_cons, chars_nil]
    omega

theorem chars_drop (log : List AgentMsg) (i : ℕ) :
    chars (log.drop i) = chars (log.reverse.take (log.length - i)) := by
  rw [← chars_reverse (log.drop i), List.reverse_drop]

theorem fitting_le_length (older : List AgentMsg) (acc : ℕ) :
    fitting older acc ≤ older.length := by
  induction older generalizing acc with
  | nil => exact Nat.le_refl 0
  | cons m older ih =>
    unfold fitting
    split
    · have h := ih (acc + Utf16.length m.content)
      rw [List.length_cons]
      omega
    · exact Nat.zero_le _

/-- Exactly the prefixes of the reversed log that are within the budget fit. -/
theorem le_fitting_iff (older : List AgentMsg) {acc n : ℕ} (hacc : acc ≤ kHistMaxChars)
    (hn : n ≤ older.length) :
    n ≤ fitting older acc ↔ acc + chars (older.take n) ≤ kHistMaxChars := by
  induction older generalizing acc n with
  | nil =>
    rw [List.length_nil] at hn
    have h0 : n = 0 := by omega
    subst h0
    simpa [fitting] using hacc
  | cons m older ih =>
    cases n with
    | zero => simpa using hacc
    | succ n =>
      rw [List.length_cons] at hn
      unfold fitting
      split
      · rename_i hm
        have h := ih hm (n := n) (by omega)
        rw [List.take_succ_cons, chars_cons]
        omega
      · rename_i hm
        rw [List.take_succ_cons, chars_cons]
        omega

/-- Where the messages within the budget start. -/
def inicioPresupuesto (log : List AgentMsg) : ℕ := log.length - fitting log.reverse 0

theorem inicioPresupuesto_le (log : List AgentMsg) : inicioPresupuesto log ≤ log.length :=
  Nat.sub_le _ _

theorem inicioPresupuesto_le_iff (log : List AgentMsg) {i : ℕ} (hi : i ≤ log.length) :
    inicioPresupuesto log ≤ i ↔ chars (log.drop i) ≤ kHistMaxChars := by
  have hle : fitting log.reverse 0 ≤ log.length := by
    have h := fitting_le_length log.reverse 0
    rwa [List.length_reverse] at h
  have hiff : log.length - i ≤ fitting log.reverse 0 ↔
      0 + chars (log.reverse.take (log.length - i)) ≤ kHistMaxChars :=
    le_fitting_iff log.reverse (Nat.zero_le _) (by rw [List.length_reverse]; omega)
  rw [chars_drop, ← Nat.zero_add (chars _), ← hiff]
  unfold inicioPresupuesto
  omega

theorem drop_inicioVentana (log : List AgentMsg) : log.drop (inicioVentana log) =
    (log.drop (inicioPresupuesto log)).dropWhile (·.role == "tool") := by
  have hdrop : ∀ l : List AgentMsg, l.drop (l.takeWhile (·.role == "tool")).length =
      l.dropWhile (·.role == "tool") := by
    intro l
    conv => lhs; arg 2; rw [← List.takeWhile_append_dropWhile (p := (·.role == "tool")) (l := l)]
    exact List.drop_left
  unfold inicioVentana
  rw [← List.drop_drop, hdrop]
  rfl

/-- The messages of the log that are sent. -/
def ventana (log : List AgentMsg) : List AgentMsg :=
  if chars log ≤ kHistMaxChars then log else log.drop (inicioVentana log)

theorem ventana_suffix (log : List AgentMsg) : ventana log <:+ log := by
  unfold ventana
  split
  · exact List.suffix_refl log
  · exact List.drop_suffix _ log

/-- A log all of which fits, or that has a message, not the result of a tool, that fits
together with all that follows it. -/
def Cabe (log : List AgentMsg) : Prop :=
  chars log ≤ kHistMaxChars ∨
    ∃ antes m despues, log = antes ++ m :: despues ∧ m.role ≠ "tool" ∧
      chars (m :: despues) ≤ kHistMaxChars

theorem drop_inicioVentana_ne_nil_iff (log : List AgentMsg) :
    log.drop (inicioVentana log) ≠ [] ↔
      ∃ antes m despues, log = antes ++ m :: despues ∧ m.role ≠ "tool" ∧
        chars (m :: despues) ≤ kHistMaxChars := by
  rw [drop_inicioVentana, Ne, List.dropWhile_eq_nil_iff]
  constructor
  · intro h
    obtain ⟨m, hm, hrole⟩ : ∃ m ∈ log.drop (inicioPresupuesto log), ¬ (m.role == "tool") := by
      simpa using h
    obtain ⟨antes, despues, hsplit⟩ := List.append_of_mem hm
    refine ⟨log.take (inicioPresupuesto log) ++ antes, m, despues, ?_, by simpa using hrole, ?_⟩
    · rw [List.append_assoc, ← hsplit, List.take_append_drop]
    · have hdrop := (inicioPresupuesto_le_iff log (inicioPresupuesto_le log)).mp (Nat.le_refl _)
      rw [hsplit, chars_append] at hdrop
      omega
  · intro hchars
    rcases hchars with ⟨antes, m, despues, rfl, hrole, hchars⟩
    have hdrop : (antes ++ m :: despues).drop antes.length = m :: despues := by simp
    have hstart : inicioPresupuesto (antes ++ m :: despues) ≤ antes.length := by
      rw [inicioPresupuesto_le_iff _ (by simp), hdrop]
      exact hchars
    intro h
    have hm : m ∈ (antes ++ m :: despues).drop (inicioPresupuesto (antes ++ m :: despues)) := by
      rw [List.drop_append_of_le_length hstart]
      exact List.mem_append_right _ List.mem_cons_self
    exact hrole (by simpa using h m hm)

theorem ventana_ne_nil_iff {log : List AgentMsg} (hlog : log ≠ []) :
    ventana log ≠ [] ↔ Cabe log := by
  unfold ventana Cabe
  split
  · rename_i h
    exact ⟨fun _ => Or.inl h, fun _ => hlog⟩
  · rename_i h
    rw [drop_inicioVentana_ne_nil_iff]
    exact ⟨Or.inr, fun hc => hc.resolve_left h⟩

/-- The messages, when a summary that has to be asked for ends with `resumen`. -/
def Preparacion.enviados : Preparacion → Option String → List Json
  | .lista mensajes, _ => mensajes
  | .resumir poda, resumen => poda.mensajes resumen

theorem Poda.mensajes_eq (p : Poda) (resumen : Option String) :
    ∃ aviso, p.mensajes resumen = systemMsg aviso :: p.ventana := by
  cases resumen with
  | none => exact ⟨_, rfl⟩
  | some r => exact ⟨_, rfl⟩

/-- At most one notice, and the window. -/
theorem enviados_eq (d : Dart) (log : List AgentMsg) (histModo : HistModo)
    (histResumenCache : String) (histCubiertoChars : ℤ) (resumen : Option String) :
    ∃ avisos : List String, avisos.length ≤ 1 ∧
      (mensajesParaEnviar d log histModo histResumenCache histCubiertoChars).enviados resumen =
        avisos.map systemMsg ++ (ventana log).map (mapMsg d) := by
  have hpoda : ∀ (p : Poda) (r : Option String),
      p.ventana = (log.drop (inicioVentana log)).map (mapMsg d) →
      ∃ avisos : List String, avisos.length ≤ 1 ∧ p.mensajes r =
        avisos.map systemMsg ++ (log.drop (inicioVentana log)).map (mapMsg d) := by
    intro p r hp
    obtain ⟨aviso, haviso⟩ := p.mensajes_eq r
    exact ⟨[aviso], Nat.le_refl 1, by rw [haviso, hp]; rfl⟩
  unfold mensajesParaEnviar ventana
  by_cases htotal : chars log ≤ kHistMaxChars
  · simp only [htotal, if_true]
    exact ⟨[], Nat.zero_le 1, rfl⟩
  · simp only [htotal, if_false]
    split
    · exact ⟨[], Nat.zero_le 1, rfl⟩
    · split
      · exact hpoda _ none rfl
      · exact hpoda _ resumen rfl
      · split
        · exact hpoda _ resumen rfl
        · exact hpoda _ (some histResumenCache) rfl

/-- The newest message is sent exactly when some message that is not the result of a tool
fits together with all that follows it. -/
theorem newest_message_sent_iff (d : Dart) (log : List AgentMsg) (hlog : log ≠ [])
    (histModo : HistModo) (histResumenCache : String) (histCubiertoChars : ℤ)
    (resumen : Option String) :
    (∃ avisos : List String, avisos.length ≤ 1 ∧
      (mensajesParaEnviar d log histModo histResumenCache histCubiertoChars).enviados resumen =
        avisos.map systemMsg ++ (ventana log).map (mapMsg d)) ∧
    ventana log <:+ log ∧ (ventana log ≠ [] ↔ Cabe log) ∧
    ((ventana log).getLast? = log.getLast? ↔ Cabe log) := by
  refine ⟨enviados_eq d log histModo histResumenCache histCubiertoChars resumen,
    ventana_suffix log, ventana_ne_nil_iff hlog, ?_⟩
  rw [← ventana_ne_nil_iff hlog]
  obtain ⟨antes, hantes⟩ := ventana_suffix log
  constructor
  · intro hlast hnil
    rw [hnil, List.getLast?_nil] at hlast
    exact hlog (List.getLast?_eq_none_iff.mp hlast.symm)
  · intro hne
    have h := List.getLast?_append_of_ne_nil antes hne
    rw [hantes] at h
    exact h.symm

theorem length_replicate (n : ℕ) :
    Utf16.length (String.ofList (List.replicate n 'a')) = n := by
  have h : Utf16.units 'a' = 1 := rfl
  rw [Utf16.length, String.toList_ofList, List.map_replicate, List.sum_replicate_nat, h,
    Nat.mul_one]

/-- A reply, the result of the tool it calls, and a message. -/
def demoLog (content : String) : List AgentMsg :=
  [⟨"user", "leé el archivo", none⟩, ⟨"assistant", content, none⟩,
    ⟨"tool", "contenido", some "read_file"⟩, ⟨"user", "gracias", none⟩]

theorem cabe_demoLog (content : String) : Cabe (demoLog content) :=
  Or.inr ⟨(demoLog content).take 3, ⟨"user", "gracias", none⟩, [], rfl, by decide, by decide⟩

theorem getLast?_demoLog (content : String) :
    (demoLog content).getLast? = some ⟨"user", "gracias", none⟩ := rfl

theorem lt_chars_demoLog {content : String} (h : kHistMaxChars < Utf16.length content) :
    kHistMaxChars < chars (demoLog content) := by
  rw [demoLog, chars_cons, chars_cons]
  exact h.trans_le ((Nat.le_add_right _ _).trans (Nat.le_add_left _ _))

/-- The reply is above the budget, and the result of the tool is not sent without it. -/
theorem newest_message_sent_demo :
    kHistMaxChars < chars (demoLog (String.ofList (List.replicate 24001 'a'))) ∧
    (ventana (demoLog (String.ofList (List.replicate 24001 'a')))).getLast? =
      some ⟨"user", "gracias", none⟩ := by
  constructor
  · apply lt_chars_demoLog
    rw [length_replicate]
    decide
  · have hlast := (newest_message_sent_iff AgentManager.ejemplo
      (demoLog (String.ofList (List.replicate 24001 'a'))) (List.cons_ne_nil _ _) .ventana "" 0
      none).2.2.2.mpr (cabe_demoLog _)
    exact hlast.trans (getLast?_demoLog _)

/-- A message above the budget and no other: the request has only the notice. -/
theorem enviados_of_long (d : Dart) {m : AgentMsg} (h : kHistMaxChars < Utf16.length m.content) :
    ventana [m] = [] ∧ (mensajesParaEnviar d [m] .ventana "" 0).enviados none =
      [systemMsg ("[se omitieron " ++ toString 1 ++
        " mensajes anteriores por límite de contexto]")] := by
  have hfit : fitting [m].reverse 0 = 0 := by
    rw [List.reverse_singleton]
    unfold fitting
    rw [if_neg (by omega)]
  have hinicio : inicioVentana [m] = 1 := by
    unfold inicioVentana
    rw [hfit]
    rfl
  have htotal : ¬ chars [m] ≤ kHistMaxChars := by
    rw [chars_cons, chars_nil]
    omega
  unfold mensajesParaEnviar ventana
  simp only [htotal, if_false, hinicio]
  exact ⟨rfl, rfl⟩

theorem long_task_not_sent :
    ventana [AgentMsg.mk "user" (String.ofList (List.replicate 24001 'a')) none] = [] ∧
    (mensajesParaEnviar AgentManager.ejemplo
      [AgentMsg.mk "user" (String.ofList (List.replicate 24001 'a')) none]
      .ventana "" 0).enviados none =
    [systemMsg ("[se omitieron " ++ toString 1 ++
      " mensajes anteriores por límite de contexto]")] := by
  apply enviados_of_long
  rw [length_replicate]
  decide

end Nerea.Agents
