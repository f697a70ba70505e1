import Nerea.Colab.Frames
import Nerea.Shared.Run
import Mathlib.Data.List.Basic
import Mathlib.Logic.Function.Basic

/-!
# The queue of pockets

The pockets of the screen of tasks run one after another: a call of the kernel is in flight
or the first pending pocket is looked for, and a pocket whose task is gone fails at once.
The list changes while a call is in flight, and the connection comes and goes.
-/

set_option autoImplicit false

namespace Nerea.Colab.Tareas

structure ColabTask where
  id : String
  code : String := ""
  hasArg : Bool := false

inductive PocketStatus where
  | pendiente
  | running
  | ok
  | error
  | otro (texto : String)
deriving DecidableEq

structure ColabPocket where
  taskId : String
  argumento : String := ""
  status : PocketStatus := .pendiente
  output : String := ""

/-- A pocket that was chosen, and the list as it was then. -/
structure Arranque where
  lista : List (ℕ × PocketStatus)
  pocket : ℕ

/-- Pockets are objects, named by numbers; what is deleted from the list may still be held by a
dialog. `ejecuciones` are the calls in flight, `intentos` the connections being opened. -/
structure ColabTasksScreen where
  tasks : List ColabTask
  pocket : ℕ → ColabPocket
  nuevos : ℕ
  pockets : List ℕ
  connected : Bool := false
  running : Bool := false
  intentos : ℕ := 0
  ejecuciones : List (ℕ × String) := []
  arrancados : List Arranque := []

variable {d : Dart} {s : ColabTasksScreen}

namespace ColabTasksScreen

def status (s : ColabTasksScreen) (r : ℕ) : PocketStatus := (s.pocket r).status

def pendiente (s : ColabTasksScreen) (r : ℕ) : Bool := s.status r == .pendiente

def taskById (s : ColabTasksScreen) (id : String) : Option ColabTask :=
  s.tasks.find? fun t => t.id == id

def code (d : Dart) (task : ColabTask) (argumento : String) : String :=
  if task.hasArg then "ARG = " ++ d.jsonEncode (.str argumento) ++ "\n" ++ task.code
  else task.code

def setPocket (s : ColabTasksScreen) (r : ℕ) (p : ColabPocket) : ColabTasksScreen :=
  { s with pocket := Function.update s.pocket r p }

def anota (s : ColabTasksScreen) (r : ℕ) : ColabTasksScreen :=
  { s with arrancados := s.arrancados ++ [⟨s.pockets.map fun q => (q, s.status q), r⟩] }

theorem status_setPocket (r q : ℕ) (p : ColabPocket) :
    (s.setPocket r p).status q = if q = r then p.status else s.status q := by
  change (Function.update s.pocket r p q).status = _
  rw [Function.update_apply]
  split <;> rfl

theorem countP_lt {p p' : ℕ → Bool} {l : List ℕ} {r : ℕ} (hle : ∀ q, p' q = true → p q = true)
    (hr : r ∈ l) (hp : p r = true) (hp' : p' r = false) : l.countP p' < l.countP p := by
  induction l with
  | nil => cases hr
  | cons q l ih =>
    rw [List.countP_cons, List.countP_cons]
    rcases List.mem_cons.mp hr with rfl | hr
    · have hl : l.countP p' ≤ l.countP p := List.countP_mono_left fun q _ => hle q
      rw [if_pos hp, if_neg (by rw [hp']; exact Bool.false_ne_true)]
      omega
    · have hl := ih hr
      by_cases hq : p' q = true
      · rw [if_pos hq, if_pos (hle q hq)]
        omega
      · rw [if_neg hq]
        omega

theorem pendiente_setPocket {r : ℕ} {p : ColabPocket} (hp : p.status ≠ .pendiente) (q : ℕ) :
    (s.setPocket r p).pendiente q = (s.pendiente q && q != r) := by
  unfold pendiente
  rw [status_setPocket]
  by_cases hq : q = r
  · rw [if_pos hq, beq_eq_false_iff_ne.mpr hp, hq, bne_self_eq_false, Bool.and_false]
  · rw [if_neg hq, bne_iff_ne.mpr hq, Bool.and_true]

theorem countP_setPocket_lt {r : ℕ} {p : ColabPocket}
    (hr : s.pockets.find? s.pendiente = some r) (hp : p.status ≠ .pendiente) :
    s.pockets.countP (s.setPocket r p).pendiente < s.pockets.countP s.pendiente := by
  apply countP_lt _ (List.mem_of_find?_eq_some hr) (List.find?_some hr)
  · rw [pendiente_setPocket hp, bne_self_eq_false, Bool.and_false]
  · intro q hq
    rw [pendiente_setPocket hp] at hq
    exact (Bool.and_eq_true_iff.mp hq).1

/-- The flag is down again when a pocket without task calls this for the next one. -/
def maybeRunNext (d : Dart) (s : ColabTasksScreen) : ColabTasksScreen :=
  if s.running || !s.connected then s
  else
    match _hnext : s.pockets.find? s.pendiente with
    | none => s
    | some next =>
      match s.taskById (s.pocket next).taskId with
      | none =>
        maybeRunNext d ((s.anota next).setPocket next
          { s.pocket next with status := .error, output := "(la tarea origen fue borrada)" })
      | some task =>
        { (s.anota next).setPocket next { s.pocket next with status := .running } with
          running := true
          ejecuciones := s.ejecuciones ++ [(next, code d task (s.pocket next).argumento)] }
termination_by s.pockets.countP s.pendiente
decreasing_by exact countP_setPocket_lt _hnext (by intro h; cases h)

/-- A call in flight comes to its end. -/
def termina (d : Dart) (s : ColabTasksScreen) (i : ℕ) (status : PocketStatus) (output : String) :
    ColabTasksScreen :=
  match s.ejecuciones[i]? with
  | none => s
  | some (next, _) =>
    maybeRunNext d { s.setPocket next { s.pocket next with status := status, output := output } with
      running := false
      ejecuciones := s.ejecuciones.eraseIdx i }

def addPocket (d : Dart) (s : ColabTasksScreen) (taskId argumento : String) : ColabTasksScreen :=
  maybeRunNext d { s.setPocket s.nuevos { taskId := taskId, argumento := argumento } with
    pockets := s.pockets ++ [s.nuevos]
    nuevos := s.nuevos + 1 }

def rerunPocket (d : Dart) (s : ColabTasksScreen) (p : ℕ) : ColabTasksScreen :=
  if s.running then s
  else maybeRunNext d (s.setPocket p { s.pocket p with status := .pendiente })

def deletePocket (s : ColabTasksScreen) (p : ℕ) : ColabTasksScreen :=
  if s.status p = .running then s else { s with pockets := s.pockets.erase p }

def clearFinished (s : ColabTasksScreen) : ColabTasksScreen :=
  { s with pockets := s.pockets.filter fun p => !(s.status p == .ok || s.status p == .error) }

end ColabTasksScreen

/-- What happens to a mounted screen. A task is added by the dialog of a new one or as a copy. -/
inductive Suceso where
  | addPocket (taskId argumento : String)
  | rerunPocket (p : ℕ)
  | deletePocket (p : ℕ)
  | clearFinished
  | addTask (t : ColabTask)
  | editTask (i : ℕ) (code : String) (hasArg : Bool)
  | deleteTask (i : ℕ)
  | connect
  | conectado
  | sinConexion
  | tick (i : ℕ) (texto : String)
  | returns (i : ℕ) (r : Salida)
  | throws (i : ℕ) (e : String)

open ColabTasksScreen

def paso (d : Dart) (s : ColabTasksScreen) : Suceso → ColabTasksScreen
  | .addPocket taskId argumento => s.addPocket d taskId argumento
  | .rerunPocket p => s.rerunPocket d p
  | .deletePocket p => s.deletePocket p
  | .clearFinished => s.clearFinished
  | .addTask t => { s with tasks := s.tasks ++ [t] }
  | .editTask i code hasArg =>
    { s with tasks := s.tasks.modify i fun t => { t with code := code, hasArg := hasArg } }
  | .deleteTask i => { s with tasks := s.tasks.eraseIdx i }
  | .connect => { s with intentos := s.intentos + 1 }
  | .conectado =>
    if s.intentos = 0 then s
    else maybeRunNext d { s with intentos := s.intentos - 1, connected := true }
  | .sinConexion =>
    if s.intentos = 0 then s
    else { s with intentos := s.intentos - 1, connected := false }
  | .tick i texto =>
    match s.ejecuciones[i]? with
    | none => s
    | some (next, _) => s.setPocket next { s.pocket next with output := texto }
  | .returns i r =>
    s.termina d i (if r.isError then .error else .ok)
      (if r.output = "" then "(sin salida)" else r.output)
  | .throws i e => s.termina d i .error ("Error: " ++ e)

/-- `initState`: what was running in the last session is pending again. -/
def initState (tasks : List ColabTask) (pockets : List ColabPocket) : ColabTasksScreen where
  tasks := tasks
  pocket := fun r =>
    let p := pockets.getD r { taskId := "", status := .otro "" }
    if p.status = .running then { p with status := .pendiente } else p
  nuevos := pockets.length
  pockets := List.range pockets.length
  intentos := 1

/-- The pocket is the first pending one of the list. -/
def Arranque.Primero (a : Arranque) : Prop :=
  ∃ antes despues, a.lista = antes ++ (a.pocket, .pendiente) :: despues ∧
    ∀ x ∈ antes, x.2 ≠ .pendiente

/-- What the queue promises. -/
structure Cola (s : ColabTasksScreen) : Prop where
  unPocket : ∀ r q, s.status r = .running → s.status q = .running → r = q
  unaEjecucion : s.ejecuciones.length ≤ 1
  primeros : ∀ a ∈ s.arrancados, a.Primero
  sinPendientes : s.connected = true → s.ejecuciones = [] →
    ∀ r ∈ s.pockets, s.status r ≠ .pendiente

/-- The first pending pocket whose task exists. -/
def ColabTasksScreen.siguiente (s : ColabTasksScreen) : Option ℕ :=
  s.pockets.find? fun r => s.pendiente r && (s.taskById (s.pocket r).taskId).isSome

/-- The end of a call, an error or not, starts that pocket. -/
def Sigue (d : Dart) (s : ColabTasksScreen) (e : Suceso) : Prop :=
  match e with
  | .returns i _ | .throws i _ => i < s.ejecuciones.length → s.connected = true →
    (paso d s e).ejecuciones.map Prod.fst = s.siguiente.toList
  | _ => True

/-- The flag and the statuses agree with the calls in flight. -/
structure Coherente (s : ColabTasksScreen) : Prop where
  unica : s.ejecuciones.length = if s.running then 1 else 0
  enCurso : ∀ r, s.status r = .running ↔ r ∈ s.ejecuciones.map Prod.fst
  enLista : ∀ r ∈ s.ejecuciones.map Prod.fst, r ∈ s.pockets
  creados : ∀ r ∈ s.pockets, r < s.nuevos
  primeros : ∀ a ∈ s.arrancados, a.Primero

/-- No pocket is pending while nothing runs. -/
def Drenada (s : ColabTasksScreen) : Prop :=
  s.connected = true → s.running = false → ∀ r ∈ s.pockets, s.status r ≠ .pendiente

theorem Coherente.ejecuciones_eq_nil (hs : Coherente s) (hrun : s.running = false) :
    s.ejecuciones = [] := by
  apply List.eq_nil_of_length_eq_zero
  rw [hs.unica, if_neg (by rw [hrun]; exact Bool.false_ne_true)]

theorem Coherente.cola (hs : Coherente s) (hd : Drenada s) : Cola s where
  unPocket := by
    intro r q hr hq
    have hr := (hs.enCurso r).mp hr
    have hq := (hs.enCurso q).mp hq
    have hlen : (s.ejecuciones.map Prod.fst).length ≤ 1 := by
      rw [List.length_map, hs.unica]
      split <;> omega
    generalize s.ejecuciones.map Prod.fst = l at hr hq hlen
    rcases l with _ | ⟨x, _ | ⟨y, l⟩⟩
    · cases hr
    · rw [List.mem_singleton.mp hr, List.mem_singleton.mp hq]
    · rw [List.length_cons, List.length_cons] at hlen
      omega
  unaEjecucion := by
    rw [hs.unica]
    split <;> omega
  primeros := hs.primeros
  sinPendientes := by
    intro hcon hnil
    apply hd hcon
    have hunica := hs.unica
    rw [hnil] at hunica
    cases hrun : s.running with
    | false => rfl
    | true =>
      rw [hrun, if_pos rfl] at hunica
      cases hunica

theorem primero_of_find? {r : ℕ} (hr : s.pockets.find? s.pendiente = some r) :
    Arranque.Primero ⟨s.pockets.map fun q => (q, s.status q), r⟩ := by
  obtain ⟨hp, antes, despues, hlista, hantes⟩ := List.find?_eq_some_iff_append.mp hr
  refine ⟨antes.map fun q => (q, s.status q), despues.map fun q => (q, s.status q), ?_, ?_⟩
  · have hstatus : s.status r = .pendiente := beq_iff_eq.mp hp
    rw [hlista, List.map_append, List.map_cons, hstatus]
  · intro x hx hpend
    obtain ⟨q, hq, rfl⟩ := List.mem_map.mp hx
    have hq := hantes q hq
    rw [pendiente, beq_iff_eq.mpr hpend] at hq
    cases hq

/-- One pocket is noted and gets a status other than pending and running. -/
theorem Coherente.setPocket (hs : Coherente s) {r : ℕ} {p : ColabPocket}
    (hr : r ∉ s.ejecuciones.map Prod.fst) (hp : p.status ≠ .running) :
    Coherente (s.setPocket r p) where
  unica := hs.unica
  enCurso := by
    intro q
    rw [status_setPocket]
    split
    · rename_i hq
      rw [hq]
      exact ⟨fun h => absurd h hp, fun h => absurd h hr⟩
    · exact hs.enCurso q
  enLista := hs.enLista
  creados := hs.creados
  primeros := hs.primeros

theorem Coherente.anota (hs : Coherente s) {r : ℕ} (hr : s.pockets.find? s.pendiente = some r) :
    Coherente (s.anota r) where
  unica := hs.unica
  enCurso := hs.enCurso
  enLista := hs.enLista
  creados := hs.creados
  primeros := by
    intro a ha
    rcases List.mem_append.mp ha with ha | ha
    · exact hs.primeros a ha
    · rw [List.mem_singleton.mp ha]
      exact primero_of_find? hr

theorem Coherente.not_mem (hs : Coherente s) {r : ℕ} (hr : s.status r ≠ .running) :
    r ∉ s.ejecuciones.map Prod.fst :=
  fun hmem => hr ((hs.enCurso r).mpr hmem)

theorem status_of_find? {r : ℕ} (hr : s.pockets.find? s.pendiente = some r) :
    s.status r = .pendiente := by
  have hp : s.pendiente r = true := List.find?_some hr
  exact beq_iff_eq.mp hp

/-- The pocket found is the one call in flight. -/
theorem Coherente.arranca (hs : Coherente s) {r : ℕ} {code : String} (hr : r ∈ s.pockets)
    (hrun : s.running = false) : Coherente
      { s.setPocket r { s.pocket r with status := .running } with
        running := true
        ejecuciones := s.ejecuciones ++ [(r, code)] } := by
  have hnil := hs.ejecuciones_eq_nil hrun
  constructor
  · rw [hnil]
    rfl
  · intro q
    change (s.setPocket r { s.pocket r with status := .running }).status q = .running ↔ _
    have hq := hs.enCurso q
    rw [hnil] at hq ⊢
    rw [status_setPocket]
    split
    · rename_i hqr
      rw [hqr]
      exact ⟨fun _ => List.mem_cons_self, fun _ => rfl⟩
    · rename_i hqr
      rw [hq]
      exact ⟨fun h => absurd h List.not_mem_nil, fun h => absurd (List.mem_singleton.mp h) hqr⟩
  · intro q hq
    rw [hnil] at hq
    rw [List.mem_singleton.mp hq]
    exact hr
  · exact hs.creados
  · exact hs.primeros

theorem Coherente.maybeRunNext (hs : Coherente s) : Coherente (maybeRunNext d s) := by
  fun_induction ColabTasksScreen.maybeRunNext d s with
  | case1 s hguard => exact hs
  | case2 s hguard hnext => exact hs
  | case3 s hguard next hnext htask ih =>
    apply ih
    apply (hs.anota hnext).setPocket
    · apply hs.not_mem
      rw [status_of_find? hnext]
      intro h
      cases h
    · intro h
      cases h
  | case4 s hguard next hnext task htask =>
    have hrun : s.running = false := by
      cases hr : s.running with
      | false => rfl
      | true =>
        rw [hr] at hguard
        exact absurd rfl hguard
    exact (hs.anota hnext).arranca (List.mem_of_find?_eq_some hnext) hrun

theorem drenada_maybeRunNext : Drenada (maybeRunNext d s) := by
  fun_induction ColabTasksScreen.maybeRunNext d s with
  | case1 s hguard =>
    intro hcon hrun
    rw [hcon, hrun] at hguard
    cases hguard
  | case2 s hguard hnext =>
    intro _ _ r hr hp
    have hnone := List.find?_eq_none.mp hnext r hr
    exact hnone (beq_iff_eq.mpr hp)
  | case3 s hguard next hnext htask ih => exact ih
  | case4 s hguard next hnext task htask =>
    intro _ hrun
    cases hrun

theorem siguiente_setPocket {r : ℕ} {p : ColabPocket} (hp : p.status ≠ .pendiente)
    (hr : (s.pendiente r && (s.taskById (s.pocket r).taskId).isSome) = false) :
    (s.setPocket r p).siguiente = s.siguiente := by
  unfold siguiente
  change s.pockets.find? _ = _
  congr 1
  funext q
  rw [pendiente_setPocket hp]
  by_cases hq : q = r
  · rw [hq, bne_self_eq_false, Bool.and_false, Bool.false_and, hr]
  · have hpocket : (s.setPocket r p).pocket q = s.pocket q := Function.update_of_ne hq _ _
    rw [hpocket, bne_iff_ne.mpr hq, Bool.and_true]
    rfl

theorem siguiente_eq_some {r : ℕ} {task : ColabTask}
    (hr : s.pockets.find? s.pendiente = some r)
    (htask : s.taskById (s.pocket r).taskId = some task) : s.siguiente = some r := by
  obtain ⟨hp, antes, despues, hlista, hantes⟩ := List.find?_eq_some_iff_append.mp hr
  apply List.find?_eq_some_iff_append.mpr
  refine ⟨?_, antes, despues, hlista, ?_⟩
  · rw [hp, htask]
    rfl
  · intro q hq
    have hq := hantes q hq
    rw [Bool.not_eq_true'] at hq ⊢
    rw [hq, Bool.false_and]

/-- The next call in flight is of the first pending pocket whose task exists. -/
theorem ejecuciones_maybeRunNext (hrun : s.running = false) (hcon : s.connected = true) :
    (maybeRunNext d s).ejecuciones.map Prod.fst =
      s.ejecuciones.map Prod.fst ++ s.siguiente.toList := by
  fun_induction ColabTasksScreen.maybeRunNext d s with
  | case1 s hguard =>
    rw [hcon, hrun] at hguard
    cases hguard
  | case2 s hguard hnext =>
    have hnone : s.siguiente = none := by
      apply List.find?_eq_none.mpr
      intro r hr h
      exact List.find?_eq_none.mp hnext r hr (Bool.and_eq_true_iff.mp h).1
    rw [hnone, Option.toList_none, List.append_nil]
  | case3 s hguard next hnext htask ih =>
    rw [ih hrun hcon]
    congr 2
    apply siguiente_setPocket
    · intro h
      cases h
    · change (_ && (s.taskById (s.pocket next).taskId).isSome) = false
      rw [htask]
      exact Bool.and_false _
  | case4 s hguard next hnext task htask =>
    rw [siguiente_eq_some hnext htask]
    exact List.map_append

theorem Coherente.ejecuciones_eq (hs : Coherente s) {i : ℕ} {x : ℕ × String}
    (hi : s.ejecuciones[i]? = some x) : s.ejecuciones.eraseIdx i = [] ∧ s.ejecuciones = [x] := by
  have hlen := hs.unica
  obtain ⟨hlt, hget⟩ := List.getElem?_eq_some_iff.mp hi
  rcases hej : s.ejecuciones with _ | ⟨y, _ | ⟨z, l⟩⟩
  · rw [hej] at hi
    cases hi
  · rw [hej] at hi hlt
    obtain rfl : i = 0 := Nat.lt_one_iff.mp hlt
    cases hi
    exact ⟨rfl, rfl⟩
  · rw [hej, List.length_cons, List.length_cons] at hlen
    split at hlen <;> omega

/-- A call that ends leaves the flag down and its pocket neither running nor pending. -/
theorem Coherente.fin (hs : Coherente s) {i next : ℕ} {code : String} {p : ColabPocket}
    (hi : s.ejecuciones[i]? = some (next, code)) (hp : p.status ≠ .running) : Coherente
      { s.setPocket next p with running := false, ejecuciones := s.ejecuciones.eraseIdx i } := by
  obtain ⟨hnil, huno⟩ := hs.ejecuciones_eq hi
  constructor
  · rw [hnil]
    rfl
  · intro q
    change (s.setPocket next p).status q = .running ↔ _
    rw [status_setPocket, hnil]
    split
    · exact ⟨fun h => absurd h hp, fun h => absurd h List.not_mem_nil⟩
    · rename_i hq
      rw [hs.enCurso, huno]
      exact ⟨fun h => absurd (List.mem_singleton.mp h) hq, fun h => absurd h List.not_mem_nil⟩
  · intro q hq
    rw [hnil] at hq
    exact absurd hq List.not_mem_nil
  · exact hs.creados
  · exact hs.primeros

theorem Coherente.termina (hs : Coherente s) (hd : Drenada s) {i : ℕ} {status : PocketStatus}
    {output : String} (hstatus : status ≠ .running) :
    Coherente (s.termina d i status output) ∧ Drenada (s.termina d i status output) := by
  unfold ColabTasksScreen.termina
  split
  · exact ⟨hs, hd⟩
  · rename_i next code hi
    exact ⟨(hs.fin hi hstatus).maybeRunNext, drenada_maybeRunNext⟩

theorem Coherente.addPocket (hs : Coherente s) {taskId argumento : String} :
    Coherente { s.setPocket s.nuevos { taskId := taskId, argumento := argumento } with
      pockets := s.pockets ++ [s.nuevos], nuevos := s.nuevos + 1 } := by
  have hnuevo : s.nuevos ∉ s.ejecuciones.map Prod.fst := by
    intro h
    exact absurd (hs.creados _ (hs.enLista _ h)) (Nat.lt_irrefl _)
  have hset := hs.setPocket (p := { taskId := taskId, argumento := argumento }) hnuevo
    (by intro h; cases h)
  refine ⟨hset.unica, hset.enCurso, ?_, ?_, hset.primeros⟩
  · intro r hr
    exact List.mem_append_left _ (hs.enLista r hr)
  · intro r hr
    rcases List.mem_append.mp hr with hr | hr
    · exact Nat.lt_succ_of_lt (hs.creados r hr)
    · rw [List.mem_singleton.mp hr]
      exact Nat.lt_succ_self _

/-- The list loses pockets that are not running. -/
theorem Coherente.quita (hs : Coherente s) {l : List ℕ} (hl : l ⊆ s.pockets)
    (hrun : ∀ r ∈ s.pockets, s.status r = .running → r ∈ l) :
    Coherente { s with pockets := l } where
  unica := hs.unica
  enCurso := hs.enCurso
  enLista := by
    intro r hr
    exact hrun r (hs.enLista r hr) ((hs.enCurso r).mpr hr)
  creados := fun r hr => hs.creados r (hl hr)
  primeros := hs.primeros

/-- The tasks and the connection are of no concern here. -/
theorem Coherente.ajena (hs : Coherente s) (tasks : List ColabTask) (connected : Bool)
    (intentos : ℕ) :
    Coherente { s with tasks := tasks, connected := connected, intentos := intentos } where
  unica := hs.unica
  enCurso := hs.enCurso
  enLista := hs.enLista
  creados := hs.creados
  primeros := hs.primeros

/-- A running pocket shows what its call has printed so far. -/
theorem status_setPocket_output (r q : ℕ) (texto : String) :
    (s.setPocket r { s.pocket r with output := texto }).status q = s.status q := by
  rw [status_setPocket]
  split
  · rename_i hq
    rw [hq]
    rfl
  · rfl

theorem Coherente.muestra (hs : Coherente s) (r : ℕ) (texto : String) :
    Coherente (s.setPocket r { s.pocket r with output := texto }) where
  unica := hs.unica
  enCurso := by
    intro q
    rw [status_setPocket_output]
    exact hs.enCurso q
  enLista := hs.enLista
  creados := hs.creados
  primeros := hs.primeros

theorem Drenada.muestra (hd : Drenada s) (r : ℕ) (texto : String) :
    Drenada (s.setPocket r { s.pocket r with output := texto }) := by
  intro hcon hrun q hq
  rw [status_setPocket_output]
  exact hd hcon hrun q hq

theorem Drenada.quita (hd : Drenada s) {l : List ℕ} (hl : l ⊆ s.pockets) :
    Drenada { s with pockets := l } :=
  fun hcon hrun r hr => hd hcon hrun r (hl hr)

theorem Coherente.paso (hs : Coherente s) (hd : Drenada s) (e : Suceso) :
    Coherente (paso d s e) ∧ Drenada (Tareas.paso d s e) := by
  cases e with
  | addPocket taskId argumento => exact ⟨hs.addPocket.maybeRunNext, drenada_maybeRunNext⟩
  | rerunPocket p =>
    unfold Tareas.paso rerunPocket
    dsimp only
    split
    · exact ⟨hs, hd⟩
    · rename_i hrun
      refine ⟨Coherente.maybeRunNext ?_, drenada_maybeRunNext⟩
      apply hs.setPocket
      · rw [hs.ejecuciones_eq_nil (Bool.eq_false_iff.mpr hrun)]
        exact List.not_mem_nil
      · intro h
        cases h
  | deletePocket p =>
    unfold Tareas.paso deletePocket
    dsimp only
    split
    · exact ⟨hs, hd⟩
    · rename_i hp
      refine ⟨hs.quita List.erase_subset ?_, hd.quita List.erase_subset⟩
      intro r hr hrun
      apply (List.mem_erase_of_ne _).mpr hr
      rintro rfl
      exact hp hrun
  | clearFinished =>
    refine ⟨hs.quita List.filter_sublist.subset ?_, hd.quita List.filter_sublist.subset⟩
    intro r hr hrun
    apply List.mem_filter.mpr
    rw [hrun]
    exact ⟨hr, rfl⟩
  | addTask t => exact ⟨hs.ajena _ _ _, hd⟩
  | editTask i code hasArg => exact ⟨hs.ajena _ _ _, hd⟩
  | deleteTask i => exact ⟨hs.ajena _ _ _, hd⟩
  | connect => exact ⟨hs.ajena _ _ _, hd⟩
  | conectado =>
    unfold Tareas.paso
    dsimp only
    split
    · exact ⟨hs, hd⟩
    · exact ⟨(hs.ajena _ _ _).maybeRunNext, drenada_maybeRunNext⟩
  | sinConexion =>
    unfold Tareas.paso
    dsimp only
    split
    · exact ⟨hs, hd⟩
    · refine ⟨hs.ajena _ _ _, ?_⟩
      intro hcon
      cases hcon
  | tick i texto =>
    unfold Tareas.paso
    dsimp only
    split
    · exact ⟨hs, hd⟩
    · exact ⟨hs.muestra _ texto, hd.muestra _ texto⟩
  | returns i r =>
    apply hs.termina hd
    split
    · intro h
      cases h
    · intro h
      cases h
  | throws i e =>
    apply hs.termina hd
    intro h
    cases h

theorem Coherente.termina_sigue (hs : Coherente s) (hcon : s.connected = true) {i : ℕ}
    (hi : i < s.ejecuciones.length) {status : PocketStatus} {output : String}
    (hpend : status ≠ .pendiente) :
    (s.termina d i status output).ejecuciones.map Prod.fst = s.siguiente.toList := by
  unfold ColabTasksScreen.termina
  split
  · rename_i hnone
    exact absurd hi (Nat.not_lt.mpr (List.getElem?_eq_none_iff.mp hnone))
  · rename_i next code hnext
    obtain ⟨hnil, huno⟩ := hs.ejecuciones_eq hnext
    rw [ejecuciones_maybeRunNext (by rfl) (by exact hcon)]
    dsimp only
    rw [hnil, List.map_nil, List.nil_append]
    congr 1
    have hrun : s.status next = .running := (hs.enCurso next).mpr (by rw [huno]; exact .head _)
    apply siguiente_setPocket hpend
    rw [pendiente, hrun]
    rfl

theorem sigue_paso (hs : Coherente s) (e : Suceso) : Sigue d s e := by
  cases e with
  | returns i r =>
    intro hi hcon
    apply hs.termina_sigue hcon hi
    split
    · intro h
      cases h
    · intro h
      cases h
  | throws i e =>
    intro hi hcon
    apply hs.termina_sigue hcon hi
    intro h
    cases h
  | _ => trivial

theorem coherente_initState (tasks : List ColabTask) (pockets : List ColabPocket) :
    Coherente (initState tasks pockets) where
  unica := rfl
  enCurso := by
    intro r
    refine ⟨fun h => ?_, fun h => absurd h List.not_mem_nil⟩
    unfold status initState at h
    dsimp only at h
    split at h
    · cases h
    · rename_i hr
      exact absurd h hr
  enLista := fun r hr => absurd hr List.not_mem_nil
  creados := fun r hr => List.mem_range.mp hr
  primeros := fun a ha => absurd ha List.not_mem_nil

theorem pocket_queue (d : Dart) (tasks : List ColabTask) (pockets : List ColabPocket)
    (es : List Suceso) :
    Run.Always (paso d) Cola (initState tasks pockets) es ∧
    Run.AllSteps (paso d) (Sigue d) (initState tasks pockets) es := by
  have hpaso (s : ColabTasksScreen) (e : Suceso) (h : Coherente s ∧ Drenada s) :
      Coherente (paso d s e) ∧ Drenada (paso d s e) := h.1.paso h.2 e
  have hinit : Coherente (initState tasks pockets) ∧ Drenada (initState tasks pockets) :=
    ⟨coherente_initState tasks pockets, fun hcon => absurd hcon Bool.false_ne_true⟩
  have htodos : Run.AllSteps (paso d) (fun _ _ => True) (initState tasks pockets) es :=
    Run.AllSteps.of_forall (fun _ _ => trivial) _ _
  constructor
  · exact (Run.always_of_invariant hpaso hinit es).imp fun s hs => hs.1.cola hs.2
  · exact Run.AllSteps.of_invariant (fun s e hs _ => hpaso s e hs)
      (fun s e hs _ => sigue_paso hs.1 e) htodos hinit

end Nerea.Colab.Tareas
