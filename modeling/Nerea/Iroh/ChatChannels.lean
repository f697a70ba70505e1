import Nerea.Iroh.ChatFraming
import Nerea.Shared.Run
import Mathlib.Logic.Function.Basic

/-!
# The list of chat senders

`cablear` puts the sender of every channel, opened or accepted, into one list. Nobody takes
a sender out when its channel closes: the clean-up task of a channel clears the whole list
after six hours, and `stop` leaves the list alone. The list holds the senders of the open
channels exactly as long as no listed channel closes and no clean-up finds another sender.
-/

set_option autoImplicit false

namespace Nerea.Iroh

/-- What the tasks of a channel still have: messages to write, the writer itself, a
connection our node did not close, and the clean-up to come. -/
structure Cableado where
  cola : List Texto
  escritor : Bool
  conexion : Bool
  limpieza : Bool

/-- Channels are numbered as they are wired; `salidas` lists those whose sender is kept. -/
structure IrohPar where
  vivo : Bool
  salidas : List ℕ
  canales : ℕ → Cableado
  cableados : ℕ

namespace IrohPar

variable (s : IrohPar)

def new : IrohPar := ⟨false, [], fun _ => ⟨[], false, false, false⟩, 0⟩

def modify (k : ℕ) (f : Cableado → Cableado) : IrohPar :=
  { s with canales := Function.update s.canales k (f (s.canales k)) }

def cablear : IrohPar :=
  { s with
    salidas := s.salidas ++ [s.cableados]
    canales := Function.update s.canales s.cableados ⟨[], true, true, true⟩
    cableados := s.cableados + 1 }

def accept : IrohPar := if s.vivo then s.cablear else s

/-- The connection is made, or the error says why not. -/
def chatConectar (conexion : Except String Unit) : Except String IrohPar :=
  if s.vivo = false then .error "nodo apagado"
  else
    match conexion with
    | .ok () => .ok s.cablear
    | .error e => .error e

def chatMandar (texto : Texto) : Except String IrohPar :=
  if Whitespace.trimBoth Whitespace.isWhiteSpace texto = [] then .error "mensaje vacío"
  else
    match s.salidas with
    | [] => .error "sin canal: pegá el ticket del host y tocá CONECTAR"
    | primera :: _ =>
      if (s.canales primera).escritor then
        .ok (s.modify primera fun c => { c with cola := c.cola ++ [texto] })
      else .error "el par se fue"

def chatActivo : Bool := !s.salidas.isEmpty

/-- The writer takes a message; when writing it fails the writer ends. -/
def escribir (k : ℕ) (falla : Bool) : IrohPar :=
  match (s.canales k).escritor, (s.canales k).cola with
  | true, _ :: resto =>
    if falla || !(s.canales k).conexion then
      s.modify k fun c => { c with cola := [], escritor := false }
    else s.modify k fun c => { c with cola := resto }
  | _, _ => s

/-- `recv` returns `None` once the sender is dropped and the messages are written. -/
def terminar (k : ℕ) : IrohPar :=
  if k ∉ s.salidas ∧ (s.canales k).cola = [] then s.modify k fun c => { c with escritor := false }
  else s

/-- The six hours of the channel are over. -/
def expirar (k : ℕ) : IrohPar :=
  if (s.canales k).limpieza then
    { s with salidas := [] }.modify k fun c => { c with limpieza := false }
  else s

def startServidor (enlace : Except String Unit) : Except String IrohPar :=
  if s.vivo then .error "el nodo ya está corriendo"
  else
    match enlace with
    | .ok () => .ok { s with vivo := true }
    | .error e => .error e

def stop : Except String IrohPar :=
  if s.vivo = false then .error "no está corriendo"
  else .ok { s with vivo := false, canales := fun k => { s.canales k with conexion := false } }

inductive Evento where
  | startServidor (enlace : Except String Unit)
  | stop
  | chatConectar (conexion : Except String Unit)
  | accept
  | chatMandar (texto : Texto)
  | escribir (k : ℕ) (falla : Bool)
  | terminar (k : ℕ)
  | expirar (k : ℕ)

/-- A call that returns an error leaves the state as it is. -/
def trasLlamada : Except String IrohPar → IrohPar
  | .ok s' => s'
  | .error _ => s

def paso : Evento → IrohPar
  | .startServidor enlace => s.trasLlamada (s.startServidor enlace)
  | .stop => s.trasLlamada s.stop
  | .chatConectar conexion => s.trasLlamada (s.chatConectar conexion)
  | .accept => s.accept
  | .chatMandar texto => s.trasLlamada (s.chatMandar texto)
  | .escribir k falla => s.escribir k falla
  | .terminar k => s.terminar k
  | .expirar k => s.expirar k

/-- The writer runs, our node did not close the connection and its six hours are not over. -/
def Abierto (k : ℕ) : Prop :=
  (s.canales k).escritor = true ∧ (s.canales k).conexion = true ∧ (s.canales k).limpieza = true

structure Alcanzable : Prop where
  salidas : ∀ k, k ∈ s.salidas ↔ s.Abierto k
  mandar : ∀ texto, Whitespace.trimBoth Whitespace.isWhiteSpace texto ≠ [] →
    (∃ k, s.Abierto k) → ∃ s', s.chatMandar texto = .ok s'
  activo : s.chatActivo = true ↔ ∃ k, s.Abierto k

/-- A clean-up keeps the other senders, and a `stop` that returns keeps none. -/
def LimpiaLoSuyo : Evento → Prop
  | .expirar k => ∀ j ∈ s.salidas, j ≠ k → j ∈ (s.expirar k).salidas
  | .stop => ∀ s', s.stop = .ok s' → s'.salidas = []
  | _ => True

/-- No listed channel closes: its writer does not fail, its clean-up finds no other sender,
and the node is stopped with none. -/
def NadieSeVa : Evento → Prop
  | .escribir k falla => falla = true → (s.canales k).cola ≠ [] → k ∉ s.salidas
  | .expirar k => (s.canales k).limpieza = true → ∀ j ∈ s.salidas, j = k
  | .stop => s.vivo = true → s.salidas = []
  | _ => True

variable {s} {j k : ℕ}

@[simp] theorem canales_modify_self (f : Cableado → Cableado) :
    (s.modify k f).canales k = f (s.canales k) :=
  Function.update_self k _ s.canales

theorem canales_modify_of_ne (h : j ≠ k) (f : Cableado → Cableado) :
    (s.modify k f).canales j = s.canales j :=
  Function.update_of_ne h _ s.canales

@[simp] theorem salidas_modify (f : Cableado → Cableado) : (s.modify k f).salidas = s.salidas :=
  rfl

theorem abierto_modify_of_ne (h : j ≠ k) (f : Cableado → Cableado) :
    (s.modify k f).Abierto j ↔ s.Abierto j := by
  rw [Abierto, canales_modify_of_ne h, Abierto]

theorem abierto_modify_cola (f : Cableado → List Texto) :
    (s.modify k fun c => { c with cola := f c }).Abierto j ↔ s.Abierto j := by
  by_cases hj : j = k
  · subst hj
    rw [Abierto, canales_modify_self, Abierto]
  · exact abierto_modify_of_ne hj _

/-- The list is the open channels. -/
def Exacta (s : IrohPar) : Prop := ∀ k, k ∈ s.salidas ↔ s.Abierto k

theorem Exacta.alcanzable (h : Exacta s) : Alcanzable s where
  salidas := h
  mandar := by
    intro texto htexto hk
    rcases hk with ⟨k, hk⟩
    cases hsalidas : s.salidas with
    | nil =>
      have hmem := (h k).mpr hk
      rw [hsalidas] at hmem
      cases hmem
    | cons primera resto =>
      have hprimera := (h primera).mp (hsalidas ▸ List.mem_cons_self)
      simp only [chatMandar, if_neg htexto, hsalidas, hprimera.1, if_true]
      exact ⟨_, rfl⟩
  activo := by
    rw [chatActivo, Bool.not_eq_true', List.isEmpty_eq_false_iff_exists_mem]
    exact exists_congr h

theorem Exacta.cablear (h : Exacta s) : Exacta s.cablear := by
  intro j
  rw [IrohPar.cablear, List.mem_append, List.mem_singleton, h j]
  by_cases hj : j = s.cableados
  · subst hj
    simp [Abierto]
  · simp [Abierto, hj]

theorem Exacta.escribir_iff (h : Exacta s) (falla : Bool) :
    Exacta (s.escribir k falla) ↔ s.NadieSeVa (.escribir k falla) := by
  rw [escribir, NadieSeVa]
  split
  · rename_i hescritor hcola
    split
    · rename_i hfalla
      have hself : ¬ (s.modify k fun c => { c with cola := [], escritor := false }).Abierto k := by
        simp [Abierto]
      constructor
      · intro hnew _ _ hmem
        exact hself ((hnew k).mp hmem)
      · intro hcond j
        by_cases hj : j = k
        · subst hj
          refine iff_of_false ?_ hself
          intro hmem
          have hconexion := ((h j).mp hmem).2.1
          rw [hconexion, Bool.not_true, Bool.or_false] at hfalla
          exact hcond hfalla (by rw [hcola]; exact List.cons_ne_nil _ _) hmem
        · rw [abierto_modify_of_ne hj]
          exact h j
    · rename_i hfalla
      refine iff_of_true (fun j => (h j).trans (abierto_modify_cola _).symm) ?_
      intro htrue
      rw [htrue] at hfalla
      exact absurd rfl hfalla
  · rename_i hnone
    refine iff_of_true h ?_
    intro _ hcola hmem
    obtain ⟨t, resto, hcons⟩ := List.exists_cons_of_ne_nil hcola
    exact hnone t resto ((h k).mp hmem).1 hcons

theorem Exacta.terminar (h : Exacta s) (k : ℕ) : Exacta (s.terminar k) := by
  unfold IrohPar.terminar
  split
  · rename_i hk
    intro j
    by_cases hj : j = k
    · subst hj
      exact iff_of_false hk.1 (by simp [Abierto])
    · rw [abierto_modify_of_ne hj]
      exact h j
  · exact h

theorem Exacta.expirar_iff (h : Exacta s) :
    Exacta (s.expirar k) ↔ s.NadieSeVa (.expirar k) := by
  rw [expirar, NadieSeVa]
  split
  · rename_i hlimpieza
    have hother {j : ℕ} (hj : j ≠ k) :
        ({ s with salidas := [] }.modify k fun c => { c with limpieza := false }).Abierto j ↔
          s.Abierto j :=
      abierto_modify_of_ne (s := { s with salidas := [] }) hj _
    constructor
    · intro hnew _ j hmem
      by_contra hj
      have hnone := (hnew j).mpr ((hother hj).mpr ((h j).mp hmem))
      cases hnone
    · intro hcond j
      refine iff_of_false List.not_mem_nil fun habierto => ?_
      by_cases hj : j = k
      · subst hj
        have hlimpieza := habierto.2.2
        rw [canales_modify_self] at hlimpieza
        cases hlimpieza
      · exact hj (hcond hlimpieza j ((h j).mpr ((hother hj).mp habierto)))
  · exact iff_of_true h fun hlimpieza => absurd hlimpieza ‹_›

theorem Exacta.stop_iff (h : Exacta s) :
    Exacta (s.paso .stop) ↔ s.NadieSeVa .stop := by
  rw [paso, stop, NadieSeVa]
  split
  · rename_i hvivo
    exact iff_of_true h fun hvivo' => absurd (hvivo.symm.trans hvivo') (by decide)
  · rename_i hvivo
    constructor
    · intro hnew _
      apply List.eq_nil_iff_forall_not_mem.mpr
      intro j hmem
      have hconexion := ((hnew j).mp hmem).2.1
      cases hconexion
    · intro hcond j
      have hnil : s.salidas = [] := hcond (Bool.not_eq_false _ ▸ hvivo)
      rw [trasLlamada, hnil]
      refine iff_of_false List.not_mem_nil fun habierto => ?_
      cases habierto.2.1

theorem Exacta.trasLlamada (h : Exacta s) {r : Except String IrohPar}
    (hr : ∀ s', r = .ok s' → Exacta s') : Exacta (s.trasLlamada r) := by
  cases r with
  | ok s' => exact hr s' rfl
  | error e => exact h

theorem Exacta.startServidor (h : Exacta s) {enlace : Except String Unit} {s' : IrohPar}
    (hs' : s.startServidor enlace = .ok s') : Exacta s' := by
  unfold IrohPar.startServidor at hs'
  split at hs'
  · cases hs'
  · split at hs'
    · cases hs'
      exact h
    · cases hs'

theorem Exacta.chatConectar (h : Exacta s) {conexion : Except String Unit} {s' : IrohPar}
    (hs' : s.chatConectar conexion = .ok s') : Exacta s' := by
  unfold IrohPar.chatConectar at hs'
  split at hs'
  · cases hs'
  · split at hs'
    · cases hs'
      exact h.cablear
    · cases hs'

theorem Exacta.chatMandar (h : Exacta s) {texto : Texto} {s' : IrohPar}
    (hs' : s.chatMandar texto = .ok s') : Exacta s' := by
  unfold IrohPar.chatMandar at hs'
  split at hs'
  · cases hs'
  · split at hs'
    · cases hs'
    · split at hs'
      · cases hs'
        intro j
        exact (h j).trans (abierto_modify_cola fun c => c.cola ++ [texto]).symm
      · cases hs'

theorem Exacta.paso_iff (h : Exacta s) (e : Evento) : Exacta (s.paso e) ↔ s.NadieSeVa e := by
  cases e with
  | startServidor enlace =>
    exact iff_of_true (h.trasLlamada fun _ hs' => h.startServidor hs') trivial
  | stop => exact h.stop_iff
  | chatConectar conexion =>
    exact iff_of_true (h.trasLlamada fun _ hs' => h.chatConectar hs') trivial
  | accept =>
    refine iff_of_true ?_ trivial
    rw [paso, accept]
    split
    · exact h.cablear
    · exact h
  | chatMandar texto => exact iff_of_true (h.trasLlamada fun _ hs' => h.chatMandar hs') trivial
  | escribir k falla => exact h.escribir_iff falla
  | terminar k => exact iff_of_true (h.terminar k) trivial
  | expirar k => exact h.expirar_iff

/-- Where the list is the open channels before and after, a clean-up and a `stop` took out
what they should. -/
theorem Exacta.limpiaLoSuyo (h : Exacta s) {e : Evento} (h' : Exacta (s.paso e)) :
    s.LimpiaLoSuyo e := by
  cases e with
  | stop =>
    intro s' hs'
    rw [paso, hs'] at h'
    apply List.eq_nil_iff_forall_not_mem.mpr
    intro j hmem
    have hconexion := ((h' j).mp hmem).2.1
    rw [stop] at hs'
    split at hs'
    · cases hs'
    · cases hs'
      cases hconexion
  | expirar k =>
    intro j hmem hj
    have hlimpia := (h.expirar_iff (k := k)).mp h'
    rw [expirar]
    split
    · rename_i hlimpieza
      exact absurd (hlimpia hlimpieza j hmem) hj
    · exact hmem
  | _ => trivial

theorem Exacta.limpia (h : Exacta s) {es : List Evento} (hes : Run.AllSteps paso NadieSeVa s es) :
    Run.AllSteps paso LimpiaLoSuyo s es := by
  induction es generalizing s with
  | nil => trivial
  | cons e es ih =>
    have h' := (h.paso_iff e).mpr hes.1
    exact ⟨h.limpiaLoSuyo h', ih h' hes.2⟩

theorem new_exacta : Exacta new := by
  intro k
  exact iff_of_false List.not_mem_nil fun habierto => by cases habierto.1

/-- In every run from a new node, every open channel can be reached, and only they are
listed, exactly when no listed channel closes. -/
theorem alcanzable_iff (es : List Evento) :
    (Run.Always paso Alcanzable new es ∧ Run.AllSteps paso LimpiaLoSuyo new es) ↔
      Run.AllSteps paso NadieSeVa new es := by
  have hrun : Run.Always paso Alcanzable new es ↔ Run.AllSteps paso NadieSeVa new es := by
    apply Run.always_iff
    · intro s e hs
      have hexacta : Exacta s := hs.salidas
      rw [← hexacta.paso_iff e]
      exact ⟨fun h => h.salidas, fun h => h.alcanzable⟩
    · exact new_exacta.alcanzable
  rw [hrun]
  exact and_iff_left_of_imp new_exacta.limpia

/-- The peer of the first channel leaves: the second is open, but nothing can be sent. -/
theorem parSeFue_inalcanzable : ¬ ∀ es : List Evento,
    Run.Always paso Alcanzable new es ∧ Run.AllSteps paso LimpiaLoSuyo new es := by
  intro h
  have hes := (h [.startServidor (.ok ()), .accept, .accept, .chatMandar ['h', 'o', 'l', 'a'],
    .escribir 0 true]).1.2.2.2.2.2
  exact absurd ((hes.salidas 0).mp (by decide)).1 (by decide)

end IrohPar
end Nerea.Iroh
