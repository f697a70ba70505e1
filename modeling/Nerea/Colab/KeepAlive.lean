import Mathlib.Data.List.Basic
import Mathlib.Logic.Function.Basic
import Nerea.Shared.Run

/-!
# The keep-alive daemon

A ping awaits a token and then a reply, and reads the endpoint between the two: after a
stop it sends a request to no endpoint, and a reply to a request of an earlier start moves
the counter of the current one. These are the only two ways in which the daemon goes wrong.
-/

set_option autoImplicit false

namespace Nerea.Colab

/-- In microseconds. -/
def keepAliveMaxDuration : ℕ := 24 * 60 * 60 * 1000000

/-- What a ping awaits; a request is of the start that was the latest when it was sent. -/
inductive Ping where
  | headers
  | get (inicio : ℕ)
  | fin

/-- What is only recorded: how many starts there were, the endpoint of the latest, the paths
requested, and the outcomes of the requests with their starts (last first). -/
structure ColabKeepAlive where
  timer : Bool
  consecutive4xx : ℕ
  endpoint : Option String
  startTime : Option ℕ
  pings : ℕ → Ping
  llamados : ℕ
  inicios : ℕ
  ultimo : Option String
  enviadas : List String
  recibidas : List (ℕ × Option ℕ)

def es4xx : Option ℕ → Bool
  | some statusCode => 400 ≤ statusCode && statusCode < 500
  | none => false

/-- `'/tun/m/$_endpoint/keep-alive/'` -/
def ruta (endpoint : Option String) : String :=
  "/tun/m/" ++ endpoint.getD "null" ++ "/keep-alive/"

namespace ColabKeepAlive

def stop (s : ColabKeepAlive) : ColabKeepAlive :=
  { s with timer := false, endpoint := none, startTime := none, consecutive4xx := 0 }

/-- The 24 hours are over. -/
def vencido (s : ColabKeepAlive) (now : ℕ) : Bool :=
  match s.startTime with
  | none => false
  | some t => t + keepAliveMaxDuration ≤ now

/-- `_ping` up to its first wait. -/
def ping (s : ColabKeepAlive) (now : ℕ) : ColabKeepAlive :=
  match s.endpoint with
  | none => s
  | some _ =>
    if s.vencido now then s.stop
    else { s with
      pings := Function.update s.pings s.llamados .headers
      llamados := s.llamados + 1 }

def start (s : ColabKeepAlive) (endpoint : String) (now : ℕ) : ColabKeepAlive :=
  let s := s.stop
  let s := { s with
    endpoint := some endpoint
    consecutive4xx := 0
    startTime := some now
    inicios := s.inicios + 1
    ultimo := some endpoint }
  { s.ping now with timer := true }

/-- The headers are there, or there is none. -/
def handleHeaders (s : ColabKeepAlive) (n : ℕ) (ok : Bool) : ColabKeepAlive :=
  if ok then { s with
    enviadas := ruta s.endpoint :: s.enviadas
    pings := Function.update s.pings n (.get s.inicios) }
  else { s with consecutive4xx := 0, pings := Function.update s.pings n .fin }

/-- A status, or an exception. -/
def handleResponse (s : ColabKeepAlive) (statusCode : Option ℕ) : ColabKeepAlive :=
  if es4xx statusCode then
    let s := { s with consecutive4xx := s.consecutive4xx + 1 }
    if 2 ≤ s.consecutive4xx then s.stop else s
  else { s with consecutive4xx := 0 }

inductive Evento where
  | start (endpoint : String) (now : ℕ)
  | stop
  | tick (now : ℕ)
  | headers (n : ℕ) (ok : Bool)
  /-- No status: a timeout or another exception. -/
  | response (n : ℕ) (statusCode : Option ℕ)

def paso (s : ColabKeepAlive) : Evento → ColabKeepAlive
  | .start endpoint now => s.start endpoint now
  | .stop => s.stop
  | .tick now => if s.timer then s.ping now else s
  | .headers n ok =>
    match s.pings n with
    | .headers => s.handleHeaders n ok
    | _ => s
  | .response n statusCode =>
    match s.pings n with
    | .get inicio =>
      { s with
        pings := Function.update s.pings n .fin
        recibidas := (inicio, statusCode) :: s.recibidas }.handleResponse statusCode
    | _ => s

def inicial : ColabKeepAlive where
  timer := false
  consecutive4xx := 0
  endpoint := none
  startTime := none
  pings := fun _ => .fin
  llamados := 0
  inicios := 0
  ultimo := none
  enviadas := []
  recibidas := []

/-- The outcomes of the requests of the latest start, last first. -/
def propias (s : ColabKeepAlive) : List (Option ℕ) :=
  (s.recibidas.filter fun x => x.1 == s.inicios).map (·.2)

/-- What a step does of which the daemon promises something. -/
structure Correcto (s : ColabKeepAlive) (e : Evento) : Prop where
  enviada : ∀ path, (paso s e).enviadas = path :: s.enviadas →
    s.timer = true ∧ ∃ endpoint, s.ultimo = some endpoint ∧ path = ruta (some endpoint)
  ajena : ∀ n statusCode inicio, e = .response n statusCode → s.pings n = .get inicio →
    inicio ≠ s.inicios →
    (paso s e).consecutive4xx = s.consecutive4xx ∧ (paso s e).timer = s.timer
  parada : s.timer = true → (paso s e).timer = false →
    e = .stop ∨ (∃ now, e = .tick now ∧ s.vencido now = true) ∨
    ∃ c c' resto, (paso s e).propias = c :: c' :: resto ∧ es4xx c = true ∧ es4xx c' = true

/-- No headers arrive while the daemon is stopped, and a reply to a request of an earlier
start finds the counter at 0 and is no client error. -/
def EnCurso (s : ColabKeepAlive) : Evento → Prop
  | .headers n ok => s.pings n = .headers → ok = true → s.endpoint ≠ none
  | .response n statusCode => ∀ inicio, s.pings n = .get inicio → inicio ≠ s.inicios →
      s.consecutive4xx = 0 ∧ es4xx statusCode = false
  | _ => True

/-- The daemon runs exactly when it has an endpoint, that of the latest start. -/
structure Coherente (s : ColabKeepAlive) : Prop where
  timer : s.timer = true ↔ s.endpoint ≠ none
  ultimo : ∀ endpoint, s.endpoint = some endpoint → s.ultimo = some endpoint

/-- The counter counts client errors of the latest start, the last ones received. -/
def Contado (s : ColabKeepAlive) : Prop :=
  s.consecutive4xx ≤ (s.propias.takeWhile es4xx).length

variable {s : ColabKeepAlive}

theorem coherente_stop (s : ColabKeepAlive) : Coherente s.stop :=
  ⟨by simp [stop], fun endpoint h => by cases h⟩

theorem Coherente.ping (h : Coherente s) (now : ℕ) : Coherente (s.ping now) := by
  unfold ColabKeepAlive.ping
  split
  · exact h
  · split
    · exact coherente_stop s
    · exact ⟨h.timer, h.ultimo⟩

theorem not_vencido_self {now : ℕ} (h : s.startTime = some now) : s.vencido now = false := by
  simp only [vencido, h, decide_eq_false_iff_not]
  unfold keepAliveMaxDuration
  omega

/-- A start is not over at once: its first ping goes on. -/
theorem start_eq (s : ColabKeepAlive) (endpoint : String) (now : ℕ) :
    s.start endpoint now = { s with
      timer := true
      consecutive4xx := 0
      endpoint := some endpoint
      startTime := some now
      pings := Function.update s.pings s.llamados .headers
      llamados := s.llamados + 1
      inicios := s.inicios + 1
      ultimo := some endpoint } := by
  unfold start ColabKeepAlive.ping
  dsimp only
  rw [if_neg (by rw [not_vencido_self rfl]; exact Bool.false_ne_true)]
  rfl

theorem coherente_start (s : ColabKeepAlive) (endpoint : String) (now : ℕ) :
    Coherente (s.start endpoint now) := by
  rw [start_eq]
  refine ⟨by simp, ?_⟩
  intro endpoint' h
  exact h

theorem Coherente.handleHeaders (h : Coherente s) (n : ℕ) (ok : Bool) :
    Coherente (s.handleHeaders n ok) := by
  unfold ColabKeepAlive.handleHeaders
  split <;> exact ⟨h.timer, h.ultimo⟩

theorem Coherente.handleResponse (h : Coherente s) (statusCode : Option ℕ) :
    Coherente (s.handleResponse statusCode) := by
  unfold ColabKeepAlive.handleResponse
  split
  · dsimp only
    split
    · exact coherente_stop _
    · exact ⟨h.timer, h.ultimo⟩
  · exact ⟨h.timer, h.ultimo⟩

theorem paso_coherente (e : Evento) (h : Coherente s) : Coherente (paso s e) := by
  cases e with
  | start endpoint now => exact coherente_start s endpoint now
  | stop => exact coherente_stop s
  | tick now =>
    simp only [paso]
    split
    · exact h.ping now
    · exact h
  | headers n ok =>
    simp only [paso]
    split
    · exact h.handleHeaders n ok
    · exact h
  | response n statusCode =>
    simp only [paso]
    split
    · apply Coherente.handleResponse
      exact ⟨h.timer, h.ultimo⟩
    · exact h

theorem contado_zero (h : s.consecutive4xx = 0) : Contado s := by
  unfold Contado
  rw [h]
  exact Nat.zero_le _

theorem Contado.ping (h : Contado s) (now : ℕ) : Contado (s.ping now) := by
  unfold ColabKeepAlive.ping
  split
  · exact h
  · split
    · exact contado_zero rfl
    · exact h

theorem Contado.handleHeaders (h : Contado s) (n : ℕ) (ok : Bool) :
    Contado (s.handleHeaders n ok) := by
  unfold ColabKeepAlive.handleHeaders
  split
  · exact h
  · exact contado_zero rfl

/-- The state in which the reply to a request is looked at. -/
def recibe (s : ColabKeepAlive) (n inicio : ℕ) (statusCode : Option ℕ) : ColabKeepAlive :=
  { s with
    pings := Function.update s.pings n .fin
    recibidas := (inicio, statusCode) :: s.recibidas }

theorem propias_recibe (s : ColabKeepAlive) (n : ℕ) (statusCode : Option ℕ) :
    (s.recibe n s.inicios statusCode).propias = statusCode :: s.propias := by
  simp [propias, recibe]

theorem propias_handleResponse (s : ColabKeepAlive) (statusCode : Option ℕ) :
    (s.handleResponse statusCode).propias = s.propias := by
  unfold handleResponse
  split
  · dsimp only
    split <;> rfl
  · rfl

theorem paso_response {n inicio : ℕ} {statusCode : Option ℕ} (hn : s.pings n = .get inicio) :
    paso s (.response n statusCode) = (s.recibe n inicio statusCode).handleResponse statusCode := by
  simp only [paso, hn]
  rfl

theorem handleResponse_of_not_4xx {statusCode : Option ℕ} (h : es4xx statusCode = false) :
    s.handleResponse statusCode = { s with consecutive4xx := 0 } := by
  rw [handleResponse, h]
  rfl

theorem Contado.response (h : Contado s) {n inicio : ℕ} {statusCode : Option ℕ}
    (hn : s.pings n = .get inicio) (he : EnCurso s (.response n statusCode)) :
    Contado (paso s (.response n statusCode)) := by
  rw [paso_response hn]
  cases h4xx : es4xx statusCode with
  | false =>
    rw [handleResponse_of_not_4xx h4xx]
    exact contado_zero rfl
  | true =>
    have hpropia : inicio = s.inicios := by
      by_contra hne
      exact absurd (he inicio hn hne).2 (by simp [h4xx])
    subst hpropia
    have hcount : (s.recibe n s.inicios statusCode).consecutive4xx + 1 ≤
        ((s.recibe n s.inicios statusCode).propias.takeWhile es4xx).length := by
      rw [propias_recibe, List.takeWhile_cons, h4xx, if_pos rfl, List.length_cons]
      exact Nat.succ_le_succ h
    unfold handleResponse
    rw [if_pos h4xx]
    dsimp only
    split
    · exact contado_zero rfl
    · exact hcount

theorem enviadas_ping (s : ColabKeepAlive) (now : ℕ) : (s.ping now).enviadas = s.enviadas := by
  unfold ping
  split
  · rfl
  · split <;> rfl

theorem enviadas_handleResponse (s : ColabKeepAlive) (statusCode : Option ℕ) :
    (s.handleResponse statusCode).enviadas = s.enviadas := by
  unfold handleResponse
  split
  · dsimp only
    split <;> rfl
  · rfl

/-- Only the headers of a ping lead to a request, and it goes to the endpoint of that moment. -/
theorem enviadas_paso {e : Evento} {path : String} (h : (paso s e).enviadas = path :: s.enviadas) :
    ∃ n, e = .headers n true ∧ s.pings n = .headers ∧ path = ruta s.endpoint := by
  have hne {xs : List String} (hxs : xs = s.enviadas) : xs ≠ path :: s.enviadas := by
    rw [hxs]
    intro heq
    have hlen := congrArg List.length heq
    simp at hlen
  cases e with
  | start endpoint now =>
    rw [paso, start_eq] at h
    exact absurd h (hne rfl)
  | stop => exact absurd h (hne rfl)
  | tick now =>
    simp only [paso] at h
    split at h
    · exact absurd h (hne (enviadas_ping s now))
    · exact absurd h (hne rfl)
  | headers n ok =>
    simp only [paso] at h
    split at h
    · rename_i hn
      cases ok with
      | false => exact absurd h (hne rfl)
      | true => exact ⟨n, rfl, hn, (List.cons_eq_cons.mp h).1.symm⟩
    · exact absurd h (hne rfl)
  | response n statusCode =>
    simp only [paso] at h
    split at h
    · exact absurd h (hne (enviadas_handleResponse _ statusCode))
    · exact absurd h (hne rfl)

/-- A client error always moves the counter. -/
theorem handleResponse_moves {statusCode : Option ℕ} (h : es4xx statusCode = true) :
    (s.handleResponse statusCode).consecutive4xx ≠ s.consecutive4xx := by
  unfold handleResponse
  rw [if_pos h]
  dsimp only
  split
  · rename_i htwo
    change 0 ≠ s.consecutive4xx
    omega
  · change s.consecutive4xx + 1 ≠ s.consecutive4xx
    omega

theorem Correcto.enCurso {e : Evento} (h : Correcto s e) (hs : Coherente s) : EnCurso s e := by
  cases e with
  | headers n ok =>
    rintro hn rfl
    have hsent : (paso s (.headers n true)).enviadas = ruta s.endpoint :: s.enviadas := by
      simp only [paso, hn]
      rfl
    exact hs.timer.mp (h.enviada _ hsent).1
  | response n statusCode =>
    intro inicio hn hne
    obtain ⟨hcounter, -⟩ := h.ajena n statusCode inicio rfl hn hne
    rw [paso_response hn] at hcounter
    cases h4xx : es4xx statusCode with
    | false =>
      rw [handleResponse_of_not_4xx h4xx] at hcounter
      exact ⟨hcounter.symm, rfl⟩
    | true => exact absurd hcounter (handleResponse_moves h4xx)
  | _ => exact trivial

theorem timer_handleResponse {statusCode : Option ℕ}
    (h : (s.handleResponse statusCode).timer = false) (htimer : s.timer = true) :
    es4xx statusCode = true ∧ 1 ≤ s.consecutive4xx := by
  unfold handleResponse at h
  split at h
  · rename_i h4xx
    dsimp only at h
    split at h
    · exact ⟨h4xx, by omega⟩
    · exact absurd (htimer.symm.trans h) (by simp)
  · exact absurd (htimer.symm.trans h) (by simp)

/-- The two last outcomes of the latest start are client errors. -/
theorem dosSeguidos (hs : Contado s) {n inicio : ℕ} {statusCode : Option ℕ}
    (hn : s.pings n = .get inicio) (he : EnCurso s (.response n statusCode))
    (htimer : s.timer = true) (hstops : (paso s (.response n statusCode)).timer = false) :
    ∃ c c' resto, (paso s (.response n statusCode)).propias = c :: c' :: resto ∧
      es4xx c = true ∧ es4xx c' = true := by
  rw [paso_response hn] at hstops ⊢
  obtain ⟨h4xx, hcounter⟩ := timer_handleResponse hstops htimer
  have hpropia : inicio = s.inicios := by
    by_contra hne
    exact absurd (he inicio hn hne).2 (by simp [h4xx])
  subst hpropia
  rw [propias_handleResponse, propias_recibe]
  have hracha : 1 ≤ (s.propias.takeWhile es4xx).length := Nat.le_trans hcounter hs
  cases hpropias : s.propias with
  | nil => simp [hpropias] at hracha
  | cons c' resto =>
    cases h' : es4xx c' with
    | false => simp [hpropias, h'] at hracha
    | true => exact ⟨statusCode, c', resto, rfl, h4xx, h'⟩

theorem EnCurso.correcto {e : Evento} (he : EnCurso s e) (hs : Coherente s) (hc : Contado s) :
    Correcto s e where
  enviada := by
    intro path hpath
    obtain ⟨n, rfl, hn, rfl⟩ := enviadas_paso hpath
    have hrunning := he hn rfl
    obtain ⟨endpoint, hendpoint⟩ := Option.ne_none_iff_exists'.mp hrunning
    exact ⟨hs.timer.mpr hrunning, endpoint, hs.ultimo endpoint hendpoint, by rw [hendpoint]⟩
  ajena := by
    rintro n statusCode inicio rfl hn hne
    obtain ⟨hzero, h4xx⟩ := he inicio hn hne
    rw [paso_response hn, handleResponse_of_not_4xx h4xx]
    exact ⟨hzero.symm, rfl⟩
  parada := by
    intro htimer hstops
    cases e with
    | start endpoint now =>
      rw [paso, start_eq] at hstops
      cases hstops
    | stop => exact Or.inl rfl
    | tick now =>
      refine Or.inr (Or.inl ⟨now, rfl, ?_⟩)
      simp only [paso, htimer, if_true, ping] at hstops
      split at hstops
      · exact absurd (htimer.symm.trans hstops) (by simp)
      · split at hstops
        · assumption
        · cases hstops
    | headers n ok =>
      simp only [paso, handleHeaders] at hstops
      split at hstops
      · split at hstops
        · exact absurd (htimer.symm.trans hstops) (by simp)
        · exact absurd (htimer.symm.trans hstops) (by simp)
      · exact absurd (htimer.symm.trans hstops) (by simp)
    | response n statusCode =>
      by_cases hn : ∃ inicio, s.pings n = .get inicio
      · obtain ⟨inicio, hn⟩ := hn
        exact Or.inr (Or.inr (dosSeguidos hc hn he htimer hstops))
      · simp only [paso] at hstops
        split at hstops
        · exact absurd ⟨_, ‹_›⟩ hn
        · exact absurd (htimer.symm.trans hstops) (by simp)

end ColabKeepAlive
end Nerea.Colab
