import Nerea.Colab.KeepAlive

/-!
# The Colab service and its keep-alive daemon

The service keeps the endpoint it handed to the daemon until the user stops it. The daemon
also stops by itself, after 24 hours or after two client errors, and the service is not told:
these steps, and no others, make the two disagree.
-/

set_option autoImplicit false

namespace Nerea.Services

open Colab (ColabKeepAlive es4xx)
open Colab.ColabKeepAlive (Evento Coherente)

structure ColabService where
  keepAlive : ColabKeepAlive
  activeEndpoint : Option String

namespace ColabService

def startKeepAlive (s : ColabService) (endpoint : String) (now : ℕ) : ColabService where
  keepAlive := s.keepAlive.start endpoint now
  activeEndpoint := some endpoint

def stopKeepAlive (s : ColabService) : ColabService where
  keepAlive := s.keepAlive.stop
  activeEndpoint := none

/-- The user starts and stops the daemon through the service; the rest is its own doing. -/
def paso (s : ColabService) : Evento → ColabService
  | .start endpoint now => s.startKeepAlive endpoint now
  | .stop => s.stopKeepAlive
  | e => { s with keepAlive := s.keepAlive.paso e }

def inicial : ColabService where
  keepAlive := ColabKeepAlive.inicial
  activeEndpoint := none

/-- `null` is inactive, and otherwise it is the endpoint of the pings. -/
structure Concuerda (s : ColabService) : Prop where
  activo : s.activeEndpoint ≠ none ↔ s.keepAlive.timer = true
  endpoint : s.keepAlive.timer = true → s.keepAlive.endpoint = s.activeEndpoint

/-- The running daemon stops itself: its time is over, or a second client error arrives. -/
def SeDetiene (k : ColabKeepAlive) : Evento → Prop
  | .tick now => k.timer = true ∧ k.vencido now = true
  | .response n statusCode => k.timer = true ∧ (∃ inicio, k.pings n = .get inicio) ∧
    es4xx statusCode = true ∧ 1 ≤ k.consecutive4xx
  | _ => False

/-- What a step of the daemon alone does to its state. -/
structure Sigue (k : ColabKeepAlive) (e : Evento) : Prop where
  noSeDetiene : ¬ SeDetiene k e
  timer : (k.paso e).timer = k.timer
  endpoint : (k.paso e).endpoint = k.endpoint

variable {s : ColabService} {k : ColabKeepAlive}

theorem tick_cases (hk : Coherente k) (now : ℕ) :
    SeDetiene k (.tick now) ∧ (k.paso (.tick now)).timer = false ∨ Sigue k (.tick now) := by
  have hpaso : k.paso (.tick now) = if k.timer then k.ping now else k := rfl
  cases htimer : k.timer with
  | false =>
    rw [htimer, if_neg Bool.false_ne_true] at hpaso
    right
    refine ⟨fun h => ?_, by rw [hpaso], by rw [hpaso]⟩
    rw [SeDetiene, htimer] at h
    cases h.1
  | true =>
    obtain ⟨endpoint, hendpoint⟩ := Option.ne_none_iff_exists'.mp (hk.timer.mp htimer)
    rw [htimer, if_pos rfl, ColabKeepAlive.ping, hendpoint] at hpaso
    dsimp only at hpaso
    cases hvencido : k.vencido now with
    | true =>
      rw [hvencido, if_pos rfl] at hpaso
      rw [hpaso]
      exact Or.inl ⟨⟨htimer, hvencido⟩, rfl⟩
    | false =>
      rw [hvencido, if_neg Bool.false_ne_true] at hpaso
      right
      refine ⟨fun h => ?_, by rw [hpaso], by rw [hpaso, hendpoint]⟩
      rw [SeDetiene, hvencido] at h
      cases h.2

theorem response_cases (hk : Coherente k) (n : ℕ) (statusCode : Option ℕ) :
    SeDetiene k (.response n statusCode) ∧ (k.paso (.response n statusCode)).timer = false ∨
      Sigue k (.response n statusCode) := by
  by_cases hn : ∃ inicio, k.pings n = .get inicio
  · obtain ⟨inicio, hn⟩ := hn
    have hpaso : k.paso (.response n statusCode) = _ := ColabKeepAlive.paso_response hn
    unfold ColabKeepAlive.handleResponse ColabKeepAlive.recibe at hpaso
    dsimp only at hpaso
    cases h4xx : es4xx statusCode with
    | false =>
      rw [h4xx, if_neg Bool.false_ne_true] at hpaso
      right
      refine ⟨fun h => ?_, by rw [hpaso], by rw [hpaso]⟩
      have hstatus := h.2.2.1
      rw [h4xx] at hstatus
      cases hstatus
    | true =>
      rw [h4xx, if_pos rfl] at hpaso
      by_cases hcounter : 2 ≤ k.consecutive4xx + 1
      · rw [if_pos hcounter] at hpaso
        cases htimer : k.timer with
        | true =>
          rw [hpaso]
          exact Or.inl ⟨⟨htimer, ⟨inicio, hn⟩, h4xx, by omega⟩, rfl⟩
        | false =>
          -- a late reply to a daemon that was stopped
          have hnone : k.endpoint = none := by
            by_contra hne
            rw [hk.timer.mpr hne] at htimer
            cases htimer
          right
          refine ⟨fun h => ?_, by rw [hpaso, htimer]; rfl, by rw [hpaso, hnone]; rfl⟩
          rw [SeDetiene, htimer] at h
          cases h.1
      · rw [if_neg hcounter] at hpaso
        right
        refine ⟨fun h => hcounter ?_, by rw [hpaso], by rw [hpaso]⟩
        have hone := h.2.2.2
        omega
  · have hpaso : k.paso (.response n statusCode) = k := by
      simp only [ColabKeepAlive.paso]
      split
      · exact absurd ⟨_, ‹_›⟩ hn
      · rfl
    right
    exact ⟨fun h => hn h.2.1, by rw [hpaso], by rw [hpaso]⟩

theorem headers_sigue (k : ColabKeepAlive) (n : ℕ) (ok : Bool) : Sigue k (.headers n ok) := by
  refine ⟨fun h => h, ?_, ?_⟩
  · simp only [ColabKeepAlive.paso, ColabKeepAlive.handleHeaders]
    split
    · split <;> rfl
    · rfl
  · simp only [ColabKeepAlive.paso, ColabKeepAlive.handleHeaders]
    split
    · split <;> rfl
    · rfl

/-- The service hears nothing of a step of the daemon. -/
theorem concuerda_daemon {e : Evento} (h : Concuerda s)
    (he : SeDetiene s.keepAlive e ∧ (s.keepAlive.paso e).timer = false ∨ Sigue s.keepAlive e)
    (hstops : SeDetiene s.keepAlive e → s.keepAlive.timer = true) :
    Concuerda { s with keepAlive := s.keepAlive.paso e } ↔ ¬ SeDetiene s.keepAlive e := by
  rcases he with ⟨hself, hparado⟩ | hsigue
  · refine ⟨fun h' => ?_, fun hno => absurd hself hno⟩
    have hrunning := h'.activo.mp (h.activo.mpr (hstops hself))
    rw [hparado] at hrunning
    cases hrunning
  · refine ⟨fun _ => hsigue.noSeDetiene, fun _ => ⟨?_, ?_⟩⟩
    · rw [hsigue.timer]
      exact h.activo
    · rw [hsigue.timer, hsigue.endpoint]
      exact h.endpoint

theorem concuerda_paso (hk : Coherente s.keepAlive) (h : Concuerda s) (e : Evento) :
    Concuerda (s.paso e) ↔ ¬ SeDetiene s.keepAlive e := by
  cases e with
  | start endpoint now =>
    refine ⟨fun _ hself => hself, fun _ => ?_⟩
    have hstart := ColabKeepAlive.start_eq s.keepAlive endpoint now
    constructor
    · change some endpoint ≠ none ↔ (s.keepAlive.start endpoint now).timer = true
      rw [hstart]
      exact ⟨fun _ => rfl, fun _ => Option.some_ne_none endpoint⟩
    · intro _
      change (s.keepAlive.start endpoint now).endpoint = some endpoint
      rw [hstart]
  | stop =>
    refine ⟨fun _ hself => hself, fun _ => ?_⟩
    exact ⟨⟨fun hne => absurd rfl hne, fun htimer => absurd htimer Bool.false_ne_true⟩,
      fun htimer => absurd htimer Bool.false_ne_true⟩
  | tick now => exact concuerda_daemon h (tick_cases hk now) fun hself => hself.1
  | headers n ok =>
    exact concuerda_daemon h (Or.inr (headers_sigue _ n ok)) fun hself => hself.elim
  | response n statusCode =>
    exact concuerda_daemon h (response_cases hk n statusCode) fun hself => hself.1

theorem keepAlive_paso (s : ColabService) (e : Evento) :
    (s.paso e).keepAlive = s.keepAlive.paso e := by
  cases e <;> rfl

/-- The service and its daemon agree all along exactly in the runs in which the daemon never
stops itself. -/
theorem active_endpoint_iff (es : List Evento) :
    Run.Always paso Concuerda inicial es ↔
      Run.AllSteps paso (fun s e => ¬ SeDetiene s.keepAlive e) inicial es := by
  apply Run.always_iff_of_invariant (I := fun s => Coherente s.keepAlive)
  · intro s e hk _
    rw [keepAlive_paso]
    exact ColabKeepAlive.paso_coherente e hk
  · intro s e hk h
    exact concuerda_paso hk h e
  · exact ⟨by simp [inicial, ColabKeepAlive.inicial], fun endpoint h => by cases h⟩
  · exact ⟨⟨fun hne => absurd rfl hne, fun htimer => absurd htimer Bool.false_ne_true⟩,
      fun htimer => absurd htimer Bool.false_ne_true⟩

/-- The assignment is gone: after two replies of 404 the daemon is stopped, and the service
still names the endpoint. -/
theorem deleted_assignment : ¬ ∀ es, Run.Always paso Concuerda inicial es := by
  intro h
  have hlast := (h [.start "m-1" 0, .headers 0 true, .response 0 (some 404), .tick 60000000,
    .headers 1 true, .response 1 (some 404)]).last
  have htimer := hlast.activo.mp (Option.some_ne_none "m-1")
  cases htimer

end ColabService
end Nerea.Services
