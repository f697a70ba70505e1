import Nerea.Colab.RuntimeSteps

/-!
# Requests that come back dead

The flags of a request are set by several callbacks in any order. Whatever the order, a
result that is silent and counts as dead was lost with its connection, its listener is
gone, and no message it got carried anything to see.
-/

set_option autoImplicit false

namespace Nerea.Colab

namespace Intento

/-- What the flags of a request say about each other. -/
structure Coherente (d : Dart) (x : Intento) : Prop where
  perdido : x.result.connLost = true → x.subscribed = false
  causa : x.completed = true → x.result.isError = true ∨ x.result.gotFrames = true ∨
    x.result.connLost = true
  vencido : x.vencido = true → x.result.isError = true
  mudos : x.result.Callada → ∀ m ∈ x.recibidos, m.Mudo d

/-- The request came back, silent and with its connection lost. -/
structure Muerto (d : Dart) (x : Intento) : Prop where
  devuelto : x.devuelto = true
  sordo : x.subscribed = false
  callada : x.result.Callada
  connLost : x.result.connLost = true
  mudos : ∀ m ∈ x.recibidos, m.Mudo d

variable {d : Dart} {x : Intento}

theorem coherente_nuevo (d : Dart) (h : HiloId) (code msgId : String) :
    (nuevo h code msgId).Coherente d := by
  constructor
  · intro h
    cases h
  · intro h
    cases h
  · intro h
    cases h
  · intro _ m hm
    cases hm

theorem isError_interrupt (x : Intento) : x.interrupt.result.isError = true := by
  simp only [interrupt]
  split
  · assumption
  · rfl

theorem Coherente.interrupt (h : x.Coherente d) : x.interrupt.Coherente d where
  perdido := by
    intro hlost
    apply h.perdido
    simp only [Intento.interrupt] at hlost
    split at hlost <;> exact hlost
  causa := fun _ => Or.inl (isError_interrupt x)
  vencido := fun _ => isError_interrupt x
  mudos := by
    intro hr
    exact absurd (isError_interrupt x) (by simp [hr.isError])

theorem Coherente.expire (h : x.Coherente d) : x.expire.Coherente d where
  perdido := fun _ => rfl
  causa := fun hx => h.causa hx |>.elim (fun _ => Or.inl rfl) fun _ => Or.inl rfl
  vencido := fun _ => rfl
  mudos := by
    intro hr
    cases hr.isError

theorem Coherente.giveBack (h : x.Coherente d) : x.giveBack.Coherente d :=
  ⟨h.perdido, h.causa, h.vencido, h.mudos⟩

theorem Coherente.receive_closed (h : x.Coherente d) : (x.receive d .closed).Coherente d := by
  simp only [receive]
  split
  · exact ⟨fun _ => rfl, fun _ => Or.inr (Or.inr rfl), h.vencido, h.mudos⟩
  · exact h

theorem Coherente.receive_error (h : x.Coherente d) (text : String) :
    (x.receive d (.error text)).Coherente d := by
  simp only [receive]
  split
  · refine ⟨fun _ => rfl, fun _ => Or.inl rfl, fun _ => rfl, ?_⟩
    intro hr
    cases hr.isError
  · exact h

theorem Coherente.receive_frame (h : x.Coherente d) (m : Message) :
    (x.receive d (.frame m)).Coherente d := by
  simp only [receive]
  split
  · rename_i hsub
    have hlost : x.result.connLost ≠ true := by
      intro hlost
      rw [h.perdido hlost] at hsub
      cases hsub
    refine ⟨fun hx => absurd hx hlost, fun _ => Or.inr (Or.inl rfl), ?_, ?_⟩
    · intro hx
      by_contra hok
      have hok : (x.result.toSalida.add d m).isError = false := Bool.eq_false_iff.mpr hok
      exact absurd (h.vencido hx) (by simp [Salida.isError_of_add hok])
    · intro hr m' hm'
      obtain ⟨hr, hm⟩ := Salida.callada_of_add hr
      rcases List.mem_append.mp hm' with hm' | hm'
      · exact h.mudos hr m' hm'
      · obtain rfl := List.mem_singleton.mp hm'
        exact hm
  · exact ⟨h.perdido, h.causa, h.vencido, h.mudos⟩

theorem Coherente.muerto (h : x.Coherente d) (hlisto : x.listo = true)
    (hdead : x.result.dead = true) : x.giveBack.Muerto d := by
  simp only [ColabExecResult.dead, Bool.and_eq_true, beq_iff_eq, Bool.not_eq_true',
    Bool.or_eq_true] at hdead
  obtain ⟨⟨hout, hok⟩, hwhy⟩ := hdead
  have hlost : x.result.connLost = true := by
    have hnot : ¬ x.result.isError = true := by simp [hok]
    rcases Bool.or_eq_true_iff.mp hlisto with hcompleted | hvencido
    · rcases h.causa hcompleted with herror | hframes | hlost
      · exact absurd herror hnot
      · rcases hwhy with hlost | hnone
        · exact hlost
        · exact absurd (hnone.symm.trans hframes) Bool.false_ne_true
      · exact hlost
    · exact absurd (h.vencido hvencido) hnot
  exact ⟨rfl, h.perdido hlost, ⟨hout, hok⟩, hlost, h.mudos ⟨hout, hok⟩⟩

theorem hilo_receive (d : Dart) (x : Intento) (msg : Msg) :
    (x.receive d msg).hilo = x.hilo := by
  cases msg <;> simp only [receive] <;> split <;> rfl

theorem devuelto_receive (d : Dart) (x : Intento) (msg : Msg) :
    (x.receive d msg).devuelto = x.devuelto := by
  cases msg <;> simp only [receive] <;> split <;> rfl

theorem Muerto.receive (h : x.Muerto d) (msg : Msg) : (x.receive d msg).Muerto d := by
  have hsub : ¬ x.subscribed = true := by simp [h.sordo]
  cases msg with
  | closed =>
    simp only [Intento.receive, if_neg hsub]
    exact h
  | error text =>
    simp only [Intento.receive, if_neg hsub]
    exact h
  | frame m =>
    simp only [Intento.receive, if_neg hsub]
    exact ⟨h.devuelto, h.sordo, h.callada, h.connLost, h.mudos⟩

end Intento

end Nerea.Colab
