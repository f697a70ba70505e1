import Nerea.Colab.RuntimeSteps

/-!
# Whose output a result holds

What a request should show is a fold over what happened since it was sent: the frames
that answer it, up to its own idle status, and the notes of the runtime itself. The
listener never compares identifiers. It shows that fold as long as what arrives while it
listens is its own or changes nothing, and nothing of its own comes after it stopped.
-/

set_option autoImplicit false

namespace Nerea.Colab

/-- The result so far, and whether the idle status of the request is still to come. -/
structure Esperado where
  salida : Salida
  abierto : Bool

def Esperado.step (d : Dart) (msgId : String) (y : Esperado) : Entrada → Esperado
  | .frame m =>
    if y.abierto = true ∧ m.parentId = some msgId then ⟨y.salida.add d m, !m.isIdle⟩ else y
  | .interrupcion =>
    if y.salida.isError then y
    else { y with salida := y.salida.fail .error Intento.interrumpida }
  | .vencimiento => { y with salida := y.salida.fail .timeout Intento.vencida }
  | .cierre => y
  | .errorWs text => { y with salida := y.salida.fail .error (Intento.wsError text) }

def Entrada.Completa (msgId : String) : Entrada → Prop
  | .frame m => m.parentId = some msgId ∧ m.ends = true
  | .vencimiento => False
  | _ => True

namespace Intento

def esperado (d : Dart) (x : Intento) : Esperado :=
  x.entradas.foldl (Esperado.step d x.msgId) ⟨{}, true⟩

/-- The result is that of the request's own frames, nothing else completed it, and no late
call of `onTick` was for another's frame. -/
structure Atribuido (d : Dart) (x : Intento) : Prop where
  salida : x.result.toSalida = (x.esperado d).salida
  completed : x.completed = true → ∃ e ∈ x.entradas, e.Completa x.msgId
  avisos : ∀ a ∈ x.avisos, a.tarde = true → a.mensaje.parentId = some x.msgId

/-- The frame is the request's own or does nothing to it while it listens, and is another's
or adds nothing once it stopped. -/
structure Ajustada (d : Dart) (x : Intento) (m : Message) : Prop where
  oyendo : x.subscribed = true → m.parentId = some x.msgId ∨
    x.result.toSalida.add d m = x.result.toSalida ∧ (m.ends = true → x.completed = true) ∧
      (m.ticks = true → x.completed = false)
  despues : x.subscribed = false → (x.esperado d).abierto = true →
    m.parentId = some x.msgId → x.result.toSalida.add d m = x.result.toSalida

/-- Who listens still waits for the own idle status. -/
structure Atento (d : Dart) (x : Intento) : Prop extends Atribuido d x where
  abierto : x.subscribed = true → (x.esperado d).abierto = true

variable {d : Dart} {x y : Intento}

theorem esperado_append {e : Entrada} (hmsgId : y.msgId = x.msgId)
    (hentradas : y.entradas = x.entradas ++ [e]) :
    y.esperado d = (x.esperado d).step d x.msgId e := by
  simp only [esperado, hmsgId, hentradas, List.foldl_append, List.foldl_cons, List.foldl_nil]

theorem atento_nuevo (d : Dart) (h : HiloId) (code msgId : String) :
    (nuevo h code msgId).Atento d := by
  refine ⟨⟨rfl, ?_, ?_⟩, fun _ => rfl⟩
  · intro h
    cases h
  · intro a ha
    cases ha

theorem isIdle_of_not_ends {m : Message} (h : m.ends = false) : m.isIdle = false := by
  simp only [Message.ends, Bool.or_eq_false_iff] at h
  exact h.1

theorem Atento.append (h : x.Atento d) {e : Entrada} (hmsgId : y.msgId = x.msgId)
    (hentradas : y.entradas = x.entradas ++ [e])
    (hsalida : ∀ abierto, Esperado.step d x.msgId ⟨x.result.toSalida, abierto⟩ e =
      ⟨y.result.toSalida, abierto⟩)
    (hcompleted : y.completed = true → x.completed = true ∨ e.Completa x.msgId)
    (havisos : y.avisos = x.avisos) (hsubscribed : y.subscribed = true → x.subscribed = true) :
    y.Atento d := by
  have hesperado : y.esperado d = ⟨y.result.toSalida, (x.esperado d).abierto⟩ := by
    rw [esperado_append hmsgId hentradas, ← hsalida, h.salida]
  refine ⟨⟨?_, ?_, ?_⟩, ?_⟩
  · rw [hesperado]
  · intro hy
    rw [hentradas, hmsgId]
    rcases hcompleted hy with hx | he
    · obtain ⟨e', he', hcompleta⟩ := h.completed hx
      exact ⟨e', List.mem_append_left _ he', hcompleta⟩
    · exact ⟨e, List.mem_append_right _ (List.mem_singleton_self e), he⟩
  · rw [havisos, hmsgId]
    exact h.avisos
  · intro hy
    rw [hesperado]
    exact h.abierto (hsubscribed hy)

theorem Atento.interrupt (h : x.Atento d) : x.interrupt.Atento d := by
  refine h.append rfl rfl ?_ (fun _ => Or.inr trivial) rfl id
  intro abierto
  simp only [Esperado.step, Intento.interrupt]
  split <;> rfl

theorem Atento.expire (h : x.Atento d) : x.expire.Atento d := by
  refine h.append rfl rfl (fun _ => rfl) Or.inl rfl ?_
  intro h
  cases h

theorem Atento.giveBack (h : x.Atento d) : x.giveBack.Atento d :=
  ⟨⟨h.salida, h.completed, h.avisos⟩, h.abierto⟩

theorem Atento.receive_closed (h : x.Atento d) : (x.receive d .closed).Atento d := by
  simp only [receive]
  split
  · refine h.append rfl rfl (fun _ => rfl) (fun _ => Or.inr trivial) rfl ?_
    intro h
    cases h
  · exact h

theorem Atento.receive_error (h : x.Atento d) (text : String) :
    (x.receive d (.error text)).Atento d := by
  simp only [receive]
  split
  · refine h.append rfl rfl (fun _ => rfl) (fun _ => Or.inr trivial) rfl ?_
    intro h
    cases h
  · exact h

theorem esperado_frame {m : Message} (hmsgId : y.msgId = x.msgId)
    (hentradas : y.entradas = x.entradas ++ [.frame m]) :
    y.esperado d =
      if (x.esperado d).abierto = true ∧ m.parentId = some x.msgId then
        ⟨(x.esperado d).salida.add d m, !m.isIdle⟩ else x.esperado d :=
  esperado_append hmsgId hentradas

theorem Atento.onMessage (h : x.Atento d) {m : Message} (hsub : x.subscribed = true)
    (hm : x.Ajustada d m) : ((x.onMessage d m).log (.frame m)).Atento d := by
  set y := (x.onMessage d m).log (.frame m)
  have hentradas : y.entradas = x.entradas ++ [.frame m] := rfl
  have hesperado := esperado_frame (d := d) (y := y) (x := x) rfl hentradas
  have hmem : Entrada.frame m ∈ y.entradas :=
    List.mem_append_right _ (List.mem_singleton_self _)
  have hold {e : Entrada} (he : e ∈ x.entradas) : e ∈ y.entradas := List.mem_append_left _ he
  by_cases hown : m.parentId = some x.msgId
  · rw [if_pos ⟨h.abierto hsub, hown⟩] at hesperado
    refine ⟨⟨?_, ?_, ?_⟩, ?_⟩
    · rw [hesperado, ← h.salida]
      rfl
    · intro hy
      rcases Bool.or_eq_true_iff.mp hy with hx | hends
      · obtain ⟨e, he, hcompleta⟩ := h.completed hx
        exact ⟨e, hold he, hcompleta⟩
      · exact ⟨_, hmem, hown, hends⟩
    · intro a ha htarde
      simp only [y, log, Intento.onMessage] at ha
      split at ha
      · rcases List.mem_append.mp ha with ha | ha
        · exact h.avisos a ha htarde
        · obtain rfl := List.mem_singleton.mp ha
          exact hown
      · exact h.avisos a ha htarde
    · intro hy
      have hends : m.ends = false := by simpa [y, log, Intento.onMessage] using hy
      rw [hesperado]
      simp [isIdle_of_not_ends hends]
  · rw [if_neg fun hand => hown hand.2] at hesperado
    obtain ⟨hsalida, hends, hticks⟩ := (hm.oyendo hsub).resolve_left hown
    refine ⟨⟨?_, ?_, ?_⟩, ?_⟩
    · rw [hesperado, ← h.salida]
      exact hsalida
    · intro hy
      have hx : x.completed = true := by
        rcases Bool.or_eq_true_iff.mp hy with hx | hy
        · exact hx
        · exact hends hy
      obtain ⟨e, he, hcompleta⟩ := h.completed hx
      exact ⟨e, hold he, hcompleta⟩
    · intro a ha htarde
      simp only [y, log, Intento.onMessage] at ha
      split at ha
      · rename_i hticks'
        rcases List.mem_append.mp ha with ha | ha
        · exact h.avisos a ha htarde
        · obtain rfl := List.mem_singleton.mp ha
          rw [hticks hticks'] at htarde
          cases htarde
      · exact h.avisos a ha htarde
    · intro _
      rw [hesperado]
      exact h.abierto hsub

theorem Atento.log (h : x.Atento d) {m : Message} (hsub : x.subscribed = false)
    (hm : x.Ajustada d m) : (x.log (.frame m)).Atento d := by
  have hesperado := esperado_frame (d := d) (y := x.log (.frame m)) (x := x) rfl rfl
  refine ⟨⟨?_, ?_, h.avisos⟩, ?_⟩
  · rw [hesperado]
    split
    · rename_i hand
      rw [← h.salida]
      exact (hm.despues hsub hand.1 hand.2).symm
    · exact h.salida
  · intro hx
    obtain ⟨e, he, hcompleta⟩ := h.completed hx
    exact ⟨e, List.mem_append_left _ he, hcompleta⟩
  · intro hy
    exact absurd (hsub.symm.trans hy) Bool.false_ne_true

theorem Atento.receive_frame (h : x.Atento d) {m : Message} (hm : x.Ajustada d m) :
    (x.receive d (.frame m)).Atento d := by
  simp only [receive]
  split
  · rename_i hsub
    exact h.onMessage hsub hm
  · rename_i hsub
    exact h.log (Bool.eq_false_iff.mpr hsub) hm

end Intento

namespace ColabRuntime

variable {p : Plataforma}

def FrameAjustado (p : Plataforma) (s : ColabRuntime) : Evento → Prop
  | .frame _ raw => ∀ m, decodeFrame p.toDart raw = some m →
      ∀ x ∈ s.intentos, x.Ajustada p.toDart m
  | _ => True

theorem paso_atento (s : ColabRuntime) (e : Evento)
    (hs : ∀ x ∈ s.intentos, x.Atento p.toDart) (he : FrameAjustado p s e) :
    ∀ x ∈ (paso p s e).intentos, x.Atento p.toDart := by
  apply (paso_cambio p s e).forall_intentos hs
  · exact Intento.atento_nuevo p.toDart
  · exact fun x hx => hx.interrupt
  · exact fun x hx => hx.expire
  · exact fun x hx => hx.giveBack
  · exact fun x hx => hx.receive_closed
  · exact fun x text hx => hx.receive_error text
  · rintro k raw m rfl hm x hmem hx
    exact hx.receive_frame (he m hm x hmem)

/-- In every run whose frames fit the requests there are, each result is that of its own
request. -/
theorem atribuido_correr (p : Plataforma) (es : List Evento)
    (hes : Run.AllSteps (paso p) (FrameAjustado p) {} es) :
    ∀ x ∈ (correr p {} es).intentos, x.Atribuido p.toDart := by
  have hatento : ∀ x ∈ (correr p {} es).intentos, x.Atento p.toDart := by
    refine Run.invariant_of_allSteps (P := fun s => ∀ x ∈ s.intentos, x.Atento p.toDart)
      paso_atento ?_ hes
    intro x hx
    cases hx
  exact fun x hx => (hatento x hx).toAtribuido

def celda : List Evento := conectado ++
  [.frame 0 (.texto "salida de a"), .frame 0 (.texto "idle de a"), .retorno 0]

theorem atribuido_celda : ∃ x, (correr ejemplo {} celda).intentos[0]? = some x ∧
    x.result.stdoutBuf = "hola" ∧ x.Atribuido ejemplo.toDart := by
  refine ⟨_, rfl, by decide, ?_⟩
  refine atribuido_correr ejemplo celda ?_ _ (List.mem_of_getElem? (i := 0) rfl)
  refine ⟨trivial, trivial, trivial, ?_, ?_, trivial, trivial⟩
  · intro m hm x hx
    obtain rfl := Option.some.inj hm
    obtain rfl := List.mem_singleton.mp hx
    exact ⟨fun _ => Or.inl rfl, nofun⟩
  · intro m hm x hx
    obtain rfl := Option.some.inj hm
    obtain rfl := List.mem_singleton.mp hx
    exact ⟨fun _ => Or.inl rfl, nofun⟩

/-- What a cell prints after its time was up goes to the next one. -/
theorem salida_tardia : ¬ ∀ (p : Plataforma) (es : List Evento),
    ∀ x ∈ (correr p {} es).intentos, x.Atribuido p.toDart := by
  intro hall
  have hsalida := (hall ejemplo (conectado ++ [.timeout 0, .retorno 0, .execute "y = 2",
    .frame 0 (.texto "salida de a")]) _ (List.mem_of_getElem? (i := 1) rfl)).salida
  exact absurd (congrArg Salida.stdoutBuf hsalida) (by decide)

end ColabRuntime
end Nerea.Colab
