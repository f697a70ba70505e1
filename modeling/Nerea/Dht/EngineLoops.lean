import Nerea.Dht.Engine

/-!
# At most one loop of each kind

A `start` that finds a loop of an earlier one still running clears the flag that loop has not
read yet, so that it runs on beside the new one. There is never more than one loop of a class,
and none outlives the `stop` that met it, exactly when every `start` waits for the ends.
-/

set_option autoImplicit false

namespace Nerea.Dht.DhtBusca

variable {s s' : DhtBusca} {c c' : Clase} {k k' : ℕ} {t t' : Tarea}

/-- The loop has not ended, and at the flag it would find it clear. -/
def Sigue (s : DhtBusca) (c : Clase) (k : ℕ) : Prop :=
  s.stopFlag = false ∧ vive (s.tareas c k) = true

structure Gobernado (s : DhtBusca) : Prop where
  unica : ∀ c j k, s.Sigue c j → s.Sigue c k → j = k
  detenidas : ∀ c k t, s.tareas c k = some t → t.detenida = true → ¬ s.Sigue c k
  reanudadas : s.reanudadas = []

/-- A `start` that is not refused finds no loop running. -/
def SinRestos (s : DhtBusca) : Evento → Prop
  | .start pasivo activo _ _ _ => s.hiloSpider = none → (pasivo = true ∨ activo = true) →
      ∀ c k, vive (s.tareas c k) = false
  | _ => True

/-- A running loop that no `stop` has met is of the last `start`, and later numbers are free. -/
structure Enlazado (s : DhtBusca) : Prop where
  hilo : ∀ c k t, s.tareas c k = some t → vive (s.tareas c k) = true → t.detenida = false →
    s.hiloSpider = some k
  libres : ∀ c k, s.lanzadas ≤ k → s.tareas c k = none

@[simp] theorem tareas_pon_self : (s.pon c k t).tareas c k = some t := by
  simp [pon]

theorem tareas_pon_of_ne (h : ¬ (c' = c ∧ k' = k)) :
    (s.pon c k t).tareas c' k' = s.tareas c' k' := by
  by_cases hc : c' = c
  · subst hc
    have hk : k' ≠ k := fun hk => h ⟨rfl, hk⟩
    simp [pon, hk]
  · simp [pon, hc]

/-- The loops of `s'` were there before with the same note, and those that run ran. -/
def Decae (s s' : DhtBusca) : Prop :=
  ∀ c k t', s'.tareas c k = some t' → ∃ t, s.tareas c k = some t ∧ t.detenida = t'.detenida ∧
    (vive (some t') = true → vive (some t) = true)

theorem Decae.refl (s : DhtBusca) : Decae s s :=
  fun _ _ t ht => ⟨t, ht, rfl, id⟩

theorem decae_pon (ht : s.tareas c k = some t) (hdetenida : t'.detenida = t.detenida)
    (hvive : vive (some t) = true) : Decae s (s.pon c k t') := by
  intro c' k' u hu
  by_cases h : c' = c ∧ k' = k
  · obtain ⟨rfl, rfl⟩ := h
    rw [tareas_pon_self] at hu
    cases hu
    exact ⟨t, ht, hdetenida.symm, fun _ => hvive⟩
  · rw [tareas_pon_of_ne h] at hu
    exact ⟨u, hu, rfl, id⟩

/-- What a step of a loop may do to the rest of the engine. -/
structure Discreto (s s' : DhtBusca) : Prop where
  stopFlag : s'.stopFlag = s.stopFlag
  hiloSpider : s'.hiloSpider = s.hiloSpider
  lanzadas : s'.lanzadas = s.lanzadas
  tareas : Decae s s'
  reanudadas : s'.reanudadas = s.reanudadas ∨ ∃ c k t, s.tareas c k = some t ∧
    t.detenida = true ∧ s.Sigue c k

theorem Discreto.refl (s : DhtBusca) : Discreto s s :=
  ⟨rfl, rfl, rfl, Decae.refl s, Or.inl rfl⟩

theorem Discreto.enlazado (h : Discreto s s') (hs : Enlazado s) : Enlazado s' where
  hilo := by
    intro c k t' ht' hvive hdetenida
    obtain ⟨t, ht, hnote, hran⟩ := h.tareas c k t' ht'
    rw [h.hiloSpider]
    apply hs.hilo c k t ht
    · rw [ht]
      rw [ht'] at hvive
      exact hran hvive
    · rw [hnote, hdetenida]
  libres := by
    intro c k hk
    rw [h.lanzadas] at hk
    cases ht' : s'.tareas c k with
    | none => rfl
    | some t' =>
      obtain ⟨t, ht, -, -⟩ := h.tareas c k t' ht'
      rw [hs.libres c k hk] at ht
      cases ht

theorem Discreto.gobernado (h : Discreto s s') (hs : Gobernado s) : Gobernado s' := by
  have hsigue {c : Clase} {k : ℕ} (hk : s'.Sigue c k) : s.Sigue c k := by
    obtain ⟨hflag, hvive⟩ := hk
    cases ht' : s'.tareas c k with
    | none =>
      rw [ht'] at hvive
      cases hvive
    | some t' =>
      obtain ⟨t, ht, -, hran⟩ := h.tareas c k t' ht'
      rw [ht'] at hvive
      refine ⟨h.stopFlag ▸ hflag, ?_⟩
      rw [ht]
      exact hran hvive
  refine ⟨fun c j k hj hk => hs.unica c j k (hsigue hj) (hsigue hk), ?_, ?_⟩
  · intro c k t' ht' hdetenida hk
    obtain ⟨t, ht, hnote, -⟩ := h.tareas c k t' ht'
    exact hs.detenidas c k t ht (hnote.trans hdetenida) (hsigue hk)
  · rcases h.reanudadas with heq | ⟨c, k, t, ht, hdetenida, hk⟩
    · rw [heq, hs.reanudadas]
    · exact absurd hk (hs.detenidas c k t ht hdetenida)

theorem discreto_pon (ht : s.tareas c k = some t) (hdetenida : t'.detenida = t.detenida)
    (hvive : vive (some t) = true) : Discreto s (s.pon c k t') :=
  ⟨rfl, rfl, rfl, decae_pon ht hdetenida hvive, Or.inl rfl⟩

theorem discreto_sondear (ht : s.tareas c k = some t) (hvive : vive (some t) = true) :
    Discreto s (s.sondear c k t) := by
  unfold sondear
  split
  · exact discreto_pon ht rfl hvive
  · rename_i hflag
    refine ⟨rfl, rfl, rfl, ?_, ?_⟩
    · have hpon : Decae s (s.pon c k { t with punto := .vuelta }) := decae_pon ht rfl hvive
      exact hpon
    · cases hdetenida : t.detenida with
      | false => exact Or.inl (by simp [entrar, hdetenida])
      | true =>
        refine Or.inr ⟨c, k, t, ht, hdetenida, Bool.eq_false_iff.mpr hflag, ?_⟩
        rw [ht, hvive]

theorem discreto_spider (s : DhtBusca) (k : ℕ) (hallado : Option Texto) :
    Discreto s (s.spider k hallado) := by
  unfold spider
  split
  · exact Discreto.refl s
  · rename_i t ht
    split
    · rename_i hpunto
      exact discreto_pon ht rfl (by simp [vive, hpunto])
    · rename_i hpunto
      exact discreto_sondear ht (by simp [vive, hpunto])
    · rename_i hpunto
      have hvive : vive (some t) = true := by simp [vive, hpunto]
      split
      · have henvia (hash : Texto) : Discreto s
            ((s.envia t.canal hash).pon .spider k { t with punto := .sondeo }) := by
          have hpon : Discreto s (s.pon .spider k { t with punto := .sondeo }) :=
            discreto_pon ht rfl hvive
          exact ⟨rfl, rfl, rfl, hpon.tareas, Or.inl rfl⟩
        exact henvia _
      · exact discreto_pon ht rfl hvive
    · exact Discreto.refl s

theorem discreto_metaLoop (s : DhtBusca) (k : ℕ) (sesion caido : Bool) :
    Discreto s (s.metaLoop k sesion caido) := by
  unfold metaLoop
  split
  · exact Discreto.refl s
  · rename_i t ht
    split
    · rename_i hpunto
      exact discreto_pon ht rfl (by simp [vive, hpunto])
    · rename_i hpunto
      exact discreto_sondear ht (by simp [vive, hpunto])
    · rename_i hpunto
      have hvive : vive (some t) = true := by simp [vive, hpunto]
      have hpon (punto : Punto) : Discreto s (s.pon .metaLoop k { t with punto := punto }) :=
        discreto_pon ht rfl hvive
      exact ⟨rfl, rfl, rfl, (hpon _).tareas, Or.inl rfl⟩
    · exact Discreto.refl s

theorem discreto_envia (s : DhtBusca) (canal : ℕ) (hash : Texto) :
    Discreto s (s.envia canal hash) :=
  ⟨rfl, rfl, rfl, Decae.refl s, Or.inl rfl⟩

theorem discreto_captura (s : DhtBusca) (hash : Texto) : Discreto s (s.captura hash) := by
  unfold captura
  split
  · exact Discreto.refl s
  · exact discreto_envia s _ hash

theorem discreto_probar (s : DhtBusca) (texto : Texto) : Discreto s (s.paso (.probar texto)) := by
  unfold paso probar
  dsimp only
  split
  · exact Discreto.refl s
  · exact Discreto.refl s
  · split
    · exact Discreto.refl s
    · split
      · exact Discreto.refl s
      · exact discreto_envia s _ _

theorem marcar_eq_some (h : s.marcar.tareas c k = some t') : t'.detenida = true := by
  obtain ⟨t, -, rfl⟩ := Option.map_eq_some_iff.mp h
  rfl

theorem marcar_eq_none (h : s.tareas c k = none) : s.marcar.tareas c k = none := by
  rw [marcar]
  dsimp only
  rw [h, Option.map_none]

theorem Enlazado.marcar (hs : Enlazado s) : Enlazado s.marcar where
  hilo := by
    intro c k t' ht' _ hdetenida
    rw [marcar_eq_some ht'] at hdetenida
    cases hdetenida
  libres := fun c k hk => marcar_eq_none (hs.libres c k hk)

theorem Enlazado.of_tareas (hs : Enlazado s) (hhilo : s'.hiloSpider = s.hiloSpider)
    (htareas : s'.tareas = s.tareas) (hlanzadas : s'.lanzadas = s.lanzadas) : Enlazado s' := by
  obtain ⟨hilo, libres⟩ := hs
  rw [← hhilo, ← htareas] at hilo
  rw [← hlanzadas, ← htareas] at libres
  exact ⟨hilo, libres⟩

theorem Enlazado.stop (hs : Enlazado s) (escribe renombra : Except String Unit) :
    Enlazado (s.stop escribe renombra).1 := by
  generalize hr : s.stop escribe renombra = r
  have h := hr ▸ stop_parada s escribe renombra
  cases h with
  | rechazada => exact hs
  | aMedias =>
    have hsenalar : Enlazado s.senalar := hs.of_tareas rfl rfl rfl
    exact hsenalar.marcar
  | completa =>
    constructor
    · intro c k t' ht' _ hdetenida
      rw [marcar_eq_some ht'] at hdetenida
      cases hdetenida
    · exact fun c k hk => marcar_eq_none (hs.libres c k hk)

/-- While the flag is up no loop goes on. -/
theorem Gobernado.stop (hs : Gobernado s) (escribe renombra : Except String Unit) :
    Gobernado (s.stop escribe renombra).1 := by
  have hup {s' : DhtBusca} (hflag : s'.stopFlag = true)
      (hreanudadas : s'.reanudadas = s.reanudadas) : Gobernado s' := by
    have hsigue {c : Clase} {k : ℕ} : ¬ s'.Sigue c k := by
      intro hclear
      rcases hclear with ⟨hclear, -⟩
      rw [hflag] at hclear
      cases hclear
    exact ⟨fun c j k hj => absurd hj hsigue, fun c k t _ _ => hsigue,
      hreanudadas.trans hs.reanudadas⟩
  generalize hr : s.stop escribe renombra = r
  have h := hr ▸ stop_parada s escribe renombra
  cases h with
  | rechazada => exact hs
  | aMedias => exact hup rfl rfl
  | completa => exact hup rfl rfl

theorem tareas_lanzar_self (canal : ℕ) (activo : Bool) (c : Clase) :
    (s.lanzar canal activo).tareas c s.lanzadas = some ⟨.arranque, canal, activo, false⟩ := by
  cases c with
  | spider => simp [lanzar, pon]
  | metaLoop => simp [lanzar, pon]

theorem tareas_lanzar_of_ne (canal : ℕ) (activo : Bool) (c : Clase) (hk : k ≠ s.lanzadas) :
    (s.lanzar canal activo).tareas c k = s.tareas c k := by
  have hne (c' : Clase) : ¬ (c = c' ∧ k = s.lanzadas) := fun h => hk h.2
  rw [lanzar]
  exact (tareas_pon_of_ne (hne .metaLoop)).trans (tareas_pon_of_ne (hne .spider))

theorem Enlazado.start (hs : Enlazado s) (pasivo activo : Bool)
    (fijo efimero : Option (Except String Unit)) (hilo : Except String Unit) :
    Enlazado (s.start pasivo activo fijo efimero hilo).1 := by
  generalize hr : s.start pasivo activo fijo efimero hilo = r
  have h := hr ▸ start_arranque s pasivo activo fijo efimero hilo
  cases h with
  | rechazado => exact hs
  | panico => exact hs.of_tareas rfl rfl rfl
  | fallido => exact hs.of_tareas rfl rfl rfl
  | lanzado hnone =>
    have hother {k : ℕ} := tareas_lanzar_of_ne (s := { s.abrir with dht := some s.canales })
      (k := k) s.canales activo
    constructor
    · intro c k t ht hvive hdetenida
      by_cases hk : k = s.lanzadas
      · exact congrArg some hk.symm
      · rw [hother c hk] at ht hvive
        have hold := hs.hilo c k t ht hvive hdetenida
        rw [hnone] at hold
        cases hold
    · intro c k hk
      have hlt : s.lanzadas < k := hk
      rw [hother c (Nat.ne_of_gt hlt)]
      exact hs.libres c k (Nat.le_of_lt hlt)

/-- The flag is clear after a `start` that is not refused, so a loop left over goes on. -/
theorem Gobernado.sinRestos (hI : Enlazado s) (hnone : s.hiloSpider = none)
    (hs' : Gobernado s') (hflag : s'.stopFlag = false)
    (htareas : ∀ c k, k ≠ s.lanzadas → s'.tareas c k = s.tareas c k) (c : Clase) (k : ℕ) :
    vive (s.tareas c k) = false := by
  by_contra hvive
  have hvive := Bool.of_not_eq_false hvive
  cases ht : s.tareas c k with
  | none =>
    rw [ht] at hvive
    cases hvive
  | some t =>
    have hk : k ≠ s.lanzadas := by
      rintro rfl
      rw [hI.libres c s.lanzadas (Nat.le_refl _)] at ht
      cases ht
    cases hdetenida : t.detenida with
    | false =>
      have hhilo := hI.hilo c k t ht hvive hdetenida
      rw [hnone] at hhilo
      cases hhilo
    | true =>
      rw [← htareas c k hk] at ht hvive
      exact hs'.detenidas c k t ht hdetenida ⟨hflag, hvive⟩

/-- A `start` that clears the flag and starts no loop. -/
theorem Gobernado.abierto_iff (hI : Enlazado s) (hs : Gobernado s) (hnone : s.hiloSpider = none)
    {pasivo activo : Bool} (hmodo : pasivo = true ∨ activo = true)
    (hflag : s'.stopFlag = false) (htareas : s'.tareas = s.tareas)
    (hreanudadas : s'.reanudadas = s.reanudadas) :
    Gobernado s' ↔ (s.hiloSpider = none → (pasivo = true ∨ activo = true) →
      ∀ c k, vive (s.tareas c k) = false) := by
  constructor
  · intro hs' _ _
    exact hs'.sinRestos hI hnone hflag fun c k _ => by rw [htareas]
  · intro hrestos
    have hsigue {c : Clase} {k : ℕ} : ¬ s'.Sigue c k := by
      intro hvive
      rcases hvive with ⟨-, hvive⟩
      rw [htareas] at hvive
      have hfin : vive (s.tareas c k) = false := hrestos hnone hmodo c k
      exact absurd (hfin.symm.trans hvive) (by decide)
    exact ⟨fun c j k hj => absurd hj hsigue, fun c k t _ _ => hsigue,
      hreanudadas.trans hs.reanudadas⟩

theorem Gobernado.start_iff (hI : Enlazado s) (hs : Gobernado s) (pasivo activo : Bool)
    (fijo efimero : Option (Except String Unit)) (hilo : Except String Unit) :
    Gobernado (s.start pasivo activo fijo efimero hilo).1 ↔
      s.SinRestos (.start pasivo activo fijo efimero hilo) := by
  rw [SinRestos]
  generalize hr : s.start pasivo activo fijo efimero hilo = r
  have h := hr ▸ start_arranque s pasivo activo fijo efimero hilo
  cases h with
  | rechazado msg hguarda =>
    refine iff_of_true hs fun hnone hmodo => ?_
    rcases hguarda with hsome | hsin
    · exact absurd hnone hsome
    · exact absurd hsin (not_sinModo hmodo)
  | panico hnone hmodo =>
    exact hs.abierto_iff hI hnone hmodo rfl rfl rfl
  | fallido dht msg hnone hmodo =>
    exact hs.abierto_iff hI hnone hmodo rfl rfl rfl
  | lanzado hnone hmodo =>
    have hself (c : Clase) : ({ s.abrir with dht := some s.canales }.lanzar s.canales
        activo).tareas c s.lanzadas = some ⟨.arranque, s.canales, activo, false⟩ :=
      tareas_lanzar_self s.canales activo c
    have hother {k : ℕ} := tareas_lanzar_of_ne (s := { s.abrir with dht := some s.canales })
      (k := k) s.canales activo
    constructor
    · intro hs' _ _
      exact hs'.sinRestos hI hnone rfl fun c k hk => hother c hk
    · intro hrestos
      have hsigue {c : Clase} {k : ℕ}
          (hk : ({ s.abrir with dht := some s.canales }.lanzar s.canales activo).Sigue c k) :
          k = s.lanzadas := by
        by_contra hne
        have hvive := hk.2
        rw [hother c hne] at hvive
        have hfin : vive (s.tareas c k) = false := hrestos hnone hmodo c k
        exact absurd (hfin.symm.trans hvive) (by decide)
      refine ⟨fun c j k hj hk => (hsigue hj).trans (hsigue hk).symm, ?_, hs.reanudadas⟩
      intro c k t ht hdetenida hk
      have hnew := hself c
      rw [← hsigue hk] at hnew
      rw [hnew] at ht
      cases ht
      cases hdetenida

theorem Enlazado.paso (hs : Enlazado s) (e : Evento) : Enlazado (s.paso e) := by
  cases e with
  | start pasivo activo fijo efimero hilo => exact hs.start pasivo activo fijo efimero hilo
  | stop escribe renombra => exact hs.stop escribe renombra
  | probar texto => exact (discreto_probar s texto).enlazado hs
  | captura hash => exact (discreto_captura s hash).enlazado hs
  | spider k hallado => exact (discreto_spider s k hallado).enlazado hs
  | metaLoop k sesion caido => exact (discreto_metaLoop s k sesion caido).enlazado hs

theorem Gobernado.paso_iff (hI : Enlazado s) (hs : Gobernado s) (e : Evento) :
    Gobernado (s.paso e) ↔ s.SinRestos e := by
  cases e with
  | start pasivo activo fijo efimero hilo => exact hs.start_iff hI pasivo activo fijo efimero hilo
  | stop escribe renombra => exact iff_of_true (hs.stop escribe renombra) trivial
  | probar texto => exact iff_of_true ((discreto_probar s texto).gobernado hs) trivial
  | captura hash => exact iff_of_true ((discreto_captura s hash).gobernado hs) trivial
  | spider k hallado => exact iff_of_true ((discreto_spider s k hallado).gobernado hs) trivial
  | metaLoop k sesion caido =>
    exact iff_of_true ((discreto_metaLoop s k sesion caido).gobernado hs) trivial

theorem new_enlazado : Enlazado new := by
  constructor
  · intro c k t ht
    cases ht
  · intro c k _
    rfl

theorem new_gobernado : Gobernado new := by
  refine ⟨?_, ?_, rfl⟩
  · intro c j k hvive
    rcases hvive with ⟨-, hvive⟩
    cases hvive
  · intro c k t ht
    cases ht

/-- At every moment at most one loop of a class goes on, and none that was running when a
`stop` returned, exactly when no `start` finds a loop running. -/
theorem gobernado_iff (es : List Evento) :
    Run.Always paso Gobernado new es ↔ Run.AllSteps paso SinRestos new es := by
  apply Run.always_iff_of_invariant (I := Enlazado)
  · intro s e hs _
    exact hs.paso e
  · intro s e hI hs
    exact hs.paso_iff hI e
  · exact new_enlazado
  · exact new_gobernado

/-- Stopped and started again between two looks at the flag: the first spider goes on beside
the second. -/
def parpadeo : List Evento :=
  [.start true false (some (.ok ())) (some (.ok ())) (.ok ()), .spider 0 none, .spider 0 none,
    .stop (.ok ()) (.ok ()), .start true false (some (.ok ())) (some (.ok ())) (.ok ()),
    .spider 0 none, .spider 0 none]

theorem parpadeo_reanuda : ¬ ∀ es, Run.Always paso Gobernado new es := by
  intro h
  have hfin := (h parpadeo).2.2.2.2.2.2.2
  exact absurd hfin.reanudadas (by decide)

end Nerea.Dht.DhtBusca
