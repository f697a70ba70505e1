import Nerea.Dht.EngineLoops

/-!
# What an error of start or stop leaves behind

A `start` that fails to build the node or to spawn the thread has already opened the channel,
so that `probar` takes the spider for running; a `stop` that fails to save has raised the flag
and closed the channel, but keeps the handle, so that no `start` is accepted. The engine is
left as it was, or stopped, exactly when none of these steps fails. A build that panics returns
no error, but leaves the channel open all the same.
-/

set_option autoImplicit false

namespace Nerea.Dht.DhtBusca

variable {s s' : DhtBusca}

/-- `probar` reports for every hash that the spider is not running. -/
def NoCorre (s : DhtBusca) : Prop :=
  ∀ texto hash, hashDe texto = some (.ok hash) → bytesLen hash = 40 →
    hash.all isAsciiHexdigit = true →
    s.probar texto = some (s, .error "el spider no está corriendo")

/-- `start`, `stop` and `probar` answer as before, and the same loops go on. -/
structure MismaVista (s s' : DhtBusca) : Prop where
  hiloSpider : s'.hiloSpider = none ↔ s.hiloSpider = none
  probar : s'.NoCorre ↔ s.NoCorre
  sigue : ∀ c k, s'.Sigue c k ↔ s.Sigue c k

theorem MismaVista.refl (s : DhtBusca) : MismaVista s s := ⟨Iff.rfl, Iff.rfl, fun _ _ => Iff.rfl⟩

/-- After an error the engine is as it was, and after one of `stop` it runs or is stopped. -/
def Atomica (s : DhtBusca) : Evento → Prop
  | .start pasivo activo fijo efimero hilo => ∀ s' msg,
      s.start pasivo activo fijo efimero hilo = (s', some (.error msg)) →
      MismaVista s s' ∧ (s.hiloSpider = none → s'.hiloSpider = none ∧ s'.NoCorre)
  | .stop escribe renombra => ∀ s' msg, s.stop escribe renombra = (s', .error msg) →
      (MismaVista s s' ∧ s'.hiloSpider ≠ none ∧ ¬ s'.NoCorre) ∨
        (s'.hiloSpider = none ∧ s'.NoCorre)
  | _ => True

/-- A `start` is refused or nothing in it fails, and a `stop` saves the index or finds the
engine stopped. -/
def NoAMedias (s : DhtBusca) : Evento → Prop
  | .start pasivo activo fijo efimero hilo => s.hiloSpider ≠ none ∨
      (pasivo = false ∧ activo = false ∧ s.canal = none) ∨
      ((pasivo = true ∨ activo = true) ∧ construir fijo efimero = some (.ok ()) ∧ hilo = .ok ())
  | .stop escribe renombra => (s.hiloSpider = none ∧ s.canal = none) ∨
      (s.hiloSpider ≠ none ∧ guardar escribe renombra = .ok ())
  | _ => True

/-- A `start` that is not refused, and in which the building of the node panics. -/
def Aborta (s : DhtBusca) : Evento → Prop
  | .start pasivo activo fijo efimero _ => s.hiloSpider = none ∧
      (pasivo = true ∨ activo = true) ∧ construir fijo efimero = none
  | _ => False

def SinError (s : DhtBusca) : Evento → Prop
  | .start pasivo activo fijo efimero hilo =>
    (s.start pasivo activo fijo efimero hilo).2 = some (.ok ())
  | .stop escribe renombra => (s.stop escribe renombra).2 = .ok ()
  | _ => True

/-- A history in which no `start` and no `stop` returns an error reaches the state. -/
def Alcanzable (s : DhtBusca) : Prop :=
  ∃ es, Run.AllSteps paso SinError new es ∧ Run.run paso new es = s

def ceros : Texto := List.replicate 40 '0'

theorem noCorre_iff : s.NoCorre ↔ s.canal = none := by
  constructor
  · intro h
    have hceros := h ceros ceros (by decide) (by decide) (by decide)
    have hhash : hashDe ceros = some (.ok ceros) := by decide
    cases hcanal : s.canal with
    | none => rfl
    | some canal =>
      rw [probar, hhash] at hceros
      dsimp only at hceros
      rw [if_neg (by decide), hcanal] at hceros
      cases congrArg Prod.snd (Option.some.inj hceros)
  · intro hcanal texto hash hhash hlen hhex
    rw [probar, hhash]
    dsimp only
    rw [if_neg (by simp [hlen, hhex]), hcanal]

theorem atomica_start_iff (s : DhtBusca) (pasivo activo : Bool)
    (fijo efimero : Option (Except String Unit)) (hilo : Except String Unit) :
    s.Atomica (.start pasivo activo fijo efimero hilo) ↔
      s.NoAMedias (.start pasivo activo fijo efimero hilo) ∨
        s.Aborta (.start pasivo activo fijo efimero hilo) := by
  rw [Atomica, NoAMedias, Aborta]
  generalize hr : s.start pasivo activo fijo efimero hilo = r
  have h := hr ▸ start_arranque s pasivo activo fijo efimero hilo
  cases h with
  | rechazado msg hguarda =>
    constructor
    · intro hatomica
      by_cases hnone : s.hiloSpider = none
      · obtain ⟨hpasivo, hactivo⟩ := hguarda.resolve_left (not_not.mpr hnone)
        have hcanal := noCorre_iff.mp ((hatomica s msg rfl).2 hnone).2
        exact Or.inl (Or.inr (Or.inl ⟨hpasivo, hactivo, hcanal⟩))
      · exact Or.inl (Or.inl hnone)
    · rintro hcond s' msg' heq
      cases heq
      refine ⟨MismaVista.refl s, fun hnone => ⟨hnone, noCorre_iff.mpr ?_⟩⟩
      have hsin := hguarda.resolve_left (not_not.mpr hnone)
      rcases hcond with (hsome | ⟨-, -, hcanal⟩ | ⟨hmodo, -, -⟩) | ⟨-, hmodo, -⟩
      · exact absurd hnone hsome
      · exact hcanal
      · exact absurd hsin (not_sinModo hmodo)
      · exact absurd hsin (not_sinModo hmodo)
  | panico hnone hmodo hconstruir =>
    refine iff_of_true ?_ (Or.inr ⟨hnone, hmodo, hconstruir⟩)
    intro s' msg heq
    cases congrArg Prod.snd heq
  | fallido dht msg hnone hmodo hvuelve hfalla =>
    refine iff_of_false ?_ ?_
    · intro hatomica
      have hcanal := noCorre_iff.mp ((hatomica _ msg rfl).2 hnone).2
      cases hcanal
    · rintro ((hsome | ⟨hpasivo, hactivo, -⟩ | ⟨-, hconstruir, hhilo⟩) | ⟨-, -, hpanico⟩)
      · exact hsome hnone
      · exact not_sinModo hmodo ⟨hpasivo, hactivo⟩
      · exact hfalla.elim (fun h => h hconstruir) (fun h => h hhilo)
      · exact hvuelve hpanico
  | lanzado hnone hmodo hconstruir hhilo =>
    refine iff_of_true ?_ (Or.inl (Or.inr (Or.inr ⟨hmodo, hconstruir, hhilo⟩)))
    intro s' msg heq
    cases congrArg Prod.snd heq

theorem atomica_stop_iff (s : DhtBusca) (escribe renombra : Except String Unit) :
    s.Atomica (.stop escribe renombra) ↔ s.NoAMedias (.stop escribe renombra) := by
  rw [Atomica, NoAMedias]
  generalize hr : s.stop escribe renombra = r
  have h := hr ▸ stop_parada s escribe renombra
  cases h with
  | rechazada msg hnone =>
    constructor
    · intro hatomica
      rcases hatomica s msg rfl with ⟨-, hsome, -⟩ | ⟨-, hcanal⟩
      · exact absurd hnone hsome
      · exact Or.inl ⟨hnone, noCorre_iff.mp hcanal⟩
    · rintro hcond s' msg' heq
      cases heq
      rcases hcond with ⟨-, hcanal⟩ | ⟨hsome, -⟩
      · exact Or.inr ⟨hnone, noCorre_iff.mpr hcanal⟩
      · exact absurd hnone hsome
  | aMedias msg hsome hfalla =>
    refine iff_of_false ?_ ?_
    · intro hatomica
      rcases hatomica _ msg rfl with ⟨-, -, hcorre⟩ | ⟨hnone, -⟩
      · exact hcorre (noCorre_iff.mpr rfl)
      · exact hsome hnone
    · intro hguardar
      rcases hguardar with ⟨hnone, -⟩ | ⟨-, hguardar⟩
      · exact hsome hnone
      · exact hfalla hguardar
  | completa hsome hguardar =>
    refine iff_of_true ?_ (Or.inr ⟨hsome, hguardar⟩)
    intro s' msg heq
    cases heq

theorem atomica_iff (s : DhtBusca) (e : Evento) : s.Atomica e ↔ s.NoAMedias e ∨ s.Aborta e := by
  cases e with
  | start pasivo activo fijo efimero hilo =>
    exact atomica_start_iff s pasivo activo fijo efimero hilo
  | stop escribe renombra =>
    exact (atomica_stop_iff s escribe renombra).trans (or_iff_left id).symm
  | _ => exact (or_iff_left id).symm

/-- A call that meets the condition returns without an error or changes nothing. -/
theorem NoAMedias.sinError_or {e : Evento} (h : s.NoAMedias e) : s.SinError e ∨ s.paso e = s := by
  cases e with
  | start pasivo activo fijo efimero hilo =>
    rw [SinError, paso]
    generalize hr : s.start pasivo activo fijo efimero hilo = r
    have hcase := hr ▸ start_arranque s pasivo activo fijo efimero hilo
    cases hcase with
    | rechazado => exact Or.inr rfl
    | panico hnone hmodo hpanico =>
      rcases h with hsome | ⟨hpasivo, hactivo, -⟩ | ⟨-, hconstruir, -⟩
      · exact absurd hnone hsome
      · exact absurd ⟨hpasivo, hactivo⟩ (not_sinModo hmodo)
      · cases hpanico.symm.trans hconstruir
    | fallido dht msg hnone hmodo hvuelve hfalla =>
      rcases h with hsome | ⟨hpasivo, hactivo, -⟩ | ⟨-, hconstruir, hhilo⟩
      · exact absurd hnone hsome
      · exact absurd ⟨hpasivo, hactivo⟩ (not_sinModo hmodo)
      · exact (hfalla.elim (fun h => h hconstruir) (fun h => h hhilo)).elim
    | lanzado => exact Or.inl rfl
  | stop escribe renombra =>
    rw [SinError, paso]
    generalize hr : s.stop escribe renombra = r
    have hcase := hr ▸ stop_parada s escribe renombra
    cases hcase with
    | rechazada => exact Or.inr rfl
    | aMedias msg hsome hfalla =>
      rcases h with ⟨hnone, -⟩ | ⟨-, hguardar⟩
      · exact absurd hnone hsome
      · exact absurd hguardar hfalla
    | completa => exact Or.inl rfl
  | _ => exact Or.inl trivial

/-- Without errors the channel is open exactly while the handle is kept. -/
def Acorde (s : DhtBusca) : Prop := s.hiloSpider = none ↔ s.canal = none

/-- Only `start` and `stop` touch the handle and the channel. -/
theorem acorde_suelto {e : Evento}
    (hstart : ∀ pasivo activo fijo efimero hilo, e ≠ .start pasivo activo fijo efimero hilo)
    (hstop : ∀ escribe renombra, e ≠ .stop escribe renombra) : Acorde (s.paso e) ↔ Acorde s := by
  have hsame : (s.paso e).hiloSpider = s.hiloSpider ∧ (s.paso e).canal = s.canal := by
    cases e with
    | start pasivo activo fijo efimero hilo =>
      exact absurd rfl (hstart pasivo activo fijo efimero hilo)
    | stop escribe renombra => exact absurd rfl (hstop escribe renombra)
    | probar texto =>
      unfold DhtBusca.paso probar
      dsimp only
      split
      · exact ⟨rfl, rfl⟩
      · exact ⟨rfl, rfl⟩
      · split
        · exact ⟨rfl, rfl⟩
        · split <;> exact ⟨rfl, rfl⟩
    | captura hash =>
      unfold DhtBusca.paso captura
      dsimp only
      split <;> exact ⟨rfl, rfl⟩
    | spider k hallado =>
      unfold DhtBusca.paso spider sondear
      dsimp only
      repeat' split
      all_goals exact ⟨rfl, rfl⟩
    | metaLoop k sesion caido =>
      unfold DhtBusca.paso metaLoop sondear
      dsimp only
      repeat' split
      all_goals exact ⟨rfl, rfl⟩
  rw [Acorde, hsame.1, hsame.2, Acorde]

theorem Acorde.paso {e : Evento} (hs : Acorde s) (he : s.SinError e) : Acorde (s.paso e) := by
  cases e with
  | start pasivo activo fijo efimero hilo =>
    rw [SinError] at he
    rw [DhtBusca.paso]
    generalize hr : s.start pasivo activo fijo efimero hilo = r at he
    have hcase := hr ▸ start_arranque s pasivo activo fijo efimero hilo
    cases hcase with
    | lanzado => exact iff_of_false (Option.some_ne_none _) (Option.some_ne_none _)
    | _ => cases he
  | stop escribe renombra =>
    rw [SinError] at he
    rw [DhtBusca.paso]
    generalize hr : s.stop escribe renombra = r at he
    have hcase := hr ▸ stop_parada s escribe renombra
    cases hcase with
    | completa => exact iff_of_true rfl rfl
    | _ => cases he
  | probar texto => exact (acorde_suelto (e := .probar texto) nofun nofun).mpr hs
  | captura hash => exact (acorde_suelto (e := .captura hash) nofun nofun).mpr hs
  | spider k hallado => exact (acorde_suelto (e := .spider k hallado) nofun nofun).mpr hs
  | metaLoop k sesion caido =>
    exact (acorde_suelto (e := .metaLoop k sesion caido) nofun nofun).mpr hs

theorem Alcanzable.acorde (hs : Alcanzable s) : Acorde s := by
  obtain ⟨es, hes, rfl⟩ := hs
  have hnew : Acorde new := Iff.rfl
  exact Run.invariant_of_allSteps (fun s e h he => Acorde.paso h he) hnew hes

/-- A panic of `start` leaves a state that no history without errors reaches. -/
theorem Aborta.not_alcanzable {e : Evento} (h : s.Aborta e) : ¬ Alcanzable (s.paso e) := by
  intro hs
  cases e with
  | start pasivo activo fijo efimero hilo =>
    obtain ⟨hnone, hmodo, hpanico⟩ := h
    have hacorde := hs.acorde
    rw [DhtBusca.paso] at hacorde
    generalize hr : s.start pasivo activo fijo efimero hilo = r at hacorde
    have hcase := hr ▸ start_arranque s pasivo activo fijo efimero hilo
    cases hcase with
    | rechazado msg hguarda =>
      exact hguarda.elim (fun hsome => hsome hnone) (not_sinModo hmodo)
    | panico => exact Option.some_ne_none _ (hacorde.mp hnone)
    | fallido _ _ _ _ hvuelve => exact hvuelve hpanico
    | lanzado _ _ hconstruir => cases hpanico.symm.trans hconstruir
  | _ => exact h

theorem Alcanzable.paso {e : Evento} (hs : Alcanzable s) (he : s.NoAMedias e) :
    Alcanzable (s.paso e) := by
  obtain ⟨es, hes, rfl⟩ := hs
  rcases he.sinError_or with hsin | hsame
  · exact ⟨es ++ [e], hes.concat hsin, Run.run_concat _ es e⟩
  · exact ⟨es, hes, hsame.symm⟩

/-- Of every engine, a call that returns an error leaves it as it was or stopped exactly when
the condition holds or the call panics instead; and a run has only such calls, and reaches
only states a history without errors reaches, exactly when all its steps meet it. -/
theorem atomicas_iff (s : DhtBusca) (e : Evento) (es : List Evento) :
    (s.Atomica e ↔ s.NoAMedias e ∨ s.Aborta e) ∧
      (Run.AllSteps paso Atomica new es ∧ Run.Always paso Alcanzable new es ↔
        Run.AllSteps paso NoAMedias new es) := by
  refine ⟨atomica_iff s e, ?_, ?_⟩
  · rintro ⟨hatomicas, halcanzables⟩
    have hafter : Run.AllSteps paso (fun s e => Alcanzable (s.paso e)) new es :=
      Run.allSteps_of_always (fun _ _ => id) halcanzables
    refine (hatomicas.and hafter).imp fun s e h => ?_
    rcases (atomica_iff s e).mp h.1 with hcond | haborta
    · exact hcond
    · exact absurd h.2 haborta.not_alcanzable
  · intro h
    refine ⟨h.imp fun s e he => (atomica_iff s e).mpr (Or.inl he), ?_⟩
    apply Run.always_of_allSteps (fun s e hs he => Alcanzable.paso hs he) ?_ h
    exact ⟨[], trivial, rfl⟩

/-- Neither port can be bound: the channel stays open. -/
theorem sinPuerto_canal : ¬ ∀ s e, Atomica s e := by
  intro h
  have hcanal := h new (.start true false (some (.error "en uso")) (some (.error "en uso"))
    (.ok ())) _ _ rfl
  exact absurd (noCorre_iff.mp (hcanal.2 rfl).2) (by decide)

end Nerea.Dht.DhtBusca
